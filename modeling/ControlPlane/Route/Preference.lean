import ControlPlane.Route.Record

/-!
# Comparing routes

A router prefers the longer prefix, then the lower administrative distance, the higher local preference,
the lower metric, the lower multi-exit discriminator, the better OSPF type, routes learned over eBGP, and
last the lower router id.  `Comparing.isAtLeast` is this lexicographic preference and `Comparing.isSame`
says that two records describe the same route.

An attribute that the better record does not model never decides; one that only the other record lacks
takes its default.
-/
namespace ControlPlane

/-- What is known about the edge that a route came over. -/
structure Arrival where
  /-- The area of the interface, null when it has none. -/
  area : Document
  peerId : Except Failure (Option Document)

structure Comparing where
  protocol : Protocol
  /-- Whether ties are left open. -/
  multipath : Except Failure Bool
  /-- The edge that the compared route came over, if it did. -/
  arrival : Option Arrival := none

namespace Comparing

/-! ## §1. The same route -/

/-- A number is the same; a number that only the other record lacks takes a default. -/
def sameNumber (best other : Option (Term .int)) (default : Int) : Term .bool :=
  match best with
  | none => .yes
  | some b => .eq b (other.getD (.intLit default))

def sameType (best other : Record) : Term .bool :=
  match best.ospfType, other.ospfType with
  | none, _ => .yes
  | some b, none => b.isDefault
  | some b, some o => b.equal o

/-- The OSPF area is the same; a route that came over an edge is in the area of its interface. -/
def sameArea (c : Comparing) (best other : Record) : Except Failure (Term .bool) :=
  match best.ospfArea with
  | none => .ok .yes
  | some b => match c.arrival with
    | some a => match a.area with
      | .null => .ok b.isDefault
      | area => b.isDocument area
    | none => match other.ospfArea with
      | none => .ok .yes
      | some o => .ok (b.equal o)

def compareIds (c : Comparing) (best other : Record) (relate : Term .int → Term .int → Term .bool) :
    Except Failure (Term .bool) :=
  match best.routerId with
  | none => .ok .yes
  | some b => do
    if ← c.multipath then return .yes
    else match other.routerId with
      | some o => return relate b o
      | none => match c.arrival with
        | none => return .yes
        | some a => match ← a.peerId with
          | some id => return relate b (.intLit (← id.integer))
          | none => return .yes

/-- The protocol that the routes came from is the same. -/
def sameHistory (best other : Record) : Term .bool :=
  match best.history, other.history with
  | some b, some o => b.equal o
  | _, _ => .yes

/-- Both routes were learned over iBGP, or none. -/
def sameInternal (best other : Record) : Term .bool :=
  match best.bgpInternal, other.bgpInternal with
  | some b, some o => .eq b o
  | _, _ => .yes

/-- The routes carry the same of the communities that both model. -/
def sameCommunities (best other : Record) : Term .bool :=
  .allOf (best.communities.filterMap fun e => (other.community? e.1).map fun o => .eq e.2 o)

def isSame (c : Comparing) (best other : Record) (withCommunities : Bool := false) :
    Except Failure (Term .bool) := do
  let distance := c.protocol.defaultDistance
  let sameArea ← c.sameArea best other
  let sameId ← c.compareIds best other .eq
  return .allOf ([
    sameNumber best.prefixLength other.prefixLength 0,
    sameNumber best.adminDist other.adminDist distance,
    sameNumber best.localPref other.localPref 0,
    sameNumber best.metric other.metric 0,
    sameNumber best.med other.med c.protocol.defaultMed,
    sameType best other,
    sameArea,
    sameId,
    sameHistory best other,
    sameInternal best other] ++
    (if withCommunities then [sameCommunities best other] else []))

/-! ## §2. Preference -/

/-- A criterion of preference: strictly better, and equally good. -/
structure Step where
  better : Term .bool
  equal : Term .bool

def numberStep (best other : Option (Term .int)) (default : Int) (lower : Bool) : Step :=
  match best with
  | none => ⟨.no, .yes⟩
  | some b =>
    let o := other.getD (.intLit default)
    ⟨if lower then .lt b o else .gt b o, .eq b o⟩

def typeStep (best other : Record) : Step :=
  match best.ospfType with
  | none => ⟨.no, .yes⟩
  | some b =>
    let o := (other.ospfType.map Enumeration.ospfBits).getD (OspfType.literal .O)
    ⟨.bitsCompare .lt b.ospfBits o, .eq b.ospfBits o⟩

/-- Routes learned over eBGP are better. -/
def internalStep (best other : Record) : Step :=
  match best.bgpInternal, other.bgpInternal with
  | some b, some o => ⟨.and [.not b, o], .eq b o⟩
  | _, _ => ⟨.no, .yes⟩

def steps (c : Comparing) (best other : Record) : List Step :=
  [numberStep best.prefixLength other.prefixLength 0 false,
   numberStep best.adminDist other.adminDist c.protocol.defaultDistance true,
   numberStep best.localPref other.localPref 0 false,
   numberStep best.metric other.metric 0 true,
   numberStep best.med other.med c.protocol.defaultMed true,
   typeStep best other,
   internalStep best other]

def isAtLeast (c : Comparing) (best other : Record) : Except Failure (Term .bool) := do
  let tie ← c.compareIds best other .le
  return (c.steps best other).foldr (fun s acc => .anyOf [s.better, .allOf [s.equal, acc]]) tie

end Comparing

end ControlPlane
