import ControlPlane.Policy.Listing
import ControlPlane.Transfer.State

/-!
# Transfers

A transfer relates the route on one side of an edge to the route on the other side.  This module has the
steps that policies are made of: fresh variables, the match conditions, modifications, and the joins after
a branch.  Every modification and every join binds a new variable, so that each variable is defined by
exactly one equation.
-/
namespace ControlPlane

/-- A route on its way through a policy. -/
structure Transfer where
  frame : Frame
  router : Router
  source : Record
  /-- The route that goes out. -/
  target : Record
  toProtocol : Protocol
  fromProtocol : Protocol
  addedCost : Document
  edge : Edge
  isExport : Bool

/-- How many autonomous systems a path list prepends, as it is written. -/
def AsPathList.count : AsPathList → Except Failure Document
  | .repeated _ (.literal n) => .ok n
  | .repeated _ e => .error (.unsupported (.prependCount e.construct.shown))
  | .literal items => .ok (.int items.length)
  | .foreign _ cause => .error cause.failure

namespace Transfer

/-! ## §1. Fresh variables -/

/-- A base name and the next number. -/
def freshName (t : Transfer) (name : String) : Build String := do
  return t.frame.name ++ "SSA_" ++ name ++ toString (← Build.freshId)

def freshInt (t : Transfer) (name : String) (value : Term .int) : Build (Term .int) := do
  let x ← Build.newInt (← t.freshName name)
  Build.require (.eq x value)
  return x

def freshBool (t : Transfer) (name : String) (value : Term .bool) : Build (Term .bool) := do
  let x ← Build.newBool (← t.freshName name)
  Build.require (.eq x value)
  return x

def freshBits (t : Transfer) (name : String) (width : Nat) (value : Term .bits) : Build (Term .bits) := do
  let x ← Build.newBits (← t.freshName name) width
  Build.require (.eq x value)
  return x

def attributeName : IntAttribute → String
  | .prefixLength => "PREFIX-LEN"
  | .adminDist => "ADMIN-DIST"
  | .localPref => "LOCAL-PREF"
  | .metric => "METRIC"
  | .med => "MED"
  | .routerId => "ROUTER-ID"

def ospfTypeName : String := "OSPF-TYPE"

/-! ## §2. Facts about the edge -/

def isInternal (t : Transfer) : Bool := t.toProtocol == .bgp && t.frame.topology.isInternal t.edge

def sendsCommunity (t : Transfer) : Bool :=
  t.toProtocol == .bgp && (t.frame.topology.session? t.edge).any fun n => n.sendCommunity.truthy

def defaultOf (t : Transfer) : IntAttribute → Int
  | .adminDist => t.fromProtocol.defaultDistance t.isInternal
  | .med => t.fromProtocol.defaultMed
  | _ => 0

def intOrDefault (t : Transfer) (r : Record) (a : IntAttribute) : Term .int :=
  (r.int? a).getD (.intLit (t.defaultOf a))

/-! ## §3. Matching -/

def matchesPrefix (t : Transfer) (r : Record) (s : Subnet) (lengths : Range) : Except Failure (Term .bool) :=
  t.frame.packet.matchesPrefix r.prefixLength s lengths

/-- The first line that matches decides. -/
def matchesFilterList (t : Transfer) (r : Record) (l : FilterList) : Except Failure (Term .bool) :=
  l.lines.foldrM (fun line acc => do
    return .ite (← t.matchesPrefix r line.subnet line.lengths) (.boolLit (line.action == .accept)) acc) .no

def matchesPrefixSet (t : Transfer) (r : Record) : PrefixSet → Except Failure (Term .bool)
  | .explicit [] => .ok .yes
  | .explicit ranges => do
    return .anyOf (← ranges.mapM fun p => t.matchesPrefix r p.subnet p.lengths)
  | .named name => do t.matchesFilterList r (← t.router.filterList name)
  | .foreign _ cause => .error cause.failure

/-- Matching on a community that is not carried fails. -/
def communityOf (r : Record) (c : Community) : Except Failure (Term .bool) :=
  match r.community? c with
  | some t => .ok t
  | none => .error (.unsupported (.communityNotCarried c.value r.name))

/-- The route carries a community set: all communities that are listed, or as a community list says. -/
def matchesCommunitySet (t : Transfer) (r : Record) (set : CommunitySet) : Except Failure (Term .bool) :=
  match set with
  | .inline _ => do
    return .allOf (← (← Community.ofSet t.router set).mapM (communityOf r))
  | .named name => do
    let list ← t.router.communityList name
    let regexes ← Community.ofSet t.router set
    (list.lines.zip regexes).foldrM (fun (line, c) acc => do
      return .ite (← communityOf r c) (.boolLit (line.action == .accept)) acc) .no
  | .foreign _ cause => .error cause.failure

/-! ## §4. Modifications -/

/-- Nothing is modified any more. -/
def isReturned (p : Param) (r : Result) : Term .bool := .anyOf [p.returned, r.assigned]

/-- The first verdict stays. -/
def giveVerdict (t : Transfer) (r : Result) (accept : Bool) : Build Result := do
  let value ← t.freshBool "RETURN" (.ite r.assigned r.value (.boolLit accept))
  return { r with value, assigned := .yes }

def applyIntExpr (old : Term .int) : IntExpr → Except Failure (Term .int)
  | .literal n => do return .intLit (← n.integer)
  | .increaseMetric n => do return .add old (.intLit (← n.integer))
  | .decreaseMetric n => do return .sub old (.intLit (← n.integer))
  | .increaseLocalPref n => do return .add old (.intLit (← n.integer))
  | .decreaseLocalPref n => do return .sub old (.intLit (← n.integer))
  | .foreign c => .error (.unsupported (.unknownConstruct .integerExpression c.shown))

/-- A new version of a number, unless a verdict was given. -/
def modifyInt (t : Transfer) (p : Param) (r : Result) (a : IntAttribute) (new : Term .int) :
    Build (Result × Param) := do
  let old := t.intOrDefault p.route a
  let x ← t.freshInt (attributeName a) (.ite (isReturned p r) old new)
  return (r.addChange (.attribute a.key), p.setRoute (p.route.setInt a x))

/-- Nothing is done if the community is not carried. -/
def modifyCommunity (t : Transfer) (p : Param) (r : Result) (c : Community) (attach : Bool) :
    Build (Result × Param) := do
  match p.route.community? c with
  | none => return (r, p)
  | some old =>
    let x ← t.freshBool c.value (.ite (isReturned p r) old (.boolLit attach))
    return (r.addChange (.community c), p.setRoute (p.route.setCommunity c x))

def modifyCommunities (t : Transfer) (attach : Bool) (cs : List Community) (p : Param) (r : Result) :
    Build (Result × Param) :=
  cs.foldlM (fun (r, p) c => t.modifyCommunity p r c attach) (r, p)

def ospfBits (r : Record) : Term .bits := (r.ospfType.map Enumeration.ospfBits).getD (OspfType.literal .O)

def setOspfBits (r : Record) (bits : Term .bits) : Record :=
  { r with ospfType := some { name := "ospfType", values := OspfType.all, bits := some bits } }

/-- Only external types can be set. -/
def modifyOspfType (t : Transfer) (p : Param) (r : Result) (type : OspfType) : Build (Result × Param) := do
  if type.isExternal then
    let x ← t.freshBits ospfTypeName 2 (.ite (isReturned p r) (ospfBits p.route) type.literal)
    return (r.addChange (.attribute "ospf_type"), p.setRoute (setOspfBits p.route x))
  else throw (.unsupported (.ospfMetricType (Construct.ofOspfType type).shown))

/-! ## §5. Joins -/

def joinOrder : List IntAttribute := [.prefixLength, .adminDist, .localPref, .metric, .med]

/-- A new version of a number where branches differ. -/
def joinInt (t : Transfer) (guard : Term .bool) (yes no : Record) (joined : Record) (a : IntAttribute) :
    Build Record := do
  match yes.int? a, no.int? a with
  | some x, some y =>
    if x.same y then return joined
    else return joined.setInt a (← t.freshInt (attributeName a) (.ite guard x y))
  | _, _ => return joined

def joinOspfType (t : Transfer) (guard : Term .bool) (yes no : Record) (joined : Record) : Build Record := do
  if yes.ospfType.isNone && no.ospfType.isNone then return joined
  else
    let x := ospfBits yes
    let y := ospfBits no
    if x.same y then return joined
    else return setOspfBits joined (← t.freshBits ospfTypeName 2 (.ite guard x y))

def joinCommunity (t : Transfer) (guard : Term .bool) (no : Record) (joined : Record)
    (e : Community × Term .bool) : Build Record := do
  let y := (no.community? e.1).getD e.2
  if e.2.same y then return joined
  else return joined.setCommunity e.1 (← t.freshBool e.1.value (.ite guard e.2 y))

/-- The route after a branch. -/
def joinRecords (t : Transfer) (guard : Term .bool) (yes no : Record) : Build Record := do
  let joined ← joinOrder.foldlM (t.joinInt guard yes no) yes
  let joined ← t.joinOspfType guard yes no joined
  yes.communities.foldlM (t.joinCommunity guard no) joined

def joinBool (t : Transfer) (name : String) (guard yes no : Term .bool) : Build (Term .bool) := do
  if yes.same no then return yes else t.freshBool name (.ite guard yes no)

def joinResults (t : Transfer) (guard : Term .bool) (before yes no : Result) : Build Result := do
  let value ← t.joinBool "RETURN" guard yes.value no.value
  let assigned ← t.joinBool "RETURN-ASSIGNED" guard yes.assigned no.assigned
  return (({ value, assigned, changed := before.changed : Result }).addChanges yes).addChanges no

end Transfer

end ControlPlane
