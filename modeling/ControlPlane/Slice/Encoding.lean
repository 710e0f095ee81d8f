import ControlPlane.Slice.Constraints
import ControlPlane.Slice.Cost

/-!
# Encodings

An encoding is a slice with the ledger of its variables and constraints.  `Encoding.encode` builds one: it
checks the links, derives OSPF costs, bounds the link failures and encodes the slice.
-/
namespace ControlPlane

/-- What to encode. -/
structure Request where
  space : HeaderSpace := {}
  routers : Document := .null
  failures : Document := .int 0
  /-- Tells apart encodings that are checked together. -/
  id : Document := .int 0
  switches : Switches := {}

/-- A slice with its formula. -/
structure Encoding where
  request : Request
  slice : Slice
  ledger : Ledger

/-! ## §1. Link failures -/

namespace Topology

/-- The links of a topology as edges, each link once, in the order of the edges. -/
def links (t : Topology) : List Edge :=
  t.sites.flatMap Site.edges |>.foldl (fun acc e =>
    if acc.any fun d => key d == key e then acc else acc ++ [e]) []
where
  /-- What identifies a link: the interface, or the two routers. -/
  key (e : Edge) : Name × Name × Bool :=
    match e.peer? with
    | none => (e.router, e.interface, true)
    | some peer => if e.router.le peer then (e.router, peer, false) else (peer, e.router, false)

/-- The links in the order of their names, those inside of the network first. -/
def sortedLinks (t : Topology) : List Edge :=
  let isBefore := fun (a b : Edge) =>
    let (a1, a2, aOut) := links.key a
    let (b1, b2, bOut) := links.key b
    if aOut != bOut then bOut else if a1 == b1 then a2.le b2 else a1.le b1
  sortWith isBefore t.links

def failureTerms (t : Topology) (tag : String) : List (Term .int) :=
  t.sortedLinks.map fun e => .intVar (Frame.failureName tag e)

end Topology

def failureConstraints (failures : Document) (terms : List (Term .int)) :
    Except Failure (List (Term .bool)) := do
  if terms.isEmpty then return []
  else if failures.same (.int 0) then return terms.map fun x => .is x 0
  else return [.le (.sum terms) (.intLit (← failures.integer))]

def layFailures (t : Topology) (tag : String) (failures : Document) : Build Unit := do
  t.links.forM fun e => do
    let x ← Build.newInt (Frame.failureName tag e)
    Build.require (.and [.ge x (.intLit 0), .le x (.intLit 1)])
  Build.requireAll (← failureConstraints failures (t.failureTerms tag))

/-! ## §2. Encoding -/

structure Attempt where
  network : Network
  warnings : List String
  result : Except Failure Encoding

namespace Encoding

def ofTopology (t : Topology) (r : Request) : Except Failure Encoding :=
  let build : Build Slice := do
    let tag ← Frame.tagOf r.id
    layFailures t tag r.failures
    Build.declareAll (Packet.declarations ⟨tag ++ "SLICE-MAIN_"⟩)
    let frame ← Frame.build tag r.switches t r.space r.failures
    let slice ← frame.lay
    slice.requireConstraints
    return slice
  match build.runOn {} with
  | (.ok slice, ledger) => .ok { request := r, slice, ledger }
  | (.error f, _) => .error f

def encode (n : Network) (r : Request) : Attempt :=
  match Topology.build n r.routers with
  | .error f => { network := n, warnings := [], result := .error f }
  | .ok t =>
    let (n, failure) := n.deriveCosts t.names
    let result := match failure with
      | some f => .error f
      | none => do ofTopology (← Topology.build n r.routers) r
    { network := n, warnings := t.warnings, result }

def trackingName (e : Encoding) (i : Nat) : String :=
  e.slice.tag ++ "constraint-" ++ toString (i + 1)

def trackingNames (e : Encoding) : List String :=
  (List.range e.ledger.constraints.size).map e.trackingName

def extend {α : Type} (e : Encoding) (b : Build α) : Except Failure α × Encoding :=
  let (result, ledger) := b.runOn e.ledger
  (result, { e with ledger })

end Encoding

end ControlPlane
