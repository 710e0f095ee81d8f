import ControlPlane.Slice.Encoding

/-!
# Local consistency

Two routers are consistent when, given the same routes from their peers and the same packet, they export
the same routes, filter the same packets and forward the same way.  Routers that differ in their interfaces,
protocols or peers cannot be compared.
-/
namespace ControlPlane

inductive Mismatch where
  | interfaces (one two : Name)
  | protocols (one two : Name)
  | noLane (router : Name) (protocol : Protocol) (direction : Direction) (interface : Name)
  | onePeer (one two : Name) (protocol : Protocol) (interface : Name)
  | communities (one two : Name)
  deriving DecidableEq, Repr

def Mismatch.message : Mismatch → String
  | interfaces one two => "Routers " ++ one.shown ++ " and " ++ two.shown ++ " have different interfaces"
  | protocols one two => "Routers " ++ one.shown ++ " and " ++ two.shown ++ " run different protocols"
  | noLane router p d interface =>
    "Router " ++ router.shown ++ " has no " ++ p.label ++ " " ++ d.label ++ " edge on " ++ interface.shown
  | onePeer one two p interface =>
    "Only one of " ++ one.shown ++ " and " ++ two.shown ++ " has a " ++ p.label ++ " peer on " ++
      interface.shown
  | communities one two =>
    "Routers " ++ one.shown ++ " and " ++ two.shown ++ " match on different communities"

abbrev Comparison? := ExceptT Mismatch (Except Failure)

namespace Consistency

structure Side where
  slice : Slice
  router : Router

/-- What two routers are given and what they must agree on. -/
structure Terms where
  given : List (Term .bool) := []
  required : List (Term .bool) := []

def Side.name (s : Side) : Name := s.router.name

def Side.edges (s : Side) : List Edge := s.slice.topology.edges s.name

def Side.lanes (s : Side) (p : Protocol) : List Lane := s.slice.lanesOf s.name p

def sameElements {α : Type} [BEq α] (xs ys : List α) : Bool := xs.all ys.contains && ys.all xs.contains

def sameAnnouncements (one two : Side) (l m : Lane) : Comparison? (List (Term .bool)) := do
  match one.slice.announcement? l, two.slice.announcement? m with
  | none, none => return []
  | some r, some s =>
    if sameElements (r.communities.map (·.1)) (s.communities.map (·.1)) then
      let same ← (one.slice.comparing one.router l.protocol (some l)).isSame r s
      return [.eq r.permits s.permits, same, Comparing.sameCommunities r s]
    else throw (.communities one.name two.name)
  | _, _ => throw (.onePeer one.name two.name l.protocol l.edge.interface)

def sameExports (one : Side) (l m : Lane) : Except Failure (List (Term .bool)) := do
  let same ← (one.slice.comparing one.router l.protocol (some l)).isSame l.outgoing m.outgoing
  return [.eq l.outgoing.permits m.outgoing.permits, same]

def compareLane (one two : Side) (l : Lane) : Comparison? Terms := do
  match (two.lanes l.protocol).find? fun m => m.edge.interface == l.edge.interface with
  | none => throw (.noLane two.name l.protocol .incoming l.edge.interface)
  | some m => return { given := ← sameAnnouncements one two l m, required := ← sameExports one l m }

def ignoresOwn (s : Side) : Except Failure (Term .bool) := do
  let own ← (s.slice.protocols s.name).mapM s.router.originated
  return .allOf (own.map fun subnets => .not (s.slice.packet.isBoundFor subnets))

def sameAccess (one two : Side) (e f : Edge) : Term .bool :=
  .eq (one.slice.permits e.router e.start .incoming) (two.slice.permits f.router f.start .incoming)

def sameForwarding (one two : Side) (e f : Edge) : Term .bool :=
  .eq (one.slice.dataForwarding e) (two.slice.dataForwarding f)

/-- The assumptions and what they must entail. -/
def terms (one two : Side) : Comparison? (Term .bool × Term .bool) := do
  let interfaces := fun (s : Side) => s.edges.map Edge.interface
  if !sameElements (interfaces one) (interfaces two) then throw (.interfaces one.name two.name)
  let protocols := one.slice.protocols one.name
  if !sameElements protocols (two.slice.protocols two.name) then throw (.protocols one.name two.name)
  let lanes ← (protocols.flatMap one.lanes).mapM (compareLane one two)
  let pairs := one.edges.zip two.edges
  let valid := Term.allOf [← ignoresOwn one, ← ignoresOwn two]
  let given := lanes.flatMap Terms.given ++ [one.slice.packet.equal two.slice.packet, valid]
  let required := lanes.flatMap Terms.required ++ pairs.map (fun (e, f) => sameAccess one two e f) ++
    pairs.map fun (e, f) => sameForwarding one two e f
  return (.allOf given, .allOf required)

end Consistency

end ControlPlane
