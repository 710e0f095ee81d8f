import ControlPlane.Plan
import ControlPlane.Route.Packet

/-!
# Frames

What an encoding is about: the topology, the decisions of the plan, the header space and the communities
that policies can tell apart.  Every variable of an encoding starts with the name of its frame, so two
frames of different names share no variable.
-/
namespace ControlPlane

/-- The subject of an encoding. -/
structure Frame where
  /-- The start of every name, which tells frames apart. -/
  tag : String
  topology : Topology
  plan : Plan
  space : HeaderSpace
  communities : List Community
  dependencies : List (Community × List Community)

namespace Frame

def tagOf (id : Document) : Except Failure String := do
  if id.same (.int 0) then return "" else return toString (← id.asInt) ++ "_"

def name (f : Frame) : String := f.tag ++ "SLICE-MAIN_"

/-- Plans an encoding. -/
def build (tag : String) (switches : Switches) (t : Topology) (space : HeaderSpace) (failures : Document) :
    Except Failure Frame := do
  let plan ← Plan.compute switches t space failures
  let communities ← Community.ofRouters t.routers
  let dependencies ← Community.dependencies communities
  return { tag, topology := t, plan, space, communities, dependencies }

def packet (f : Frame) : Packet := ⟨f.name⟩

def protocols (f : Frame) (router : Name) : List Protocol := f.plan.protocolsOf router

/-- Whether the best route of a router's only protocol is its overall best route. -/
def isSingle (f : Frame) (router : Name) : Bool :=
  ((f.plan.router? router).map RouterPlan.isSingle).getD false

/-! ## §1. Links -/

/-- The name of the variable that counts a link as failed.  All links between two routers fail together. -/
def failureName (tag : String) (e : Edge) : String :=
  match e.peer? with
  | none => tag ++ "FAILED-EDGE_" ++ e.router.shown ++ "_" ++ e.interface.shown
  | some peer =>
    let (one, two) := if e.router.le peer then (e.router, peer) else (peer, e.router)
    tag ++ "FAILED-INTERNAL_" ++ one.shown ++ "_" ++ two.shown

def notFailed (f : Frame) (e : Edge) : Term .bool := .is (.intVar (failureName f.tag e)) 0

/-! ## §2. Forwarding -/

def controlForwarding (f : Frame) (e : Edge) : Term .bool :=
  .boolVar (f.name ++ "control-forwarding_" ++ e.router.shown ++ "_" ++ e.interface.shown)

def dataForwarding (f : Frame) (e : Edge) : Term .bool :=
  .boolVar (f.name ++ "data-forwarding_" ++ e.router.shown ++ "_" ++ e.interface.shown)

def forwardingVariables (f : Frame) : List Variable :=
  f.topology.sites.flatMap fun s => s.edges.flatMap fun e =>
    [⟨f.name ++ "control-forwarding_" ++ e.router.shown ++ "_" ++ e.interface.shown, .bool⟩,
     ⟨f.name ++ "data-forwarding_" ++ e.router.shown ++ "_" ++ e.interface.shown, .bool⟩]

def accessName (f : Frame) (router interface : Name) (d : Direction) (list : Document) : String :=
  let side := match d with
    | .incoming => "INBOUND"
    | .outgoing => "OUTBOUND"
  f.name ++ router.shown ++ "_" ++ interface.shown ++ "_" ++ side ++ "_" ++ list.shown

/-- The access list at an interface permits the packet; there is nothing to permit without a list. -/
def permits (f : Frame) (router : Name) (i : Interface) (d : Direction) : Term .bool :=
  let list := match d with
    | .incoming => i.incomingFilter
    | .outgoing => i.outgoingFilter
  match list with
  | some l => .boolVar (f.accessName router i.name d l.name)
  | none => .yes

def permitsArrival (f : Frame) (e : Edge) : Term .bool :=
  match e.far with
  | some (peer, finish) =>
    match (f.topology.edgeFrom? peer finish.name) with
    | some back => f.permits peer back.start .incoming
    | none => .yes
  | none => .yes

/-- The packet leaves over an edge and is let in at the other side. -/
def forwardsAcross (f : Frame) (e : Edge) : Term .bool :=
  .allOf [f.dataForwarding e, f.permitsArrival e]

end Frame

end ControlPlane
