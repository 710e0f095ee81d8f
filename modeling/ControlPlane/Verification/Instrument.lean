import ControlPlane.Slice.Encoding

/-!
# Instruments

Extra variables that measure the forwarding of a slice: which routers reach a target, how long their paths
are, how much traffic passes through them, and whether traffic comes back.

A router that reaches the target must be supported by a next hop with a smaller number, so that a cycle
cannot support itself.
-/
namespace ControlPlane

/-- Something to measure. -/
inductive Instrument where
  /-- Which routers reach the destination of an edge. -/
  | reachability (edge : Edge)
  | routerReachability (router : Name)
  /-- How many routers the packet crosses to leave through an edge; below zero when it never does. -/
  | pathLength (edge : Edge)
  /-- How many routers' packets to an edge pass through each router. -/
  | load (edge : Edge)
  | loop (router : Document)

namespace Instrument

def edgeName (e : Edge) : String := e.router.shown ++ "-" ++ e.interface.shown

def target? : Instrument → Option Name
  | reachability e => some (.text (edgeName e))
  | routerReachability r => some r
  | load e => some (.text (edgeName e))
  | _ => none

/-! ## §1. Variables -/

def variableName (s : Slice) (kind target : String) (router : Name) : String :=
  s.name ++ kind ++ "_" ++ target ++ "_" ++ router.shown

def reachable (s : Slice) (target : String) (router : Name) : Term .bool :=
  .boolVar (variableName s "reachable" target router)

def reachableId (s : Slice) (target : String) (router : Name) : Term .int :=
  .intVar (variableName s "reachable-id" target router)

def length (s : Slice) (e : Edge) (router : Name) : Term .int :=
  .intVar (variableName s "path-length" (edgeName e) router)

def loadOf (s : Slice) (e : Edge) (router : Name) : Term .int :=
  .intVar (variableName s "load" (edgeName e) router)

def onLoop (s : Slice) (router : Document) (r : Name) : Term .bool :=
  .boolVar (variableName s "on-loop" router.shown r)

def returned (s : Slice) (i : Instrument) : List (Name × String) :=
  s.topology.names.map fun r => (r, match i with
    | reachability e => variableName s "reachable" (edgeName e) r
    | routerReachability target => variableName s "reachable" target.shown r
    | pathLength e => variableName s "path-length" (edgeName e) r
    | load e => variableName s "load" (edgeName e) r
    | loop router => variableName s "on-loop" router.shown r)

/-! ## §2. Constraints -/

def innerEdges (s : Slice) (router : Name) : List (Edge × Name) :=
  (s.topology.edges router).filterMap fun e => e.peer?.map fun peer => (e, peer)

def declareEach (s : Slice) (kinds : List (String × VariableSort)) (target : String) : Build Unit :=
  s.topology.names.forM fun r =>
    Build.declareAll (kinds.map fun k => ⟨variableName s k.1 target r, k.2⟩)

/-- The constraints on a router's reachability; `goal` is what a target reaches by itself. -/
def reachConstraints (s : Slice) (target : String) (goal : Name → Option (Term .bool)) (r : Name) :
    List (Term .bool) :=
  let id := reachableId s target r
  let reach := reachable s target r
  .ge id (.intLit 0) :: match goal r with
    | some g => [.eq reach g]
    | none =>
      let hops := innerEdges s r
      let support := hops.map fun (e, peer) =>
        Term.and [s.forwardsAcross e, reachable s target peer, .gt id (reachableId s target peer)]
      let closure := hops.map fun (e, peer) => Term.and [s.forwardsAcross e, reachable s target peer]
      [.implies reach (.anyOf support), .implies (.anyOf closure) reach]

def addReachability (s : Slice) (target : String) (goal : Name → Option (Term .bool)) : Build Unit := do
  declareEach s [("reachable", .bool), ("reachable-id", .int)] target
  s.topology.names.forM fun r => Build.requireAll (reachConstraints s target goal r)

def edgeGoal (s : Slice) (e : Edge) (router : Name) : Option (Term .bool) :=
  if router == e.router then some (s.dataForwarding e) else none

def lengthConstraints (s : Slice) (e : Edge) (r : Name) : List (Term .bool) :=
  let x := length s e r
  .ge x (.intLit (-1)) ::
    if r == e.router then
      let leaves := s.dataForwarding e
      [.implies leaves (.is x 1), .implies (.not leaves) (.is x (-1))]
    else
      let hops := innerEdges s r
      let none := Term.allOf (hops.map fun (d, peer) =>
        .or [.lt (length s e peer) (.intLit 0), .not (s.forwardsAcross d)])
      let some := Term.anyOf (hops.map fun (d, peer) =>
        .and [.ge (length s e peer) (.intLit 0), s.forwardsAcross d,
          .eq x (.add (length s e peer) (.intLit 1))])
      [.implies none (.is x (-1)), .implies (.not none) some]

def addLengths (s : Slice) (e : Edge) : Build Unit := do
  declareEach s [("path-length", .int)] (edgeName e)
  s.topology.names.forM fun r => Build.requireAll (lengthConstraints s e r)

def backEdge (s : Slice) (e : Edge) : Except Failure Edge :=
  match e.reverse? with
  | none => .error (.missingEdge e.described)
  | some back => if (s.topology.edges back.router).contains back then .ok back
    else .error (.missingEdge back.described)

def loadConstraint (s : Slice) (e : Edge) (r : Name) : Except Failure (Term .bool) := do
  let incoming ← (innerEdges s r).mapM fun (d, peer) => do
    return Term.ite (s.forwardsAcross (← backEdge s d)) (loadOf s e peer) (.intLit 0)
  return .eq (loadOf s e r)
    (.ite (reachable s (edgeName e) r) (.sum (.intLit 1 :: incoming)) (.intLit 0))

/-- Measures loads; reachability must be measured too. -/
def addLoads (s : Slice) (e : Edge) : Build Unit := do
  declareEach s [("load", .int)] (edgeName e)
  s.topology.names.forM fun r => do Build.require (← loadConstraint s e r)

def loopConstraint (s : Slice) (router : Document) (r : Name) : Term .bool :=
  .eq (onLoop s router r) (.anyOf ((innerEdges s r).map fun (e, peer) =>
    if router.same peer.document then s.dataForwarding e else .and [s.dataForwarding e, onLoop s router peer]))

/-- Measures packets that come back; the router must be one of the topology. -/
def addLoop (s : Slice) (router : Document) : Build Unit := do
  declareEach s [("on-loop", .bool)] router.shown
  Build.requireAll (s.topology.names.map (loopConstraint s router))
  let name ← router.asName
  if s.topology.names.contains name then return () else throw (.missing name)

def add (s : Slice) (known : List Name) (i : Instrument) : Build Unit := do
  let isNew := match i.target? with
    | some t => !known.contains t
    | none => false
  match i with
  | reachability e => if isNew then addReachability s (edgeName e) (edgeGoal s e)
  | routerReachability target =>
    if isNew then addReachability s target.shown fun r => if r == target then some .yes else none
  | pathLength e => addLengths s e
  | load e =>
    if isNew then addReachability s (edgeName e) (edgeGoal s e)
    addLoads s e
  | loop router => addLoop s router

def allEqual (terms : List (Term .int)) : Term .bool :=
  .allOf ((terms.zip (terms.drop 1)).map fun (x, y) => .eq x y)

end Instrument

end ControlPlane
