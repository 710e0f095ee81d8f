import ControlPlane.Route.Record
import ControlPlane.Slice.Access

/-!
# The records of a slice

A slice is a frame with its records: the best routes of every router, the routes that flow over every edge
in both directions (a `Lane` per edge and protocol), and the routes that peers outside of the network may
announce.

* `Slice.opposite?` pairs the lane of an edge with the lane of the edge's other direction.
* `Slice.incoming` is the record that a router imports: its own, or the one that the other side exports.
-/
namespace ControlPlane

/-! ## §1. Lanes -/

structure Lane where
  router : Name
  protocol : Protocol
  edge : Edge
  /-- The route that the router receives; unused when it is the one that the other side sends. -/
  incoming : Record
  /-- The route that the router sends. -/
  outgoing : Record

namespace Lane

def sameAs (a b : Lane) : Bool := a.router == b.router && a.protocol == b.protocol && a.edge == b.edge

/-- The received route is one of the best of its protocol. -/
def choice (l : Lane) : Term .bool := .boolVar (l.incoming.name ++ "_choice")

def record (l : Lane) : Direction → Record
  | .incoming => l.incoming
  | .outgoing => l.outgoing

def described (l : Lane) (d : Direction) : String :=
  "LogicalEdge(edge=" ++ l.edge.described ++ ", edge_type=<EdgeType." ++ d.label ++ ": '" ++ d.label ++
    "'>, record=" ++ (l.record d).shown ++ ")"

def shown (l : Lane) (d : Direction) : String :=
  l.edge.shown ++ " (" ++ d.label ++ ") " ++ (l.record d).name

end Lane

structure BestRecords where
  router : Name
  overall : Record
  perProtocol : List (Protocol × Record)

structure Redistribution where
  router : Name
  sources : List (Protocol × List Protocol)

structure Slice extends Frame where
  redistribution : List Redistribution
  bests : List BestRecords
  lanes : List Lane
  /-- The routes announced from outside of the network. -/
  environment : List (Lane × Record)
  /-- Every record that has variables, in order of creation. -/
  records : List Record

/-! ## §2. Redistribution -/

namespace Frame

def exportPolicies (r : Router) (p : Protocol) : Except Failure (List RoutingPolicy) := do
  let common ← Topology.commonPolicy r p
  let own ← match p, r.bgp with
    | .bgp, some process => (process.neighbors.mapM fun n => Topology.policyNamed r n.exportPolicy).map (·.filterMap id)
    | .bgp, none => throw .absent
    | _, _ => pure []
  return common.toList ++ own

def matchedProtocols (r : Router) (policy : RoutingPolicy) : Except Failure (List Protocol) :=
  (r.walk policy.statements).collectM fun node => match node with
    | .expression (.matchProtocol p) => .ok [p]
    | _ => .ok []

/-- A protocol takes over the routes of the protocols that its export policies match on. -/
def redistributions (f : Frame) : Except Failure (List Redistribution) :=
  f.topology.routers.mapM fun r => do
    let protocols := f.protocols r.name
    let sources ← protocols.mapM fun p => do
      let policies ← exportPolicies r p
      let found := (← policies.mapM (matchedProtocols r)).flatten
      return (p, (p :: found.filter protocols.contains).eraseDups)
    return { router := r.name, sources }

/-! ## §3. New records -/

def recordName (f : Frame) (router : Name) (protocol place kind : String) : String :=
  f.name ++ router.shown ++ "_" ++ protocol ++ "_" ++ place ++ "_" ++ kind

def layBest (f : Frame) (router : Name) (label : String) (p : Protocol) : Build Record := do
  let name := f.recordName router label "none" "BEST"
  let history ← Enumeration.create (name ++ "_history") (f.protocols router)
  Record.create f name router p (some history)

def layBests (f : Frame) (router : Name) : Build BestRecords := do
  let overall ← f.layBest router "OVERALL" .best
  let perProtocol ←
    if f.isSingle router then pure []
    else (f.protocols router).mapM fun p => do return (p, ← f.layBest router p.label p)
  return { router, overall, perProtocol }

/-- Lanes and records made so far, and the record that all exports share, if one was made. -/
structure LaneProgress where
  shared : Option Record := none
  lanes : List Lane := []
  records : List Record := []

def layLane (f : Frame) (router : Name) (plan : ProtocolPlan) (s : LaneProgress) (e : Edge) :
    Build LaneProgress := do
  let p := plan.protocol
  if !f.topology.isEdgeUsed p e then return s
  else
    let (outgoing, shared, fresh) ←
      if plan.mergesExport then match s.shared with
        | some r => pure (r, some r, [])
        | none => do
          let r ← Record.create f (f.recordName router p.label "" "SINGLE-EXPORT") router p
          pure (r, some r, [r])
      else do
        let r ← Record.create f (f.recordName router p.label e.interface.shown "EXPORT") router p
        pure (r, none, [r])
    let name := f.recordName router p.label e.interface.shown "IMPORT"
    let (incoming, own) ←
      if plan.mergedImports.contains e then pure (Record.unused name p, [])
      else do
        let r ← Record.create f name router p
        pure (r, [r])
    return {
      shared
      lanes := s.lanes ++ [{ router, protocol := p, edge := e, incoming, outgoing }]
      records := s.records ++ fresh ++ own }

def layLanes (f : Frame) (router : Name) (plan : ProtocolPlan) : Build LaneProgress :=
  (f.topology.edges router).foldlM (f.layLane router plan) {}

/-- The route that a peer outside of the network may announce over a lane, if there is one. -/
def layAnnouncement (f : Frame) (l : Lane) : Build (Option (Lane × Record)) := do
  match l.protocol, l.edge.far, f.topology.session? l.edge with
  | .bgp, none, some neighbor =>
    let name := f.recordName l.router Protocol.bgp.label ("ENV-" ++ neighbor.address.dotted) "EXPORT"
    return some (l, ← Record.create f name l.router .bgp)
  | _, _, _ => return none

def layAccess (f : Frame) (e : Edge) (d : Direction) (list : Option AccessList) : Build Unit := do
  match list with
  | none => return ()
  | some l =>
    let permitted ← Build.newBool (f.accessName e.router e.interface d l.name)
    Build.require (.eq permitted (← l.permits f.packet))

def lay (f : Frame) : Build Slice := do
  let redistribution ← f.redistributions
  Build.declareAll f.forwardingVariables
  let bests ← f.topology.names.mapM f.layBests
  let laid ← f.plan.routers.mapM fun r => r.protocols.mapM (f.layLanes r.router)
  let lanes := laid.flatten.flatMap LaneProgress.lanes
  Build.declareAll (lanes.map fun l => ⟨l.incoming.name ++ "_choice", .bool⟩)
  let environment := (← lanes.mapM f.layAnnouncement).filterMap id
  f.topology.sites.forM fun s => s.edges.forM fun e => do
    f.layAccess e .outgoing e.start.outgoingFilter
    f.layAccess e .incoming e.start.incomingFilter
  return {
    toFrame := f, redistribution, bests, lanes, environment
    records := bests.flatMap (fun b => b.overall :: b.perProtocol.map (·.2)) ++
      laid.flatten.flatMap LaneProgress.records ++ environment.map (·.2) }

end Frame

/-! ## §4. Looking up records -/

namespace Slice

def lanesOf (s : Slice) (router : Name) (p : Protocol) : List Lane :=
  s.lanes.filter fun l => l.router == router && l.protocol == p

def opposite? (s : Slice) (l : Lane) : Option Lane :=
  match l.edge.reverse? with
  | none => none
  | some back => s.lanes.find? fun m => m.router == back.router && m.protocol == l.protocol && m.edge == back

def announcement? (s : Slice) (l : Lane) : Option Record :=
  (s.environment.find? fun e => e.1.sameAs l).map (·.2)

/-- The record at the other side of a lane: what the other side exports for an import and the other way
around, or what the environment announces. -/
def across? (s : Slice) (l : Lane) (d : Direction) : Option Record :=
  match s.opposite? l with
  | some m => match d with
    | .incoming => some m.outgoing
    | .outgoing => some m.incoming
  | none => match d with
    | .incoming => s.announcement? l
    | .outgoing => none

/-- The record that a router imports: its own, or the one that the other side exports. -/
def incoming (s : Slice) (l : Lane) : Except Failure Record :=
  if l.incoming.used then .ok l.incoming
  else match s.opposite? l with
    | some m => .ok m.outgoing
    | none => .error (.missingEdge (l.described .incoming))

def bestsOf? (s : Slice) (router : Name) : Option BestRecords := s.bests.find? fun b => b.router == router

def overall (s : Slice) (router : Name) : Except Failure Record :=
  match s.bestsOf? router with
  | some b => .ok b.overall
  | none => .error (.missing router)

def bestOf (s : Slice) (router : Name) (p : Protocol) : Except Failure Record :=
  match s.bestsOf? router with
  | none => .error (.missing router)
  | some b =>
    if s.isSingle router then .ok b.overall
    else match b.perProtocol.lookup p with
      | some r => .ok r
      | none => .error (.missing (.text p.label))

def sourcesOf (s : Slice) (router : Name) (p : Protocol) : List Protocol :=
  let all := ((s.redistribution.find? fun r => r.router == router).bind fun r => r.sources.lookup p).getD []
  sortByText Protocol.key (all.filter fun q => q != p)

/-- The router id of a protocol at the other side of a lane.  Outside of the network the address of the BGP
neighbor stands for it. -/
def peerId (s : Slice) (l : Lane) (p : Protocol) : Except Failure (Option Document) :=
  match s.opposite? l with
  | some m => do
    let r ← s.topology.router m.router
    return some (← r.routerId p)
  | none => .ok ((s.topology.session? l.edge).map fun n => .int n.address.value)

/-! ## §5. Text -/

def redistributionTexts (s : Slice) (router : Name) (p : Protocol) : Except Failure (List String) :=
  (s.sourcesOf router p).mapM fun q => do
    return "redistribute " ++ q.label ++ " (" ++ Direction.incoming.label ++ ") " ++ (← s.bestOf router q).name

/-- The text of a slice: its routers and protocols.  Lanes and redistributions have no line of their own, so
a slice with any of them has no text. -/
def shown (s : Slice) : Except Failure String :=
  let protocols := s.topology.names.flatMap fun r => (s.protocols r).map fun p => (r, p)
  if s.lanes.isEmpty && protocols.all fun e => (s.sourcesOf e.1 e.2).isEmpty then
    .ok ("\n".intercalate (protocols.map fun e => e.1.shown ++ " " ++ e.2.label))
  else .error .shape

end Slice

end ControlPlane
