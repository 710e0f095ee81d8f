import ControlPlane.Route.Preference
import ControlPlane.Slice.Layout
import ControlPlane.Transfer.Interpretation

/-!
# The constraints of a slice

What the records of a slice satisfy in every stable routing state: bounds on their values, the transfers
between the two sides of every edge, the selection of best routes, and forwarding.  Each group of
constraints is a function of the slice; only transfers need fresh variables.
-/
namespace ControlPlane.Slice

/-! ## §1. Bounds -/

def below (x : Term .int) (limit : Int) : Term .bool := .and [.ge x (.intLit 0), .lt x (.intLit limit)]

def packetLimits : List (PacketField × Int) :=
  [(.dstIp, 4294967296), (.srcIp, 4294967296), (.dstPort, 65536), (.srcPort, 65536), (.icmpType, 256),
   (.ipProtocol, 256), (.icmpCode, 16)]

def maxPrefixLength : Int := 32

def recordBounds (r : Record) : List (Term .bool) :=
  (r.adminDist.map fun x => below x 256).toList ++
  (r.med.map fun x => below x 4294967296).toList ++
  (r.localPref.map fun x => below x 4294967296).toList ++
  (match r.metric with
    | none => []
    | some x =>
      [.ge x (.intLit 0)] ++ (if r.isEnvironment then [.lt x (.intLit 256)] else []) ++
        [.lt x (.intLit 65536)]) ++
  (r.prefixLength.map fun x => .and [.ge x (.intLit 0), .le x (.intLit maxPrefixLength)]).toList

def boundConstraints (s : Slice) : List (Term .bool) :=
  (packetLimits.map fun l => below (s.packet.field l.1) l.2) ++ s.records.flatMap recordBounds

/-! ## §2. Communities -/

/-- A record carries a regular expression exactly when it carries one of its dependencies. -/
def communityConstraints (s : Slice) : List (Term .bool) :=
  s.records.flatMap fun r => (r.communities.filter fun e => e.1.kind == .regex).map fun e =>
    .eq e.2 (.anyOf (((s.dependencies.lookup e.1).getD []).filterMap r.community?))

/-! ## §3. Transfers -/

def numberIs (x : Option (Term .int)) (value : Int) : Term .bool :=
  match x with
  | none => .yes
  | some x => .is x value

/-- A number of a record, if it is modeled, is the one that a document stands for. -/
def writtenIs (x : Option (Term .int)) (value : Document) : Except Failure (Term .bool) :=
  match x with
  | none => .ok .yes
  | some x => x.isNumber value

def ownRoute (r : Record) (length : Int) (distance : Document) : Except Failure (Term .bool) := do
  return .allOf [r.permits, numberIs r.prefixLength length, ← writtenIs r.adminDist distance,
    numberIs r.localPref 0, numberIs r.metric 0]

def usableSubnet (s : Slice) (p : Protocol) (e : Edge) (subnet : Subnet) : Term .bool :=
  .and [.boolLit (Topology.isActive p e.start), subnet.holdsOf s.packet.dstIp, s.notFailed e]

def connectedConstraint (s : Slice) (l : Lane) : Except Failure (Term .bool) := do
  match l.edge.start.subnet? with
  | none => return .not l.incoming.permits
  | some subnet =>
    return .ite (s.usableSubnet l.protocol l.edge subnet)
      (← ownRoute l.incoming subnet.length (.int l.protocol.defaultDistance)) (.not l.incoming.permits)

def staticConstraint (s : Slice) (l : Lane) : Except Failure (Term .bool) :=
  (s.topology.staticRoutesOver l.edge).foldlM (fun acc route => do
    let distance := match route.adminCost with
      | .null => .int l.protocol.defaultDistance
      | cost => cost
    return .ite (s.usableSubnet l.protocol l.edge route.subnet)
      (← ownRoute l.incoming route.subnet.length distance) acc) (.not l.incoming.permits)

def importConstraint (s : Slice) (r : Router) (l : Lane) : Build Unit := do
  if !l.incoming.used then return ()
  else match l.protocol with
    | .connected => Build.require (← s.connectedConstraint l)
    | .static => Build.require (← s.staticConstraint l)
    | p =>
      match s.across? l .incoming with
      | none => Build.require (.not l.incoming.permits)
      | some source =>
        let isRoot := s.packet.isBoundFor (← r.originated p)
        let usable := Term.and [.not isRoot, .boolLit (Topology.isActive p l.edge.start), source.permits,
          s.notFailed l.edge]
        let policy ← s.topology.importPolicy r p l.edge
        let statements := (policy.map RoutingPolicy.statements).getD [.simple .exitAccept]
        let t : Transfer := {
          frame := s.toFrame, router := r, source, target := l.incoming, toProtocol := p, fromProtocol := p
          addedCost := .int 0, edge := l.edge, isExport := false }
        Build.require (.ite usable (← t.compute statements) (.not l.incoming.permits))

def redistributionGuard (s : Slice) (router : Name) (p : Protocol) (best : Record) : Term .bool :=
  match best.history with
  | none => .yes
  | some h => .anyOf ((p :: s.sourcesOf router p).map h.isValue)

def addedCost (p : Protocol) (e : Edge) : Document :=
  match p with
  | .ospf => e.start.ospfCost
  | _ => .int 1

/-- The statements that decide what is exported.  OSPF exports its own routes whatever the policy says. -/
def exportStatements (p : Protocol) (policy : Option RoutingPolicy) : List Statement :=
  match p with
  | .ospf => [.cond (.matchProtocol .ospf) [.simple .exitAccept]
      ((policy.map RoutingPolicy.statements).getD [.simple .exitReject])]
  | _ => (policy.map RoutingPolicy.statements).getD [.simple .exitAccept]

def originatedRoute (l : Lane) (cost : Document) (subnet : Subnet) : Except Failure (Term .bool) := do
  let x := l.outgoing
  let metric ← writtenIs x.metric cost
  let area ← match x.ospfArea with
    | none => pure .yes
    | some area => area.isDocument l.edge.start.ospfArea
  return .allOf [
    x.permits,
    numberIs x.localPref defaultLocalPref,
    numberIs x.adminDist l.protocol.defaultDistance,
    metric,
    numberIs x.med Protocol.bgpMed,
    numberIs x.prefixLength subnet.length,
    (match x.ospfType with
      | none => .yes
      | some type => type.isValue .O),
    area,
    (match x.bgpInternal with
      | none => .yes
      | some internal => .eq internal .no)]

def exportConstraint (s : Slice) (r : Router) (best : Record) (originations : List Subnet) (l : Lane) :
    Build Unit := do
  let p := l.protocol
  if p.isLocal || !Topology.isActive p l.edge.start then Build.require (.not l.outgoing.permits)
  else
    let (mayExport, cost) := match p, s.topology.isInternal l.edge, best.bgpInternal with
      | .bgp, true, some internal => (Term.not internal, Document.int 0)
      | _, _, _ => (.yes, addedCost p l.edge)
    let active := Term.boolLit (Topology.isActive p l.edge.start)
    let usable := Term.allOf [active, mayExport, best.permits, s.notFailed l.edge,
      s.redistributionGuard l.router p best]
    let policy ← s.topology.exportPolicy r p l.edge
    let t : Transfer := {
      frame := s.toFrame, router := r, source := best, target := l.outgoing, toProtocol := p
      fromProtocol := p, addedCost := cost, edge := l.edge, isExport := true }
    let transferred := Term.ite usable (← t.compute (exportStatements p policy)) (.not l.outgoing.permits)
    Build.require (← originations.foldlM (fun acc subnet => do
      return .ite (.and [active, subnet.holdsOf s.packet.dstIp]) (← originatedRoute l cost subnet) acc)
      transferred)

def mergesExport (s : Slice) (router : Name) (p : Protocol) : Bool :=
  (((s.plan.router? router).bind fun r => r.protocol? p).map ProtocolPlan.mergesExport).getD false

/-- The constraints on the lanes of a protocol.  A shared export is defined by the first active edge. -/
def laneConstraints (s : Slice) (r : Router) (p : Protocol) : Build Unit := do
  let originations ← r.originated p
  let best ← s.overall r.name
  let merged := s.mergesExport r.name p
  let lanes := s.lanesOf r.name p
  let exported ← lanes.foldlM (fun exported l => do
    s.importConstraint r l
    if merged && (exported || !Topology.isActive p l.edge.start) then return exported
    else
      s.exportConstraint r best originations l
      return true) false
  match merged && !exported, lanes.getLast? with
  | true, some l => Build.require (.not l.outgoing.permits)
  | _, _ => return ()

def transferConstraints (s : Slice) : Build Unit :=
  s.topology.routers.forM fun r => (s.protocols r.name).forM (s.laneConstraints r)

/-! ## §4. Best routes -/

def historyConstraints (s : Slice) : List (Term .bool) :=
  s.bests.flatMap fun b =>
    let standsFor := fun (r : Record) (p : Protocol) => match r.history with
      | some h => Term.implies r.permits (h.isValue p)
      | none => Term.implies r.permits .yes
    if s.isSingle b.router then ((s.protocols b.router).head?.map (standsFor b.overall)).toList
    else b.perProtocol.map fun e => standsFor e.2 e.1

/-- The setting in which a route of a protocol is compared; `lane` is where it came from. -/
def comparing (s : Slice) (r : Router) (p : Protocol) (lane : Option Lane) : Comparing where
  protocol := p
  multipath := (r.isMultipath p).map Document.truthy
  arrival := lane.map fun l => { area := l.edge.start.ospfArea, peerId := s.peerId l p }

structure Candidate where
  permits : Term .bool
  isBeaten : Term .bool
  isBest : Term .bool

def candidate (c : Comparing) (best r : Record) : Except Failure Candidate := do
  return { permits := r.permits, isBeaten := ← c.isAtLeast best r, isBest := ← c.isSame best r true }

/-- A route is the best of some candidates: at least as good as each, and one of them. -/
def bestAmong (best : Record) (candidates : List Candidate) : List (Term .bool) :=
  if candidates.isEmpty then [.not best.permits]
  else
    let permitted := Term.anyOf (candidates.map Candidate.permits)
    (candidates.map fun c => Term.implies c.permits c.isBeaten) ++
      [.eq best.permits permitted,
       .implies permitted (.anyOf (candidates.map fun c => Term.and [c.permits, c.isBest]))]

def bestPerProtocolConstraints (s : Slice) : Except Failure (List (Term .bool)) := do
  return (← s.topology.routers.mapM fun r => (s.protocols r.name).mapM fun p => do
    let best ← s.bestOf r.name p
    return bestAmong best (← (s.lanesOf r.name p).mapM fun l => do
      candidate (s.comparing r p (some l)) best (← s.incoming l))).flatten.flatten

/-- A received route is chosen when it is as good as the best of its protocol. -/
def choiceConstraints (s : Slice) : Except Failure (List (Term .bool)) := do
  return (← s.topology.routers.mapM fun r => (s.protocols r.name).mapM fun p => do
    let best ← s.bestOf r.name p
    (s.lanesOf r.name p).mapM fun l => do
      let received ← s.incoming l
      let same ← (s.comparing r p (some l)).isSame best received
      return Term.eq l.choice (.and [received.permits, same])).flatten.flatten

def bestOverallConstraints (s : Slice) : Except Failure (List (Term .bool)) := do
  return (← s.topology.routers.mapM fun r => do
    if s.isSingle r.name then return []
    else
      let best ← s.overall r.name
      return bestAmong best (← (s.protocols r.name).mapM fun p => do
        candidate (s.comparing r p none) best (← s.bestOf r.name p))).flatten

/-! ## §5. Forwarding -/

def isUsed (s : Slice) (r : Router) (best : Record) (l : Lane) : Except Failure (Term .bool) := do
  return .and [l.choice, ← (s.comparing r l.protocol (some l)).isSame best (← s.incoming l)]

/-- The control plane forwards exactly over the edges of best routes. -/
def controlConstraints (s : Slice) : Except Failure (List (Term .bool)) := do
  return (← s.topology.routers.mapM fun r => do
    let best ← s.overall r.name
    let used ← (s.protocols r.name).mapM fun p => (s.lanesOf r.name p).mapM fun l => do
      return (l.edge, ← s.isUsed r best l)
    let used := used.flatten
    let forwards := used.map fun u => Term.implies u.2 (s.controlForwarding u.1)
    let others := (s.topology.edges r.name).map fun e =>
      match (used.filter fun u => u.1 == e).map (·.2) with
      | [] => Term.not (s.controlForwarding e)
      | here => Term.implies (.not (.anyOf here)) (.not (s.controlForwarding e))
    return forwards ++ others).flatten

/-- Packets leave where the control plane forwards and the access list permits. -/
def dataConstraints (s : Slice) : List (Term .bool) :=
  s.topology.sites.flatMap fun site => site.edges.map fun e =>
    .eq (s.dataForwarding e) (.allOf [s.controlForwarding e, s.permits e.router e.start .outgoing])

/-! ## §6. Records without a route -/

def resetConstraints (r : Record) : List (Term .bool) :=
  let none := Term.not r.permits
  let default := fun {α : Type} (e : Option (Enumeration α)) =>
    (e.map fun e => Term.implies none e.isDefault).toList
  (r.numbers.map fun n => .implies none (.is n.2 0)) ++
  default r.ospfArea ++ default r.ospfType ++ default r.history ++
  (r.bgpInternal.map fun internal => .implies none (.not internal)).toList ++
  r.communities.map fun e => .implies none (.not e.2)

def inactiveConstraints (s : Slice) : List (Term .bool) :=
  (s.lanes.filter fun l => l.incoming.used && !Topology.isActive l.protocol l.edge.start).map fun l =>
    .not l.incoming.permits

/-! ## §7. All constraints -/

def requireConstraints (s : Slice) : Build Unit := do
  Build.requireAll s.boundConstraints
  Build.requireAll s.communityConstraints
  s.transferConstraints
  Build.requireAll s.historyConstraints
  Build.requireAll (← s.bestPerProtocolConstraints)
  Build.requireAll (← s.choiceConstraints)
  Build.requireAll (← s.bestOverallConstraints)
  Build.requireAll (← s.controlConstraints)
  Build.requireAll s.dataConstraints
  Build.requireAll (s.records.flatMap resetConstraints)
  Build.requireAll s.inactiveConstraints
  Build.requireAll (← s.space.constraints s.packet)

end ControlPlane.Slice
