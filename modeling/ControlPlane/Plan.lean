import ControlPlane.Community
import ControlPlane.Topology.Basic

/-!
# Plans

What an encoding for a header space needs: which protocols of a router count, which attributes a route
record carries, and which records can be shared.  Every decision here is a function of the topology, the
header space and the number of tolerated failures; none changes which routes are selected, only how many
variables describe them.

* `Plan.compute` makes all decisions.
* `originated`, `isMultipath` and `routerId` are facts about one router that the encoding uses as well.
-/
namespace ControlPlane

/-! ## §1. Facts about a router -/

/-- Part of the name of the filter lists that hold the networks of a BGP process. -/
def bgpNetworksName : String := "BGP_NETWORK_NETWORKS_FILTER"

namespace Router

def sortedInterfaces (r : Router) : List Interface := sortNamed Interface.name r.interfaces

def listedNetworks (part : String) : List FilterList → Except Failure (List Subnet)
  | [] => .ok []
  | l :: rest => do
    let here := if ← l.name.document.holds (.text part) then l.lines.map FilterLine.subnet else []
    return here ++ (← listedNetworks part rest)

def originated (r : Router) (p : Protocol) : Except Failure (List Subnet) :=
  match p with
  | .ospf => .ok (r.sortedInterfaces.filterMap fun i => if i.runsOspf then i.subnet? else none)
  | .bgp => do listedNetworks bgpNetworksName (← inOrder FilterList.name r.filterLists)
  | .connected => .ok (r.sortedInterfaces.filterMap Interface.subnet?)
  | .static => .ok (r.staticRoutes.map StaticRoute.subnet)
  | .best => .error (.configuration (.unknownProtocol p.label))

/-- Whether a router injects a network that can hold a destination of the header space. -/
def originatesInto (r : Router) (p : Protocol) (space : HeaderSpace) : Except Failure Bool := do
  return (← r.originated p).any space.overlapsDst

/-- Whether a protocol uses several equally good routes at once, as its process says. -/
def isMultipath (r : Router) (p : Protocol) : Except Failure Document :=
  match p with
  | .connected => .ok (.bool true)
  | .static => .ok (.bool true)
  | .ospf => .ok ((r.ospf.map OspfProcess.multipath).getD (.bool true))
  | .bgp => .ok ((r.bgp.map BgpProcess.multipath).getD (.bool true))
  | .best => .error (.configuration (.unknownProtocol p.label))

def routerId (r : Router) (p : Protocol) : Except Failure Document :=
  let configured := match p with
    | .bgp => r.bgp.map BgpProcess.routerId
    | .ospf => r.ospf.map OspfProcess.routerId
    | _ => none
  match configured.getD .null with
  | .null => .ok (.int 0)
  | .int n => .ok (.int n)
  | .bool b => .ok (.bool b)
  | d => do return .int (← Address.ofDocument d).value

/-- Whether the export policy of a neighbor is missing, or only defers to the common export policy: if it
accepts then accept, else reject. -/
def exportsByDefault (r : Router) (neighbor : Option Neighbor) : Except Failure Bool :=
  match (neighbor.map Neighbor.exportPolicy).getD .null with
  | .null => .ok true
  | name => do
    let policy ← r.policy name
    match policy.statements with
    | [.cond (.call common) [.simple .exitAccept] [.simple .exitReject]] =>
      common.holds (.text Topology.commonExportName)
    | _ => return false

end Router

/-! ## §2. Plans -/

/-- Which of the optional decisions are made; turned off, the general answer is taken. -/
structure Switches where
  /-- Leave out attributes and protocols that cannot matter. -/
  slicing : Bool := true
  exportMerge : Bool := true
  importExportMerge : Bool := true
  deriving DecidableEq, Repr

structure ProtocolPlan where
  protocol : Protocol
  needsRouterId : Bool
  mergesExport : Bool
  mergedImports : List Edge

structure RouterPlan where
  router : Name
  protocols : List ProtocolPlan
  aggregates : List GeneratedRoute
  needsBgpInternal : Bool

/-- All decisions of an encoding. -/
structure Plan where
  keepLocalPref : Bool
  keepAdminDist : Bool
  keepMed : Bool
  keepOspfType : Bool
  routers : List RouterPlan

namespace RouterPlan

def protocolList (r : RouterPlan) : List Protocol := r.protocols.map ProtocolPlan.protocol

def protocol? (r : RouterPlan) (p : Protocol) : Option ProtocolPlan :=
  r.protocols.find? fun q => q.protocol == p

/-- Whether only one protocol is encoded, so that its best route is the overall best one. -/
def isSingle (r : RouterPlan) : Bool := r.protocols.length == 1

def needsRouterId (r : RouterPlan) : Bool := r.protocols.any ProtocolPlan.needsRouterId

def suppressed (r : RouterPlan) : List Subnet :=
  ((r.aggregates.filter fun g => g.summaryOnly.truthy).map GeneratedRoute.subnet).eraseDups

end RouterPlan

namespace Plan

def router? (p : Plan) (name : Name) : Option RouterPlan := p.routers.find? fun r => r.router == name

def protocolsOf (p : Plan) (name : Name) : List Protocol :=
  ((p.router? name).map RouterPlan.protocolList).getD []

/-! ## §3. Attributes -/

/-- Whether some policy of a router has a statement of a kind.  Finding one ends the search. -/
def anyStatementOf (isKind : Statement → Bool) (r : Router) : List RoutingPolicy → Except Failure Bool
  | [] => .ok false
  | p :: rest => do
    if ← (r.walk p.statements).any (fun node => match node with
      | .statement s => isKind s
      | .expression _ => false) then return true
    else anyStatementOf isKind r rest

/-- Whether some policy of some router has a statement of a kind.  Finding one ends the search. -/
def anyStatement (isKind : Statement → Bool) : List Router → Except Failure Bool
  | [] => .ok false
  | r :: rest => do
    if ← anyStatementOf isKind r (← inOrder RoutingPolicy.name r.policies) then return true
    else anyStatement isKind rest

def setsLocalPref : Statement → Bool
  | .setLocalPref _ => true
  | _ => false

def setsMetric : Statement → Bool
  | .setMetric _ => true
  | _ => false

def setsOspfType : Statement → Bool
  | .setOspfType _ => true
  | .setForeignOspfType _ => true
  | _ => false

def hasOwnDistance (route : StaticRoute) : Bool :=
  match route.adminCost with
  | .null => false
  | cost => !cost.same (.int (Protocol.defaultDistance .static))

def computeKeepLocalPref (s : Switches) (t : Topology) : Except Failure Bool :=
  if s.slicing then anyStatement setsLocalPref t.routers else .ok true

/-- Distances matter when a policy sets a metric, or a static route has a distance of its own. -/
def computeKeepAdminDist (s : Switches) (t : Topology) : Except Failure Bool := do
  if s.slicing then
    if ← anyStatement setsMetric t.routers then return true
    else return t.routers.any fun r => r.staticRoutes.any hasOwnDistance
  else return true

def computeKeepOspfType (s : Switches) (t : Topology) : Except Failure Bool := do
  if s.slicing then
    if ← anyStatement setsOspfType t.routers then return true
    else return 1 < (t.names.flatMap t.areas).eraseDups.length
  else return true

/-! ## §4. Protocols -/

/-- The protocols of a router.  Connected and static routes count only when they lead to a destination. -/
def computeProtocols (s : Switches) (r : Router) (space : HeaderSpace) :
    Except Failure (List Protocol) :=
  Protocol.encodingOrder.filterM fun p => do
    if ← Topology.isRunning r p then
      if s.slicing && p.isLocal then r.originatesInto p space else return true
    else return false

/-- Whether all exports of a protocol can share one record.  Routes that a router has by itself always do; for
the others the router has to be known. -/
def canMergeExport (s : Switches) (t : Topology) (name : Name) (p : Protocol) (failures : Document) :
    Except Failure Bool :=
  if !s.exportMerge then .ok false
  else if p.isLocal then .ok true
  else do
    let r ← t.router name
    if ← failures.isPositive then return false
    let edges := t.edges name
    match p with
    | .ospf =>
      let active := edges.all fun e => Topology.isActive p e.start
      let oneArea := (t.areas name).length ≤ 1
      let costs ← Document.distinct (edges.map fun e => e.start.ospfCost)
      return active && oneArea && costs.length ≤ 1
    | .bgp => match r.bgp with
      | none => throw .absent
      | some process =>
        let neighbors := edges.filterMap t.session?
        let byDefault ← allByDefault r process.neighbors
        let external := neighbors.all Neighbor.isExternal
        let communities ← Document.distinct (neighbors.map Neighbor.sendCommunity)
        return byDefault && external && communities.length ≤ 1
    | _ => throw (.configuration (.unknownProtocol p.label))
where
  /-- Whether every neighbor exports by default; the first that does not ends the search. -/
  allByDefault (r : Router) : List Neighbor → Except Failure Bool
    | [] => .ok true
    | n :: rest => do
      if ← r.exportsByDefault (some n) then allByDefault r rest else return false

/-- Whether the neighbor at the other side of an edge has an export record of the protocol. -/
def hasExportRecord (t : Topology) (protocols : List (Name × List Protocol)) (e : Edge)
    (p : Protocol) : Bool :=
  match e.far, e.reverse? with
  | some (peer, finish), some back =>
    ((protocols.lookup peer).getD []).contains p && t.isInterfaceUsed peer p finish && t.isEdgeUsed p back
  | _, _ => false

def isIdentityImport (t : Topology) (e : Edge) (p : Protocol) : Bool :=
  Topology.isActive p e.start && match p with
    | .bgp => match t.session? e, e.reverse?.bind t.session? with
      | some near, some far => near.importPolicy.same .null && near.sendCommunity.same far.sendCommunity
      | _, _ => false
    | _ => true

def computeMergedImports (s : Switches) (t : Topology) (protocols : List (Name × List Protocol))
    (r : Router) (p : Protocol) (space : HeaderSpace) : Except Failure (List Edge) := do
  if s.importExportMerge && !p.isLocal then
    if ← r.originatesInto p space then return []
    else return (t.edges r.name).filter fun e =>
      hasExportRecord t protocols e p && isIdentityImport t e p
  else return []

/-! ## §5. All decisions -/

/-- All decisions for the packets of a header space when a number of links may fail. -/
def compute (s : Switches) (t : Topology) (space : HeaderSpace) (failures : Document) : Except Failure Plan := do
  let protocols ← t.routers.mapM fun r => do return (r.name, ← computeProtocols s r space)
  let shared ← t.routers.mapM fun r => ((protocols.lookup r.name).getD []).mapM fun p => do
    return (p, !(← r.isMultipath p).truthy, ← canMergeExport s t r.name p failures)
  let keepLocalPref ← computeKeepLocalPref s t
  let keepAdminDist ← computeKeepAdminDist s t
  let keepOspfType ← computeKeepOspfType s t
  let routers ← (t.routers.zip shared).mapM fun (r, decisions) => do
    let plans ← decisions.mapM fun (p, needsRouterId, mergesExport) => do
      return { protocol := p, needsRouterId, mergesExport,
               mergedImports := ← computeMergedImports s t protocols r p space : ProtocolPlan }
    return {
      router := r.name
      protocols := plans
      aggregates := r.generatedRoutes.filter fun g => space.overlapsDst g.subnet
      needsBgpInternal := decisions.any (fun d => d.1 == .bgp) && (t.edges r.name).any t.isInternal
      : RouterPlan }
  return { keepLocalPref, keepAdminDist, keepMed := !s.slicing, keepOspfType, routers }

end Plan

end ControlPlane
