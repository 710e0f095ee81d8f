import ControlPlane.Config.Basic
import ControlPlane.Policy.Reader

/-!
# Reading networks from descriptions

Every part is read in a fixed order, which decides the failure when several things are wrong: for one
router the access lists, interfaces, static and generated routes, filter lists, community lists and
policies, then the BGP and the OSPF process.
-/
namespace ControlPlane

open Document

/-! ## §1. Parts -/

structure Unnamed (α : Type) where
  name : Document
  build : Name → α

def named {α : Type} (name : α → Name) (items : List (Unnamed α)) : Except Failure (List α) := do
  return collect name (← items.mapM fun i => do return i.build (← i.name.asName))

def accessListNamed (router : Document) (lists : List AccessList) (d : Document) :
    Except Failure (Option AccessList) :=
  match d with
  | .null => .ok none
  | d => do
    match findNamed? AccessList.name lists (← d.scalar) with
    | some l => return some l
    | none => throw (.configuration (.undefinedAccessList router.shown d.shown))

/-- An interface.  Its access lists are looked up before its address is read. -/
def Interface.ofDocument (router : Document) (lists : List AccessList) (d : Document) :
    Except Failure (Unnamed Interface) := do
  let name ← d.field "name"
  let address ← d.fieldD "address"
  let active ← d.fieldD "active" (.bool true)
  let ospfEnabled ← d.fieldD "ospf_enabled" (.bool false)
  let ospfCost ← d.fieldD "ospf_cost"
  let ospfArea ← d.fieldD "ospf_area"
  let bandwidth ← d.fieldD "bandwidth"
  let incomingFilter ← accessListNamed router lists (← d.fieldD "incoming_filter")
  let outgoingFilter ← accessListNamed router lists (← d.fieldD "outgoing_filter")
  let address ← if address.truthy then some <$> Subnet.hostOfDocument address else pure none
  return ⟨name, fun name => { name, address, active, ospfEnabled, ospfCost, ospfArea, bandwidth,
                              incomingFilter, outgoingFilter }⟩

def StaticRoute.ofParts (subnet nextHopInterface nextHopIp adminCost : Document) :
    Except Failure StaticRoute := do
  let nextHopIp ← match nextHopIp with
    | .null => pure none
    | d => some <$> Address.ofDocument d
  let subnet ← Subnet.ofDocument subnet
  return { subnet, nextHopIp, nextHopInterface, adminCost }

def StaticRoute.ofDocument (d : Document) : Except Failure StaticRoute := do
  let subnet ← d.field "network"
  StaticRoute.ofParts subnet (← d.fieldD "next_hop_interface") (← d.fieldD "next_hop_ip")
    (← d.fieldD "admin_cost" (.int 1))

def GeneratedRoute.ofDocument (d : Document) : Except Failure GeneratedRoute := do
  let subnet ← Subnet.ofDocument (← d.field "network")
  return { subnet, summaryOnly := ← d.fieldD "summary_only" (.bool false) }

def FilterLine.ofDocument (d : Document) : Except Failure FilterLine := do
  let action ← Action.ofDocument (← d.field "action")
  let subnet ← d.field "prefix"
  let range ← PrefixRange.ofParts subnet (← d.fieldD "min_length") (← d.fieldD "max_length")
  return { action, subnet := range.subnet, lengths := range.lengths }

/-- A line of a route filter list given by its parts; the subnet is read before the action. -/
def FilterLine.ofParts (action subnet lower upper : Document) : Except Failure FilterLine := do
  let range ← PrefixRange.ofParts subnet lower upper
  let unknown := Failure.value (action.quoted ++ " is not a valid LineAction")
  match action with
  | .text s => match Action.ofKey? s with
    | some action => return { action, subnet := range.subnet, lengths := range.lengths }
    | none => throw unknown
  | _ => throw unknown

def FilterList.ofDocument (d : Document) : Except Failure (Unnamed FilterList) := do
  let lines ← (← (← d.field "lines").elements).mapM FilterLine.ofDocument
  return ⟨← d.field "name", fun name => { name, lines }⟩

def CommunityLine.ofDocument (d : Document) : Except Failure CommunityLine := do
  let action ← Action.ofDocument (← d.field "action")
  return { action, regex := ← d.field "regex" }

def CommunityList.ofDocument (d : Document) : Except Failure (Unnamed CommunityList) := do
  let lines ← (← (← d.field "lines").elements).mapM CommunityLine.ofDocument
  return ⟨← d.field "name", fun name => { name, lines }⟩

def RoutingPolicy.ofDocument (d : Document) : Except Failure (Unnamed RoutingPolicy) := do
  let name ← d.field "name"
  let statements ← Statement.listOfDocument (← d.field "statements")
  return ⟨name, fun name => { name, statements }⟩

def Neighbor.ofDocument (d : Document) : Except Failure Neighbor := do
  let address ← d.field "address"
  let remoteAs ← d.field "remote_as"
  let localAs ← d.field "local_as"
  let localIp ← d.fieldD "local_ip"
  let importPolicy ← d.fieldD "import_policy"
  let exportPolicy ← d.fieldD "export_policy"
  let sendCommunity ← d.fieldD "send_community" (.bool false)
  let address ← Address.ofDocument address
  let localIp ← if localIp.truthy then some <$> Address.ofDocument localIp else pure none
  return { address, remoteAs, localAs, localIp, importPolicy, exportPolicy, sendCommunity }

/-- A BGP process, or nothing for `null`. -/
def BgpProcess.ofDocument (d : Document) : Except Failure (Option BgpProcess) :=
  match d with
  | .null => .ok none
  | d => do
    let neighbors ← (← (← d.fieldD "neighbors" (.list [])).elements).mapM Neighbor.ofDocument
    return some {
      routerId := ← d.fieldD "router_id", neighbors
      multipathExternal := ← d.fieldD "multipath_ebgp" (.bool false)
      multipathInternal := ← d.fieldD "multipath_ibgp" (.bool false) }

/-- An OSPF process, or nothing for `null`. -/
def OspfProcess.ofDocument (d : Document) : Except Failure (Option OspfProcess) :=
  match d with
  | .null => .ok none
  | d => do
    return some {
      routerId := ← d.fieldD "router_id"
      exportPolicy := ← d.fieldD "export_policy"
      referenceBandwidth := ← d.fieldD "reference_bandwidth"
      multipath := ← d.fieldD "multipath" (.bool true) }

/-! ## §2. Routers and networks -/

def itemsOf {α : Type} (d : Document) (name : String) (read : Document → Except Failure α) :
    Except Failure (List α) := do
  (← (← d.fieldD name (.list [])).elements).mapM read

def AccessList.ofRouterDocument (d : Document) : Except Failure AccessList := do
  let l ← AccessList.ofDocument d
  return { l with name := ← l.name.scalar }

/-- The configuration of a router.  Its parts get their names after all of them were read. -/
def Router.ofDocument (d : Document) : Except Failure (Unnamed Router) := do
  let hostname ← d.field "hostname"
  let accessLists := collect AccessList.name (← itemsOf d "acls" AccessList.ofRouterDocument)
  let interfaces ← itemsOf d "interfaces" (Interface.ofDocument hostname accessLists)
  let staticRoutes ← itemsOf d "static_routes" StaticRoute.ofDocument
  let generatedRoutes ← itemsOf d "generated_routes" GeneratedRoute.ofDocument
  let filterLists ← itemsOf d "route_filter_lists" FilterList.ofDocument
  let communityLists ← itemsOf d "community_lists" CommunityList.ofDocument
  let policies ← itemsOf d "policies" RoutingPolicy.ofDocument
  let bgp ← BgpProcess.ofDocument (← d.fieldD "bgp")
  let ospf ← OspfProcess.ofDocument (← d.fieldD "ospf")
  let interfaces ← named Interface.name interfaces
  let filterLists ← named FilterList.name filterLists
  let communityLists ← named CommunityList.name communityLists
  let policies ← named RoutingPolicy.name policies
  return ⟨hostname, fun name => { name, interfaces, staticRoutes, generatedRoutes, bgp, ospf, filterLists,
                                  communityLists, accessLists, policies }⟩

def Link.ofDocument (d : Document) : Except Failure Link := do
  match ← d.elements with
  | [router1, interface1, router2, interface2] => return ⟨router1, interface1, router2, interface2⟩
  | _ => throw .shape

/-- A network; its routers get their names after the links were read. -/
def Network.ofDocument (d : Document) : Except Failure Network := do
  let routers ← itemsOf d "routers" Router.ofDocument
  let links ← itemsOf d "links" Link.ofDocument
  return { routers := ← named Router.name routers, links }

end ControlPlane
