import ControlPlane.Config.Basic
import ControlPlane.Policy.Listing

/-!
# Configurations as documents

Routes and lists are constructs, as policies are; routers and networks are objects.
-/
namespace ControlPlane

def Document.ofOption {α : Type} (f : α → Document) : Option α → Document
  | some x => f x
  | none => .null

def Document.ofTexts (items : List String) : Document := .list (items.map .text)

def Action.construct (a : Action) : Construct := .member "LineAction" a.label (.text a.key)

/-! ## §1. Routes and lists -/

def StaticRoute.construct (r : StaticRoute) : Construct :=
  .node "StaticRoute" [("network", .subnet r.subnet), ("next_hop_interface", .document r.nextHopInterface),
    ("next_hop_ip", .document (.ofOption (fun a => .text a.dotted) r.nextHopIp)),
    ("admin_cost", .document r.adminCost)]

def GeneratedRoute.construct (r : GeneratedRoute) : Construct :=
  .node "GeneratedRoute" [("network", .subnet r.subnet), ("summary_only", .document r.summaryOnly)]

def FilterLine.construct (l : FilterLine) : Construct :=
  .node "RouteFilterLine" [("action", l.action.construct), ("prefix", .subnet l.subnet),
    ("length_range", .ofRange l.lengths)]

def FilterList.construct (l : FilterList) : Construct :=
  .node "RouteFilterList" [("name", .document l.name.document),
    ("lines", .list (l.lines.map FilterLine.construct))]

def CommunityLine.construct (l : CommunityLine) : Construct :=
  .node "CommunityListLine" [("action", l.action.construct), ("regex", .document l.regex)]

def CommunityList.construct (l : CommunityList) : Construct :=
  .node "CommunityList" [("name", .document l.name.document),
    ("lines", .list (l.lines.map CommunityLine.construct))]

def RoutingPolicy.construct (p : RoutingPolicy) : Construct :=
  .node "RoutingPolicy" [("name", .document p.name.document),
    ("statements", .list (Statement.constructs p.statements))]

def Link.construct (l : Link) : Construct :=
  .node "Link" [("router1", .document l.router1), ("interface1", .document l.interface1),
    ("router2", .document l.router2), ("interface2", .document l.interface2)]

/-! ## §2. Header spaces -/

def FlagMatch.listing (m : FlagMatch) : List Document :=
  m.used.map fun f => .list [.text f.1.label, f.2.paired]

def HeaderSpace.FieldValues.listing : HeaderSpace.FieldValues → Document
  | .subnets items => .ofTexts (items.map Subnet.written)
  | .ranges items => .list (items.map fun r => (Construct.ofRange r).listing)
  | .flags items => .list (items.map fun m => .list (.text "TcpFlags" :: m.listing))
  | .documents items => .list (items.map Document.paired)

def HeaderSpace.listing (h : HeaderSpace) : List (String × Document) :=
  h.usedFields.map fun f => (f.1, f.2.listing)

def AccessList.listing (l : AccessList) : Document :=
  .list [l.name.paired, .list (l.lines.map fun line =>
    .object (line.space.listing ++
      [("action", .text line.action.label), ("name", line.name.paired), ("negate", line.negate.paired)]))]

/-! ## §3. Routers -/

def Interface.listing (i : Interface) : Document :=
  .object [("name", i.name.document), ("address", .ofOption (fun h => .text h.written) i.address),
    ("prefix", .ofOption (fun s => .text s.written) i.subnet?), ("active", i.active),
    ("ospf_enabled", i.ospfEnabled), ("ospf_cost", i.ospfCost), ("ospf_area", i.ospfArea),
    ("in", .ofOption AccessList.name i.incomingFilter), ("out", .ofOption AccessList.name i.outgoingFilter),
    ("repr", .text i.shown)]

def Neighbor.listing (n : Neighbor) : Document :=
  .object [("address", .text n.address.dotted), ("remote_as", n.remoteAs), ("local_as", n.localAs),
    ("local_ip", .ofOption (fun a => .text a.dotted) n.localIp), ("import", n.importPolicy),
    ("export", n.exportPolicy), ("send_community", n.sendCommunity), ("ebgp", .bool n.isExternal)]

def BgpProcess.listing (b : BgpProcess) : Document :=
  .object [("router_id", b.routerId), ("multipath", b.multipath),
    ("neighbors", .list (b.neighbors.map Neighbor.listing))]

def OspfProcess.listing (o : OspfProcess) : Document :=
  .object [("router_id", o.routerId), ("export", o.exportPolicy), ("multipath", o.multipath)]

def Router.shown (r : Router) : String := "Configuration(" ++ r.name.shown ++ ")"

def Router.listing (r : Router) : Document :=
  .object [("repr", .text r.shown),
    ("interfaces", .list (r.interfaces.map Interface.listing)),
    ("static", .list (r.staticRoutes.map fun s => s.construct.listing)),
    ("generated", .list (r.generatedRoutes.map fun g => g.construct.listing)),
    ("bgp", .ofOption BgpProcess.listing r.bgp), ("ospf", .ofOption OspfProcess.listing r.ospf),
    ("filters", .list (r.filterLists.map fun l => l.construct.listing)),
    ("communities", .list (r.communityLists.map fun l => l.construct.listing)),
    ("acls", .list (r.accessLists.map AccessList.listing)),
    ("policies", .list (r.policies.map fun p => p.construct.listing))]

def Network.listing (n : Network) : Except Failure Document := do
  return .object [("repr", .text (← n.shown)), ("routers", .list (n.routers.map Router.listing)),
    ("links", .list (n.links.map fun l => l.construct.listing))]

end ControlPlane
