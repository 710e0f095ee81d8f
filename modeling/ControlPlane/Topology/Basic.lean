import ControlPlane.Config.Basic

/-!
# Topologies

The directed edges that routes and packets take.  Every modeled interface of a modeled router starts one
edge; the edge has a far end when the interface is linked to exactly one interface of another modeled
router, and leads out of the network otherwise.  An interface linked to its own router starts no edge, and
neither does an interface with neither link nor address.

* `Topology.build` checks the links and builds the edges and BGP sessions.
* `Edge.reverse?` is the other direction of an edge.
-/
namespace ControlPlane

/-! ## §1. Edges -/

structure Endpoint where
  router : Name
  interface : Name
  deriving DecidableEq, Repr

structure EdgeId where
  near : Endpoint
  far : Option Endpoint
  deriving DecidableEq, Repr

/-- One direction of a connection. -/
structure Edge where
  router : Name
  start : Interface
  /-- The router and the interface at the other side; none outside of the modeled network. -/
  far : Option (Name × Interface)

namespace Edge

def id (e : Edge) : EdgeId :=
  ⟨⟨e.router, e.start.name⟩, e.far.map fun f => ⟨f.1, f.2.name⟩⟩

instance : BEq Edge where
  beq a b := a.id == b.id

def interface (e : Edge) : Name := e.start.name

/-- The router at the other side. -/
def peer? (e : Edge) : Option Name := e.far.map (·.1)

def isEnvironment (e : Edge) : Bool := e.far.isNone

/-- The other direction. -/
def reverse? (e : Edge) : Option Edge :=
  e.far.map fun f => { router := f.1, start := f.2, far := some (e.router, e.start) }

def shown (e : Edge) : String :=
  e.router.shown ++ "," ++ e.start.name.shown ++ " --> " ++ match e.far with
    | some (peer, finish) => peer.shown ++ "," ++ finish.name.shown
    | none => "_,_"

def described (e : Edge) : String :=
  "GraphEdge(start=" ++ e.start.shown ++ ", end=" ++ (e.far.map fun f => f.2.shown).getD "None" ++
    ", router=" ++ e.router.quoted ++ ", peer=" ++ (e.peer?.map Name.quoted).getD "None" ++ ")"

end Edge

/-! ## §2. Links -/

def addOnce {α : Type} [BEq α] (x : α) (set : List α) : List α :=
  if set.contains x then set else set ++ [x]

abbrev Wiring := List (Endpoint × List Endpoint)

/-- Records that `here` is linked to `there`. -/
def Wiring.connect (here there : Endpoint) : Wiring → Wiring
  | [] => [(here, [there])]
  | (p, set) :: rest =>
    if p = here then (p, addOnce there set) :: rest else (p, set) :: Wiring.connect here there rest

def Wiring.peers (w : Wiring) (p : Endpoint) : List Endpoint := (w.lookup p).getD []

/-- One end of a link, given by the names of a router and an interface at both sides: nothing for a router
outside of the model, otherwise the interface must exist. -/
def Wiring.addEnd (routers : List Router) (w : Wiring) (router interface farRouter farInterface : Document) :
    Except Failure Wiring := do
  let name ← router.asName
  match findNamed? Router.name routers name with
  | none => return w
  | some r =>
    let port ← interface.asName
    match r.interface? port with
    | none => throw (.configuration (.missingInterface port.shown name.shown))
    | some _ => return w.connect ⟨name, port⟩ ⟨← farRouter.asName, ← farInterface.asName⟩

def Wiring.ofLinks (routers : List Router) (links : List Link) : Except Failure Wiring :=
  links.foldlM (fun w link => do
    let w ← Wiring.addEnd routers w link.router1 link.interface1 link.router2 link.interface2
    Wiring.addEnd routers w link.router2 link.interface2 link.router1 link.interface1) []

/-! ## §3. The edges of a router -/

def edgeAt (routers : List Router) (w : Wiring) (r : Router) (i : Interface) : Option Edge :=
  let outside : Edge := { router := r.name, start := i, far := none }
  match w.peers ⟨r.name, i.name⟩ with
  | [] => if i.address.isSome then some outside else none
  | [p] =>
    match findNamed? Router.name routers p.router with
    | none => some outside
    | some peer =>
      if peer.name == r.name then none
      else match peer.interface? p.interface with
        | some other => some { router := r.name, start := i, far := some (peer.name, other) }
        | none => none
  | _ => some outside

def sharedWarning? (w : Wiring) (r : Router) (i : Interface) : Option String :=
  let peers := w.peers ⟨r.name, i.name⟩
  if 1 < peers.length then
    some ("Interface " ++ i.name.shown ++ " of " ++ r.name.shown ++ " connects to " ++ toString peers.length ++
      " interfaces, modeled as an environment edge")
  else none

/-! ## §4. BGP sessions -/

/-- The neighbor that a BGP process reaches over an edge, with its place: the last one whose address is
in the network of the interface. -/
def sessionOver? (p : BgpProcess) (e : Edge) : Option (Nat × Neighbor) :=
  match e.start.subnet? with
  | none => none
  | some s => (p.neighbors.zipIdx.filter fun n => s.contains n.1.address.value).getLast?.map
    fun n => (n.2, n.1)

def sessionsOf (r : Router) (edges : List Edge) : List (Edge × Nat × Neighbor) :=
  match r.bgp with
  | none => []
  | some p => edges.filterMap fun e => (sessionOver? p e).map fun n => (e, n)

def unconnectedWarnings (r : Router) (edges : List Edge) : List String :=
  match r.bgp with
  | none => []
  | some p =>
    let connected := (sessionsOf r edges).map fun s => s.2.1
    (p.neighbors.zipIdx.filter fun n => !connected.contains n.2).map fun n =>
      "BGP session " ++ r.name.shown ++ " -> " ++ n.1.address.dotted ++
        " is not directly connected and is not modeled"

/-! ## §5. Topologies -/

structure Site where
  router : Router
  edges : List Edge
  areas : List Document

/-- Routers, the edges between them and the BGP sessions over the edges. -/
structure Topology where
  /-- The modeled routers in the order of their names. -/
  sites : List Site
  sessions : List (Edge × Neighbor)
  warnings : List String

/-- The OSPF areas of a router: those of the interfaces that OSPF is enabled on, when there is a process. -/
def Router.areas (r : Router) : Except Failure (List Document) :=
  if r.ospf.isNone then .ok []
  else Document.distinct ((r.interfaces.filter fun i => i.ospfEnabled.truthy).filterMap fun i =>
    match i.ospfArea with
    | .null => none
    | area => some area)

/-- The routers that a document selects, all when it is null; otherwise those whose names it contains. -/
def Network.selected (n : Network) (selection : Document) : Except Failure (List Router) :=
  match selection with
  | .null => .ok n.routers
  | d => n.routers.filterM fun r => d.holds r.name.document

namespace Topology

/-- The topology of a network, or of the selected routers only: links to other routers then lead to the
environment. -/
def build (n : Network) (selection : Document := .null) : Except Failure Topology := do
  let modeled ← n.selected selection
  let wiring ← Wiring.ofLinks modeled n.links
  let routers ← inOrder Router.name modeled
  let sites ← routers.mapM fun r => do
    let interfaces ← inOrder Interface.name r.interfaces
    return { router := r, edges := interfaces.filterMap (edgeAt routers wiring r), areas := ← r.areas : Site }
  let shared := routers.flatMap fun r =>
    (sortNamed Interface.name r.interfaces).filterMap (sharedWarning? wiring r)
  return {
    sites
    sessions := sites.flatMap fun s => (sessionsOf s.router s.edges).map fun e => (e.1, e.2.2)
    warnings := shared ++ sites.flatMap fun s => unconnectedWarnings s.router s.edges }

def names (t : Topology) : List Name := t.sites.map fun s => s.router.name

def routers (t : Topology) : List Router := t.sites.map Site.router

def site? (t : Topology) (name : Name) : Option Site := t.sites.find? fun s => s.router.name == name

def router (t : Topology) (name : Name) : Except Failure Router :=
  match t.site? name with
  | some s => .ok s.router
  | none => .error (.missing name)

def edges (t : Topology) (name : Name) : List Edge := ((t.site? name).map Site.edges).getD []

def edgeFrom? (t : Topology) (name interface : Name) : Option Edge :=
  (t.edges name).find? fun e => e.interface == interface

def neighbors (t : Topology) (name : Name) : List Name :=
  sortNamed id ((t.edges name).filterMap Edge.peer?).eraseDups

def session? (t : Topology) (e : Edge) : Option Neighbor := t.sessions.lookup e

def isInternal (t : Topology) (e : Edge) : Bool :=
  match t.session? e with
  | some n => !n.isExternal
  | none => false

/-- Whether a static route leaves over an edge: by the interface's name, or by the address at the other
side. -/
def leavesOver (route : StaticRoute) (e : Edge) : Bool :=
  route.nextHopInterface.same e.interface.document ||
    match route.nextHopIp, e.far with
    | some ip, some (_, finish) => match finish.address with
      | some host => host.address == ip
      | none => false
    | _, _ => false

def staticRoutesOver (t : Topology) (e : Edge) : List StaticRoute :=
  match t.site? e.router with
  | some s => s.router.staticRoutes.filter fun route => leavesOver route e
  | none => []

def staticRoutes (t : Topology) (name : Name) : List (Name × List StaticRoute) :=
  ((t.edges name).map fun e => (e.interface, t.staticRoutesOver e)).filter fun s => !s.2.isEmpty

def areas (t : Topology) (name : Name) : List Document := ((t.site? name).map Site.areas).getD []

/-! ## §6. Which protocols run where -/

def isRunning (r : Router) (p : Protocol) : Except Failure Bool :=
  match p with
  | .ospf => .ok r.ospf.isSome
  | .bgp => .ok r.bgp.isSome
  | .static => .ok (!r.staticRoutes.isEmpty)
  | .connected => .ok true
  | .best => .error (.configuration (.unknownProtocol p.label))

/-- The settings that decide whether a protocol runs over an interface: the first of them that is false, or the
last one. -/
def activity (p : Protocol) (i : Interface) : Document :=
  match p with
  | .ospf => i.active.both i.ospfEnabled
  | _ => i.active

def isActive (p : Protocol) (i : Interface) : Bool := (activity p i).truthy

/-- Whether a protocol has routes over an interface: a static protocol needs an active interface, whose setting
is the answer when it is false, and a static route. -/
def usage (t : Topology) (router : Name) (p : Protocol) (i : Interface) : Document :=
  match p with
  | .static => i.active.both (.bool ((t.staticRoutes router).lookup i.name).isSome)
  | _ => .bool true

def isInterfaceUsed (t : Topology) (router : Name) (p : Protocol) (i : Interface) : Bool :=
  (t.usage router p i).truthy

/-- Whether a protocol has routes over an edge: BGP needs a session. -/
def isEdgeUsed (t : Topology) (p : Protocol) (e : Edge) : Bool :=
  match p with
  | .bgp => (t.session? e).isSome
  | _ => true

/-! ## §7. Policies -/

/-- Part of the name of the export policy that all BGP neighbors of a router share. -/
def commonExportName : String := "BGP_COMMON_EXPORT_POLICY"

def policyNamed (r : Router) (name : Document) : Except Failure (Option RoutingPolicy) :=
  match name with
  | .null => .ok none
  | name => some <$> r.policy name

def commonAmong : List RoutingPolicy → Except Failure (Option RoutingPolicy)
  | [] => .ok none
  | q :: rest => do
    if ← q.name.document.holds (.text commonExportName) then return some q else commonAmong rest

def commonPolicy (r : Router) (p : Protocol) : Except Failure (Option RoutingPolicy) :=
  match p with
  | .ospf => match r.ospf with
    | none => .error .absent
    | some process => policyNamed r process.exportPolicy
  | .bgp => do commonAmong (← inOrder RoutingPolicy.name r.policies)
  | .static => .ok none
  | .connected => .ok none
  | .best => .error (.configuration (.noCommonPolicy p.label))

def importPolicy (t : Topology) (r : Router) (p : Protocol) (e : Edge) :
    Except Failure (Option RoutingPolicy) :=
  match p with
  | .bgp => match t.session? e with
    | none => .ok none
    | some n => policyNamed r n.importPolicy
  | .best => .error (.configuration (.noImportPolicy p.label))
  | _ => .ok none

def exportPolicy (t : Topology) (r : Router) (p : Protocol) (e : Edge) :
    Except Failure (Option RoutingPolicy) :=
  match p with
  | .ospf => commonPolicy r p
  | .bgp => match t.session? e with
    | none => .ok none
    | some n => policyNamed r n.exportPolicy
  | .best => .error (.configuration (.noExportPolicy p.label))
  | _ => .ok none

/-! ## §8. Text -/

/-- The text of a topology: its routers.  Edges have no line of their own, so a topology with edges has
no text. -/
def shown (t : Topology) : Except Failure String :=
  if t.sites.all fun s => s.edges.isEmpty then
    .ok ("\n".intercalate (t.names.map fun name => "Router: " ++ name.shown))
  else .error .shape

end Topology

end ControlPlane
