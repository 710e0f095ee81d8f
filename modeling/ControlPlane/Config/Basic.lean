import ControlPlane.Document.Decode
import ControlPlane.Policy.Basic

/-!
# Router configurations and networks

The vendor independent model that is encoded: interfaces, static and generated routes, the BGP and OSPF
processes, and the named lists that policies refer to.  Settings are kept as they are written and interpreted
where they matter.  Named things are kept in the order in which their names first occur; a repeated name takes
the last value (`collect`).
-/
namespace ControlPlane

/-! ## §1. Named collections -/

/-- Puts an item into a collection: an item of the same name is replaced in its place. -/
def putNamed {α κ : Type} [BEq κ] (name : α → κ) (x : α) : List α → List α
  | [] => [x]
  | y :: rest => if name y == name x then x :: rest else y :: putNamed name x rest

def collect {α κ : Type} [BEq κ] (name : α → κ) (items : List α) : List α :=
  items.foldl (fun acc x => putNamed name x acc) []

def findNamed? {α κ : Type} [BEq κ] (name : α → κ) (items : List α) (key : κ) : Option α :=
  items.find? fun x => name x == key

def sortTexts (items : List String) : List String := sortWith (fun a b => decide (a ≤ b)) items

def sortByText {α : Type} (text : α → String) (items : List α) : List α :=
  sortWith (fun a b => decide (text a ≤ text b)) items

def sortNamed {α : Type} (name : α → Name) (items : List α) : List α :=
  sortWith (fun a b => (name a).le (name b)) items

def inOrder {α : Type} (name : α → Name) (items : List α) : Except Failure (List α) :=
  if Name.areOrdered (items.map name) then .ok (sortNamed name items) else .error .shape

/-! ## §2. Parts of a router -/

structure Interface where
  name : Name
  address : Option Subnet.Host := none
  active : Document := .bool true
  ospfEnabled : Document := .bool false
  /-- The cost of sending over the interface, configured or derived; null when there is none. -/
  ospfCost : Document := .null
  ospfArea : Document := .null
  /-- Bits per second. -/
  bandwidth : Document := .null
  incomingFilter : Option AccessList := none
  outgoingFilter : Option AccessList := none

def Interface.subnet? (i : Interface) : Option Subnet := i.address.map Subnet.Host.subnet

/-- Whether an interface takes part in OSPF: it is active and OSPF is enabled. -/
def Interface.runsOspf (i : Interface) : Bool := i.active.truthy && i.ospfEnabled.truthy

def Interface.shown (i : Interface) : String :=
  "Interface(" ++ i.name.shown ++ ", " ++ (i.address.map Subnet.Host.written).getD "None" ++ ")"

/-- A peer that a BGP process talks to.  Policies are given by name, null standing for none. -/
structure Neighbor where
  address : Address
  remoteAs : Document
  localAs : Document
  localIp : Option Address := none
  importPolicy : Document := .null
  exportPolicy : Document := .null
  sendCommunity : Document := .bool false

/-- Whether the peer is in another autonomous system. -/
def Neighbor.isExternal (n : Neighbor) : Bool := !n.remoteAs.same n.localAs

structure BgpProcess where
  routerId : Document := .null
  neighbors : List Neighbor := []
  multipathExternal : Document := .bool false
  multipathInternal : Document := .bool false

/-- Whether several equally good routes are used at once. -/
def BgpProcess.multipath (p : BgpProcess) : Document := p.multipathExternal.both p.multipathInternal

structure OspfProcess where
  routerId : Document := .null
  exportPolicy : Document := .null
  referenceBandwidth : Document := .null
  multipath : Document := .bool true

structure StaticRoute where
  subnet : Subnet
  nextHopInterface : Document := .null
  nextHopIp : Option Address := none
  adminCost : Document := .int 1

structure GeneratedRoute where
  subnet : Subnet
  summaryOnly : Document := .bool false

structure FilterLine where
  action : Action
  subnet : Subnet
  lengths : Range

structure FilterList where
  name : Name
  lines : List FilterLine

structure CommunityLine where
  action : Action
  regex : Document

structure CommunityList where
  name : Name
  lines : List CommunityLine

/-! ## §3. Routers and networks -/

structure Router where
  name : Name
  interfaces : List Interface := []
  staticRoutes : List StaticRoute := []
  generatedRoutes : List GeneratedRoute := []
  bgp : Option BgpProcess := none
  ospf : Option OspfProcess := none
  filterLists : List FilterList := []
  communityLists : List CommunityList := []
  accessLists : List AccessList := []
  policies : List RoutingPolicy := []

namespace Router

def interface? (r : Router) (name : Name) : Option Interface :=
  findNamed? Interface.name r.interfaces name

def interface (r : Router) (name : Name) : Except Failure Interface :=
  match r.interface? name with
  | some i => .ok i
  | none =>
    .error (.missing (.text ("Router '" ++ r.name.shown ++ "' has no interface '" ++ name.shown ++ "'")))

def policy (r : Router) (name : Document) : Except Failure RoutingPolicy := do
  match findNamed? RoutingPolicy.name r.policies (← name.asName) with
  | some p => return p
  | none => throw (.configuration (.undefinedPolicy r.name.shown name.shown))

def communityList (r : Router) (name : Document) : Except Failure CommunityList := do
  match findNamed? CommunityList.name r.communityLists (← name.asName) with
  | some l => return l
  | none => throw (.configuration (.undefinedCommunityList r.name.shown name.shown))

def filterList (r : Router) (name : Document) : Except Failure FilterList := do
  match findNamed? FilterList.name r.filterLists (← name.asName) with
  | some l => return l
  | none => throw (.configuration (.undefinedFilterList r.name.shown name.shown))

end Router

/-- A connection between two interfaces, all given by name. -/
structure Link where
  router1 : Document
  interface1 : Document
  router2 : Document
  interface2 : Document

structure Network where
  routers : List Router := []
  links : List Link := []

def Network.router? (n : Network) (name : Name) : Option Router := findNamed? Router.name n.routers name

def Network.router (n : Network) (name : Name) : Except Failure Router :=
  match n.router? name with
  | some r => .ok r
  | none => .error (.missing name)

def Network.shown (n : Network) : Except Failure String := do
  let names := (← inOrder Router.name n.routers).map fun r => r.name.document
  return "Network(" ++ (Document.list names).quoted ++ ")"

end ControlPlane
