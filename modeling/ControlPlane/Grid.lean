import ControlPlane.Config.Basic

/-!
# Grid networks

Descriptions of square grids of routers.  Every router has one host network and one interface per grid
neighbor; links are numbered row by row, the right neighbor of a router before the one below it, and every
link has a network of four addresses.  Routing is by OSPF, or by static routes for the host network of the
first router.
-/
namespace ControlPlane.Grid

/-! ## §1. Parts -/

/-- How the routers of a grid know their routes. -/
inductive Mode where
  | ospf
  | static
  /-- They know none. -/
  | plain
  deriving DecidableEq, Repr

def Mode.label : Mode → String
  | ospf => "ospf"
  | static => "static"
  | plain => "plain"

def Mode.ofLabel (s : String) : Mode :=
  if s == "ospf" then ospf else if s == "static" then static else plain

def routerName (x y : Nat) : String := "R" ++ toString x ++ toString y

def interfaceName (peer : String) : String := "to_" ++ peer

/-- A router of a grid. -/
structure Node where
  name : String
  x : Nat
  y : Nat
  interfaces : List (String × String)
  routes : List String := []

/-- A link of a grid. -/
structure Wire where
  here : String
  there : String

/-! ## §2. Building a grid -/

def places (n : Nat) : List (Nat × Nat) :=
  (List.range n).flatMap fun x => (List.range n).map fun y => (x + 1, y + 1)

/-- The routers of a grid before they are linked.  Of two routers with one name the last one counts. -/
def nodes (n : Nat) : List Node :=
  collect Node.name ((places n).map fun (x, y) =>
    { name := routerName x y, x, y
      interfaces := [("host", "10." ++ toString x ++ "." ++ toString y ++ ".1/24")] })

/-- The links of a grid. -/
def wires (n : Nat) : List Wire :=
  (places n).flatMap fun (x, y) =>
    ([(x + 1, y), (x, y + 1)].filter fun (u, v) => u ≤ n && v ≤ n).map fun (u, v) =>
      { here := routerName x y, there := routerName u v }

def wireAddress (index host : Nat) : String :=
  "172.16." ++ toString (index / 64) ++ "." ++ toString (index % 64 * 4 + host) ++ "/30"

def update (name : String) (f : Node → Node) (ns : List Node) : List Node :=
  ns.map fun m => if m.name == name then f m else m

def addInterface (name interface address : String) (ns : List Node) : List Node :=
  update name (fun m => { m with interfaces := m.interfaces ++ [(interface, address)] }) ns

def link (ns : List Node) (w : Wire × Nat) : List Node :=
  addInterface w.1.there (interfaceName w.1.here) (wireAddress w.2 2)
    (addInterface w.1.here (interfaceName w.1.there) (wireAddress w.2 1) ns)

/-- The neighbor on the way to the first router. -/
def homeward? (x y : Nat) : Option String :=
  if x == 1 && y == 1 then none
  else if 1 < x then some (routerName (x - 1) y)
  else some (routerName x (y - 1))

def addRoute (ns : List Node) (place : Nat × Nat) : List Node :=
  match homeward? place.1 place.2 with
  | none => ns
  | some peer =>
    update (routerName place.1 place.2) (fun m => { m with routes := m.routes ++ [interfaceName peer] }) ns

def routers (n : Nat) (mode : Mode) : List Node :=
  let linked := (wires n).zipIdx.foldl link (nodes n)
  if mode == .static then (places n).foldl addRoute linked else linked

/-! ## §3. Descriptions -/

def describeNode (mode : Mode) (m : Node) : Document :=
  let interface := fun (e : String × String) => Document.object [
    ("address", .text e.2), ("name", .text e.1), ("ospf_cost", .int 1),
    ("ospf_enabled", .bool (mode == .ospf))]
  let route := fun (name : String) => Document.object [
    ("network", .text "10.1.1.0/24"), ("next_hop_interface", .text name)]
  .object ([("hostname", .text m.name), ("interfaces", .list (m.interfaces.map interface))] ++
    (if mode == .ospf then
      [("ospf", .object [("router_id", .text ("192.168." ++ toString m.x ++ "." ++ toString m.y))])]
     else []) ++
    [("static_routes", .list (m.routes.map route))])

def describeWire (w : Wire) : Document :=
  .list [.text w.here, .text (interfaceName w.there), .text w.there, .text (interfaceName w.here)]

/-- The description of a grid of `n` by `n` routers; there are none for a negative size. -/
def describe (n : Int) (mode : Mode) : Document :=
  .object [("links", .list ((wires n.toNat).map describeWire)),
    ("routers", .list ((sortByText Node.name (routers n.toNat mode)).map (describeNode mode)))]

end ControlPlane.Grid
