import ControlPlane.Verification.Consistency
import ControlPlane.Verification.Instrument
import ControlPlane.Verification.Report
import ControlPlane.Verification.Selection

/-!
# Questions

A question about a network is answered by one encoding per destination: the encoding states that the
property is violated, and a solver is asked for a counterexample.  The solver is a list of outcomes, taken
one by one, the last one over and over; it is asked about formulas and never computes.

* `Question.ask` answers a question.
* `Query` keeps what was asked: all constraints, and where each encoding ended.
-/
namespace ControlPlane

/-! ## §1. Questions -/

/-- A property of a network. -/
inductive Question where
  /-- Some forwarding of the packets; a counterexample is one. -/
  | forwarding
  | reachability
  | routerReachability
  /-- No source reaches a destination edge over more than a number of routers. -/
  | boundedLength (bound : Document)
  | equalLength
  /-- The neighbors of the sources carry loads that differ by at most a threshold. -/
  | loadBalance (threshold : Document)
  /-- A router that reaches the destination delivers on every edge that it uses. -/
  | multipathConsistency
  /-- No router inside of the network receives packets and forwards them nowhere. -/
  | noBlackHole
  /-- No packets come back to a router with static routes. -/
  | noRoutingLoop
  | localConsistency

/-- What a question is asked about. -/
structure Scope where
  space : HeaderSpace := {}
  selection : Selection := {}
  failures : Document := .int 0
  switches : Switches := {}

/-- A formula that was given to the solver. -/
structure Query where
  /-- The number of constraints when each encoding was complete. -/
  marks : List Nat
  constraints : List (Term .bool)

def Query.added (q : Query) : List (Term .bool) := q.constraints.drop (q.marks.getLast?.getD 0)

/-! ## §2. Asking -/

/-- The state of asking. -/
structure Inquiry where
  network : Network
  outcomes : List Outcome := []
  warnings : List String := []
  queries : List Query := []

abbrev Ask := ExceptT Failure (StateM Inquiry)

namespace Ask

def warn (texts : List String) : Ask Unit := modify fun i => { i with warnings := i.warnings ++ texts }

def topology : Ask Topology := do
  let t ← Topology.build (← get).network
  warn t.warnings
  return t

def encode (r : Request) : Ask Encoding := do
  let attempt := Encoding.encode (← get).network r
  modify fun i => { i with network := attempt.network }
  warn attempt.warnings
  attempt.result

def record (marks : List Nat) (constraints : List (Term .bool)) : Ask Unit :=
  modify fun i => { i with queries := i.queries ++ [{ marks, constraints }] }

def check : Ask Outcome := do
  let i ← get
  match i.outcomes with
  | [] => return {}
  | [o] => return o
  | o :: rest =>
    set { i with outcomes := rest }
    return o

def verify (e : Encoding) (label : String) : Ask Report := do
  let outcome ← check
  warn (Encoding.outcomeWarnings outcome)
  e.report outcome (.text label)

def settle (e : Encoding) (extra : Build Unit) (label : String) : Ask Report := do
  let (result, extended) := e.extend extra
  result
  record [e.ledger.constraints.size] extended.ledger.constraints.toList
  verify extended label

end Ask

def setReport (reports : List (String × Report)) (label : String) (r : Report) : List (String × Report) :=
  putNamed (·.1) (label, r) reports

/-! ## §3. Properties of destinations -/

namespace Question

/-- The name of a destination. -/
def edgeLabel (e : Edge) : String := e.router.shown ++ "," ++ e.interface.shown

/-- The header space of a destination: without destination addresses, the network of its edge. -/
def spaceFor (space : HeaderSpace) (e : Edge) : HeaderSpace :=
  match e.start.subnet? with
  | some subnet => if space.dstIps.isEmpty then space.addDst subnet else space
  | none => space

def pairs {α : Type} : List α → List (α × α)
  | [] => []
  | x :: rest => rest.map (fun y => (x, y)) ++ pairs rest

def differByMore (threshold : Document) (x y : Term .int) : Except Failure (Term .bool) := do
  let limit ← threshold.integer
  return .or [.gt (.sub x y) (.intLit limit), .gt (.sub y x) (.intLit limit)]

def deliversOnAll (s : Slice) (target : String) (router : Name) : Term .bool :=
  .allOf ((s.topology.edges router).map fun e =>
    let arrives := match e.peer? with
      | some peer => Instrument.reachable s target peer
      | none => .yes
    .implies (s.controlForwarding e) (.and [s.forwardsAcross e, arrives]))

def instrument? (q : Question) (e : Edge) : Option Instrument :=
  match q with
  | .reachability => some (.reachability e)
  | .boundedLength _ => some (.pathLength e)
  | .equalLength => some (.pathLength e)
  | .loadBalance _ => some (.load e)
  | .multipathConsistency => some (.reachability e)
  | _ => none

def violation (q : Question) (s : Slice) (e : Edge) (sources : List Name) : Except Failure (Term .bool) :=
  let target := Instrument.edgeName e
  match q with
  | .boundedLength bound => do
    return .anyOf (← sources.mapM fun r => do
      return Term.gt (Instrument.length s e r) (.intLit (← bound.integer)))
  | .equalLength => .ok (.not (Instrument.allEqual (sources.map (Instrument.length s e))))
  | .loadBalance threshold => do
    let peers := sortNamed id (sources.flatMap s.topology.neighbors).eraseDups
    return .anyOf (← (pairs (peers.map (Instrument.loadOf s e))).mapM fun (x, y) =>
      differByMore threshold x y)
  | .multipathConsistency => .ok (.anyOf (s.topology.names.map fun r =>
      .not (.implies (Instrument.reachable s target r) (deliversOnAll s target r))))
  | _ => .ok (.anyOf (sources.map fun r => .not (Instrument.reachable s target r)))

def sourcesIn (t : Topology) (selection : Selection) : Ask (List Name) := do
  let sources ← selection.sources t
  if sources.isEmpty then Ask.warn ["No router matches the source pattern " ++ selection.src.shown]
  return sources

def askDestinations (q : Question) (c : Scope) : Ask (List (String × Report)) := do
  let t ← Ask.topology
  let destinations ← c.selection.destinations t
  let sources ← sourcesIn t c.selection
  if destinations.isEmpty then Ask.warn ["No destination edge matches " ++ c.selection.shown]
  destinations.foldlM (fun reports e => do
    let label := edgeLabel e
    let encoding ← Ask.encode
      { space := spaceFor c.space e, failures := c.failures, switches := c.switches }
    let report ← Ask.settle encoding (do
      (q.instrument? e).forM fun i => i.add encoding.slice []
      Build.require (← q.violation encoding.slice e sources)) label
    return setReport reports label report) []

/-! ## §4. Other properties -/

def askTargets (c : Scope) : Ask (List (String × Report)) := do
  let t ← Ask.topology
  let targets ← c.selection.targets t
  let sources ← sourcesIn t c.selection
  if targets.isEmpty then Ask.warn ["No destination router matches " ++ c.selection.dst.shown]
  targets.foldlM (fun reports target => do
    let encoding ← Ask.encode { space := c.space, failures := c.failures, switches := c.switches }
    let s := encoding.slice
    let report ← Ask.settle encoding (do
      (Instrument.routerReachability target).add s []
      Build.require (.anyOf (sources.map fun r => .not (Instrument.reachable s target.shown r)))) target.shown
    return setReport reports target.shown report) []

def askForwarding (c : Scope) : Ask (List (String × Report)) := do
  let encoding ← Ask.encode { space := c.space, failures := c.failures, switches := c.switches }
  let peers := encoding.slice.environment.length
  if 0 < peers then
    Ask.warn ["Forwarding depends on routes learned from " ++ toString peers ++ " environment peers"]
  return [("forwarding", ← Ask.settle encoding (return ()) "forwarding")]

/-- A router inside of the network receives packets and forwards them nowhere. -/
def swallows (s : Slice) (site : Site) : Except Failure (Option (Term .bool)) := do
  if site.edges.any Edge.isEnvironment then return none
  else
    let received ← site.edges.mapM fun e => do return s.dataForwarding (← Instrument.backEdge s e)
    let nowhere := site.edges.map fun e => Term.not (s.dataForwarding e)
    return some (.and [.anyOf received, .allOf nowhere])

def askBlackHole (c : Scope) : Ask (List (String × Report)) := do
  let encoding ← Ask.encode { failures := c.failures, switches := c.switches }
  let s := encoding.slice
  let holes ← (s.topology.sites.mapM (swallows s) : Except Failure (List (Option (Term .bool))))
  let label := "black-hole"
  return [(label, ← Ask.settle encoding (Build.require (.anyOf (holes.filterMap id))) label)]

def askRoutingLoop (c : Scope) : Ask (List (String × Report)) := do
  let t ← Ask.topology
  let subnets := t.names.flatMap fun r => (t.staticRoutes r).flatMap fun e => e.2.map StaticRoute.subnet
  let routers := (t.routers.filter fun r => !r.staticRoutes.isEmpty).map Router.name
  let encoding ← Ask.encode
    { space := { dstIps := subnets }, failures := c.failures, switches := c.switches }
  let s := encoding.slice
  let label := "routing-loop"
  return [(label, ← Ask.settle encoding (do
    routers.forM fun r => (Instrument.loop r.document).add s []
    Build.require (.anyOf (routers.map fun r => Instrument.onLoop s r.document r))) label)]

def pairLabel (one two : Name) : String := one.shown ++ "<-->" ++ two.shown

def askPair (c : Scope) (one two : Name) : Ask Report := do
  let label := pairLabel one two
  let first ← Ask.encode { routers := .list [one.document], switches := c.switches }
  let second ← Ask.encode { routers := .list [two.document], id := .int 1, switches := c.switches }
  let side := fun (e : Encoding) (name : Name) => do
    return { slice := e.slice, router := ← e.slice.topology.router name : Consistency.Side }
  let compared ← (Consistency.terms (← side first one) (← side second two)).run
  let shared := first.ledger.constraints.toList
  let marks := [shared.length, shared.length + second.ledger.constraints.size]
  match compared with
  | .error m =>
    Ask.record marks (shared ++ second.ledger.constraints.toList)
    Ask.warn ["Skipping " ++ label ++ ": " ++ m.message]
    return { verdict := .incomparable, reason := .text m.message, label := .text label }
  | .ok (given, required) =>
    let (_, extended) := second.extend (Build.requireAll [given, .not required])
    Ask.record marks (shared ++ extended.ledger.constraints.toList)
    Ask.verify extended label

def askPairs (c : Scope) : Ask (List (String × Report)) := do
  let t ← Ask.topology
  let routers ← c.selection.sources t
  (routers.zip (routers.drop 1)).foldlM (fun reports (one, two) => do
    return setReport reports (pairLabel one two) (← askPair c one two)) []

def ask (q : Question) (c : Scope) : Ask (List (String × Report)) :=
  match q with
  | .forwarding => askForwarding c
  | .routerReachability => askTargets c
  | .noBlackHole => askBlackHole c
  | .noRoutingLoop => askRoutingLoop c
  | .localConsistency => askPairs c
  | q => askDestinations q c

end Question

end ControlPlane
