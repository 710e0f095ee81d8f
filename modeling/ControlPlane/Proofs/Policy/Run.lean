import ControlPlane.Transfer.Basic

/-!
# Running policies on routes

A route with values instead of variables, and what a policy does to it.  Statements run in order and
nothing happens after the first verdict of a policy; a condition runs one branch; conjunctions,
disjunctions and chains stop at the operand that decides, and what the policies called up to there
modified stays.

Two questions have more than one answer in use: whether a setting made inside of a branch lasts beyond it,
and whether `finish` ends a policy.  A `Reading` answers both.
-/
namespace ControlPlane

/-! ## §1. Routes -/

/-- A route.  What a route has no place for has no value. -/
@[ext]
structure Route where
  /-- The protocol that the route came from, where it is told. -/
  origin : Option (Option Protocol)
  number : IntAttribute → Option Int
  /-- The place of the OSPF type in the order of preference. -/
  ospfRank : Nat
  carries : Community → Option Bool

namespace Route

def setNumber (r : Route) (a : IntAttribute) (n : Int) : Route :=
  { r with number := fun b => if b = a then some n else r.number b }

def attach (r : Route) (c : Community) (b : Bool) : Route :=
  { r with carries := fun d => if d = c then (r.carries c).map fun _ => b else r.carries d }

def attachAll (r : Route) (cs : List Community) (b : Bool) : Route :=
  cs.foldl (fun r c => r.attach c b) r

theorem setNumber_self {r : Route} {a : IntAttribute} {n : Int} (h : r.number a = some n) :
    r.setNumber a n = r := by
  unfold setNumber
  congr 1
  funext b
  split
  next hb => rw [hb, h]
  next => rfl

theorem attach_self {r : Route} {c : Community} {b : Bool} (h : r.carries c = some b) :
    r.attach c b = r := by
  unfold attach
  congr 1
  funext d
  split
  next hd => rw [hd, h]; rfl
  next => rfl

end Route

namespace Policy

/-- Where a policy runs. -/
structure Setting where
  router : Router
  destination : Int
  /-- The protocol of routes that tell none. -/
  protocol : Protocol
  /-- The numbers of attributes that a route has none of. -/
  default : IntAttribute → Int

def Setting.numberOf (s : Setting) (r : Route) (a : IntAttribute) : Int := (r.number a).getD (s.default a)

/-! ## §2. Matching -/

def inSubnet (s : Subnet) (x : Int) : Bool :=
  s.length == 0 || (decide ((s.first : Int) ≤ x) && decide (x ≤ s.last))

def isNumber (n : Int) : Document → Except Failure Bool
  | .null => .ok false
  | d => do return n == (← d.integer)

def inRange (lengths : Range) : Option Int → Except Failure Bool
  | none => .ok false
  | some n =>
    if lengths.isSingle then isNumber n lengths.start
    else do return decide ((← lengths.start.integer) ≤ n) && decide (n ≤ (← lengths.stop.integer))

def matchesPrefix (s : Setting) (r : Route) (subnet : Subnet) (lengths : Range) : Except Failure Bool := do
  return (← inRange lengths (r.number .prefixLength)) && inSubnet subnet s.destination

def matchesLines (s : Setting) (r : Route) : List FilterLine → Except Failure Bool
  | [] => .ok false
  | line :: rest => do
    if ← matchesPrefix s r line.subnet line.lengths then return line.action == .accept
    else matchesLines s r rest

def matchesSome (s : Setting) (r : Route) : List PrefixRange → Except Failure Bool
  | [] => .ok false
  | p :: rest => do
    if ← matchesPrefix s r p.subnet p.lengths then return true else matchesSome s r rest

def matchesPrefixSet (s : Setting) (r : Route) : PrefixSet → Except Failure Bool
  | .explicit [] => .ok true
  | .explicit ranges => matchesSome s r ranges
  | .named name => do matchesLines s r (← s.router.filterList name).lines
  | .foreign _ cause => .error cause.failure

def hasCommunity (r : Route) (c : Community) : Bool := (r.carries c).getD false

def matchesCommunityLines (r : Route) : List (CommunityLine × Community) → Bool
  | [] => false
  | (line, c) :: rest => if hasCommunity r c then line.action == .accept else matchesCommunityLines r rest

def matchesCommunitySet (s : Setting) (r : Route) (set : CommunitySet) : Except Failure Bool :=
  match set with
  | .inline _ => do return (← Community.ofSet s.router set).all (hasCommunity r)
  | .named name => do
    let list ← s.router.communityList name
    return matchesCommunityLines r (list.lines.zip (← Community.ofSet s.router set))
  | .foreign _ cause => .error cause.failure

def cameFrom (s : Setting) (r : Route) (p : Protocol) : Bool :=
  match r.origin with
  | none => p == s.protocol
  | some origin => origin == some p

def applyIntExpr (old : Int) : IntExpr → Except Failure Int
  | .literal n => n.integer
  | .increaseMetric n => do return old + (← n.integer)
  | .decreaseMetric n => do return old - (← n.integer)
  | .increaseLocalPref n => do return old + (← n.integer)
  | .decreaseLocalPref n => do return old - (← n.integer)
  | .foreign c => .error (.unsupported (.unknownConstruct .integerExpression c.shown))

/-! ## §3. Expressions -/

/-- What statements and expressions read besides the route. -/
structure Scope where
  callContext : CallContext := .none
  chainContext : ChainContext := .none
  /-- The verdict when a policy ends without one. -/
  defaultAccept : Bool := false
  defaultAcceptLocal : Bool := false
  /-- The policy that ends a chain. -/
  defaultPolicy : Option Document := none
  deriving Inhabited

def Scope.enterChain (s : Scope) (isAnd : Bool) : Scope :=
  { s with defaultPolicy := none, chainContext := if isAnd then .conjunction else .disjunction }

/-- What calling a policy does: its verdict and the route after it. -/
abbrev Call := Document → Scope → Route → Except Failure (Bool × Route)

def endChain (call : Call) (isAnd : Bool) (policy : Option Document) (inner : Scope) (before : Bool × Route) :
    Except Failure (Bool × Route) :=
  match policy with
  | none => .ok before
  | some name => if before.1 == isAnd then call name inner before.2 else .ok before

mutual
def eval (s : Setting) (call : Call) : BoolExpr → Scope → Route → Except Failure (Bool × Route)
  | .const b, _, r => .ok (b, r)
  | .inExprCall, scope, r => .ok (scope.callContext == .exprCall, r)
  | .inStatementCall, scope, r => .ok (scope.callContext == .statementCall, r)
  | .matchIpv4, _, r => .ok (true, r)
  | .matchIpv6, _, r => .ok (false, r)
  | .matchPrefix6Set _, _, r => .ok (false, r)
  | .conj es, scope, r => evalUntil s call true es scope r
  | .disj es, scope, r => evalUntil s call false es scope r
  | .conjChain es, scope, r => do
    if es.isEmpty && scope.defaultPolicy.isNone then return (true, r)
    else
      let before ← evalUntil s call true es (scope.enterChain true) r
      endChain call true scope.defaultPolicy (scope.enterChain true) before
  | .disjChain es, scope, r => do
    if es.isEmpty && scope.defaultPolicy.isNone then return (true, r)
    else
      let before ← evalUntil s call false es (scope.enterChain false) r
      endChain call false scope.defaultPolicy (scope.enterChain false) before
  | .not e, scope, r => do
    let (b, r) ← eval s call e scope r
    return (!b, r)
  | .matchProtocol p, _, r => .ok (cameFrom s r p, r)
  | .matchForeignProtocol _, _, r => .ok (false, r)
  | .matchPrefixSet set, _, r => do return (← matchesPrefixSet s r set, r)
  | .matchCommunitySet set, _, r => do return (← matchesCommunitySet s r set, r)
  | .call policy, scope, r => call policy scope r
  | .withEnvironment e, scope, r => eval s call e scope r
  | .foreign _ cause, _, _ => .error cause.failure

/-- The value of operands in order, up to the one that decides. -/
def evalUntil (s : Setting) (call : Call) (isAnd : Bool) :
    List BoolExpr → Scope → Route → Except Failure (Bool × Route)
  | [], _, r => .ok (isAnd, r)
  | e :: rest, scope, r => do
    let (b, r) ← eval s call e scope r
    if b == isAnd then evalUntil s call isAnd rest scope r else return (b, r)
end

/-! ## §4. Statements -/

/-- How far settings and the end of a policy reach. -/
structure Reading where
  /-- A setting made inside of a branch lasts beyond it. -/
  settingsLast : Bool
  /-- `finish` ends a policy, with its default action. -/
  finishEnds : Bool
  deriving DecidableEq, Repr

/-- Statements mean what they say wherever they stand. -/
def Reading.direct : Reading := ⟨true, true⟩

/-- A branch hands on its verdict and its route only, and `finish` is passed over. -/
def Reading.threaded : Reading := ⟨false, false⟩

/-- The state after some statements; a verdict ends the policy. -/
structure State where
  verdict : Option Bool := none
  scope : Scope
  route : Route

def runSimple (reading : Reading) (kind : SimpleStatement) (scope : Scope) (r : Route) :
    Except Failure State :=
  match kind with
  | .exitAccept | .returnTrue => .ok ⟨some true, scope, r⟩
  | .exitReject | .returnFalse => .ok ⟨some false, scope, r⟩
  | .setDefaultActionAccept => .ok ⟨none, { scope with defaultAccept := true }, r⟩
  | .setDefaultActionReject => .ok ⟨none, { scope with defaultAccept := false }, r⟩
  | .setLocalDefaultActionAccept => .ok ⟨none, { scope with defaultAcceptLocal := true }, r⟩
  | .setLocalDefaultActionReject => .ok ⟨none, { scope with defaultAcceptLocal := false }, r⟩
  | .returnLocalDefaultAction => .ok ⟨some scope.defaultAcceptLocal, scope, r⟩
  | .fallThrough => match scope.chainContext with
    | .conjunction => .ok ⟨some true, scope, r⟩
    | .disjunction => .ok ⟨some false, scope, r⟩
    | .none => .error (.unsupported .fallThrough)
  | .finish => .ok ⟨if reading.finishEnds then some scope.defaultAccept else none, scope, r⟩

mutual
def run (reading : Reading) (s : Setting) (call : Call) : Statement → Scope → Route → Except Failure State
  | .simple kind, scope, r => runSimple reading kind scope r
  | .cond guard yes no, scope, r => do
    let (b, r) ← eval s call guard scope r
    let after ← if b then runAll reading s call yes scope r else runAll reading s call no scope r
    return if reading.settingsLast then after else { after with scope }
  | .setDefaultPolicy policy, scope, r => .ok ⟨none, { scope with defaultPolicy := some policy }, r⟩
  | .setMetric e, scope, r => do
    return ⟨none, scope, r.setNumber .metric (← applyIntExpr (s.numberOf r .metric) e)⟩
  | .setLocalPref e, scope, r => do
    return ⟨none, scope, r.setNumber .localPref (← applyIntExpr (s.numberOf r .localPref) e)⟩
  | .setOspfType type, scope, r => .ok ⟨none, scope, { r with ospfRank := type.rank }⟩
  | .setForeignOspfType c, _, _ => .error (.unsupported (.ospfMetricType c.shown))
  | .addCommunity set, scope, r => do
    return ⟨none, scope, r.attachAll (← Community.ofSet s.router set) true⟩
  | .deleteCommunity set, scope, r => do
    return ⟨none, scope, r.attachAll (← Community.ofSet s.router set) false⟩
  | .prependAsPath path, scope, r => do
    return ⟨none, scope, r.setNumber .metric (s.numberOf r .metric + (← (← path.count).integer))⟩
  | .retainCommunity _, scope, r => .ok ⟨none, scope, r⟩
  | .setOrigin _, scope, r => .ok ⟨none, scope, r⟩
  | .foreign _ cause, _, _ => .error cause.failure

def runAll (reading : Reading) (s : Setting) (call : Call) :
    List Statement → Scope → Route → Except Failure State
  | [], scope, r => .ok ⟨none, scope, r⟩
  | x :: rest, scope, r => do
    let after ← run reading s call x scope r
    if after.verdict.isSome then return after else runAll reading s call rest after.scope after.route
end

def runPolicy (reading : Reading) (s : Setting) (call : Call) (policy : List Statement) (scope : Scope)
    (r : Route) : Except Failure (Bool × Route) := do
  let after ← runAll reading s call policy scope r
  return (after.verdict.getD after.scope.defaultAccept, after.route)

def callNamed (reading : Reading) (s : Setting) : Nat → Call
  | 0, _, _, _ => .error .endless
  | depth + 1, name, scope, r => do
    let policy ← s.router.policy name
    runPolicy reading s (callNamed reading s depth) policy.statements { scope with callContext := .exprCall } r

end Policy

end ControlPlane
