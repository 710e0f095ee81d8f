import ControlPlane.Transfer.Basic

/-!
# Interpreting policies

Policies are interpreted by recursion on their syntax.  Both branches of a condition are interpreted and
joined.  A called policy is interpreted in its place; what a call does is a parameter of the recursion, and
`Transfer.callPolicy` ties the knot with a bound on the depth of calls.  The policies of a router, the
default policies that can end a chain and the three chain contexts are all that a nested call depends on, so
a deeper nesting than their combinations never ends.
-/
namespace ControlPlane.Transfer

abbrev Caller := Document → Param → Result → Build (Result × Param)

/-! ## §1. Expressions -/

/-- The state between the operands of a conjunction or disjunction. -/
structure Progress where
  /-- The value of the operands so far. -/
  value : Term .bool
  param : Param
  changes : Result := {}

namespace Progress

/-- Before the first operand. -/
def start (isAnd : Bool) (p : Param) : Progress := { value := .boolLit isAnd, param := p }

def decided (s : Progress) (isAnd : Bool) : Term .bool := if isAnd then .not s.value else s.value

/-- One more operand; what it modifies counts only when the operands before did not decide. -/
def step (s : Progress) (isAnd : Bool) (operand : Param → Build (Result × Param)) : Build Progress := do
  let inner := { s.param with returned := .anyOf [s.param.returned, s.decided isAnd] }
  let (r, after) ← operand inner
  return {
    value := if isAnd then .allOf [s.value, r.value] else .anyOf [s.value, r.value]
    param := s.param.setRoute after.route
    changes := s.changes.addChanges r }

def finish (s : Progress) : Result := { s.changes with value := s.value, assigned := .yes }

end Progress

def enterChain (p : Param) (isAnd : Bool) : Param :=
  let chainContext := if isAnd then ChainContext.conjunction else .disjunction
  ({ p with defaultPolicy := none, chainContext } : Param).enterScope p.returned

def endChain (call : Caller) (isAnd : Bool) (policy : Option Document) (r : Result) (s : Progress) :
    Build Progress :=
  match policy with
  | none => return s
  | some name => s.step isAnd fun p => call name p r

def matchesProtocol (t : Transfer) (r : Record) (p : Protocol) : Term .bool :=
  match r.history with
  | none => .boolLit (p == t.fromProtocol)
  | some h => h.isValue p

/-- The value of matching on what is no protocol.  It is looked for only among several protocols, where a list
cannot be. -/
def matchesForeign (r : Record) (c : Construct) : Except Failure (Term .bool) :=
  if (r.history.bind Enumeration.bits).isSome && !c.isScalar then .error .shape else .ok .no

mutual
def expr (t : Transfer) (call : Caller) : BoolExpr → Param → Result → Build (Result × Param)
  | .matchIpv4, p, _ => return (.ofExpr .yes, p)
  | .matchIpv6, p, _ => return (.ofExpr .no, p)
  | .matchPrefix6Set _, p, _ => return (.ofExpr .no, p)
  | .conj es, p, r => do
    let s ← sequence t call true es r (Progress.start true p)
    return (s.finish, s.param)
  | .disj es, p, r => do
    let s ← sequence t call false es r (Progress.start false p)
    return (s.finish, s.param)
  | .conjChain es, p, r => do
    if es.isEmpty && p.defaultPolicy.isNone then return (.ofExpr .yes, p)
    else
      let s ← sequence t call true es r (Progress.start true (enterChain p true))
      let s ← endChain call true p.defaultPolicy r s
      return (s.finish, p.setRoute s.param.route)
  | .disjChain es, p, r => do
    if es.isEmpty && p.defaultPolicy.isNone then return (.ofExpr .yes, p)
    else
      let s ← sequence t call false es r (Progress.start false (enterChain p false))
      let s ← endChain call false p.defaultPolicy r s
      return (s.finish, p.setRoute s.param.route)
  | .not e, p, r => do
    let (v, p) ← expr t call e p r
    return ({ v with value := .not v.value }, p)
  | .matchProtocol q, p, _ => return (.ofExpr (t.matchesProtocol p.route q), p)
  | .matchForeignProtocol c, p, _ => do return (.ofExpr (← matchesForeign p.route c), p)
  | .matchPrefixSet s, p, _ => do return (.ofExpr (← t.matchesPrefixSet p.route s), p)
  | .matchCommunitySet s, p, _ => do return (.ofExpr (← t.matchesCommunitySet p.route s), p)
  | .call policy, p, r => call policy p r
  | .withEnvironment e, p, r => expr t call e p r
  | .const b, p, _ => return (.ofExpr (.boolLit b), p)
  | .inExprCall, p, _ => return (.ofExpr (.boolLit (p.callContext == .exprCall)), p)
  | .inStatementCall, p, _ => return (.ofExpr (.boolLit (p.callContext == .statementCall)), p)
  | .foreign _ cause, _, _ => throw cause.failure

/-- Interprets the operands of a conjunction or disjunction in order. -/
def sequence (t : Transfer) (call : Caller) (isAnd : Bool) :
    List BoolExpr → Result → Progress → Build Progress
  | [], _, s => return s
  | e :: rest, r, s => do
    let s ← s.step isAnd fun p => expr t call e p r
    sequence t call isAnd rest r s
end

/-! ## §2. Statements -/

def simple (t : Transfer) (kind : SimpleStatement) (p : Param) (r : Result) : Build (Result × Param) :=
  match kind with
  | .exitAccept => do return (← t.giveVerdict r true, p)
  | .returnTrue => do return (← t.giveVerdict r true, p)
  | .exitReject => do return (← t.giveVerdict r false, p)
  | .returnFalse => do return (← t.giveVerdict r false, p)
  | .setDefaultActionAccept => return (r, { p with defaultAccept := true })
  | .setDefaultActionReject => return (r, { p with defaultAccept := false })
  | .setLocalDefaultActionAccept => return (r, { p with defaultAcceptLocal := true })
  | .setLocalDefaultActionReject => return (r, { p with defaultAcceptLocal := false })
  | .returnLocalDefaultAction => do return (← t.giveVerdict r p.defaultAcceptLocal, p)
  | .fallThrough => match p.chainContext with
    | .conjunction => do return (← t.giveVerdict r true, p)
    | .disjunction => do return (← t.giveVerdict r false, p)
    | .none => throw (.unsupported .fallThrough)
  | .finish => return (r, p)

def setAttribute (t : Transfer) (a : IntAttribute) (e : IntExpr) (p : Param) (r : Result) :
    Build (Result × Param) := do
  let new ← applyIntExpr (t.intOrDefault p.route a) e
  t.modifyInt p r a new

mutual
def statement (t : Transfer) (call : Caller) : Statement → Param → Result → Build (Result × Param)
  | .simple kind, p, r => t.simple kind p r
  | .cond guard yes no, p, r => do
    let (g, p) ← t.expr call guard p r
    let r := r.addChanges g
    let (rYes, pYes) ← statements t call yes p r
    let (rNo, pNo) ← statements t call no p r
    let route ← t.joinRecords g.value pYes.route pNo.route
    return (← t.joinResults g.value r rYes rNo, p.setRoute route)
  | .setDefaultPolicy policy, p, r => return (r, { p with defaultPolicy := some policy })
  | .setMetric e, p, r => t.setAttribute .metric e p r
  | .setLocalPref e, p, r => t.setAttribute .localPref e p r
  | .setOspfType type, p, r => t.modifyOspfType p r type
  | .setForeignOspfType c, _, _ => throw (.unsupported (.ospfMetricType c.shown))
  | .addCommunity s, p, r => do t.modifyCommunities true (← Community.ofSet t.router s) p r
  | .deleteCommunity s, p, r => do t.modifyCommunities false (← Community.ofSet t.router s) p r
  | .prependAsPath path, p, r => do
    let count ← (← path.count).integer
    t.modifyInt p r .metric (.add (t.intOrDefault p.route .metric) (.intLit count))
  | .retainCommunity _, p, r => return (r, p)
  | .setOrigin _, p, r => return (r, p)
  | .foreign _ cause, _, _ => throw cause.failure

def statements (t : Transfer) (call : Caller) : List Statement → Param → Result → Build (Result × Param)
  | [], p, r => return (r, p)
  | s :: rest, p, r => do
    let (r, p) ← statement t call s p r
    statements t call rest p r
end

def body (t : Transfer) (call : Caller) (policy : List Statement) (p : Param) : Build (Result × Param) := do
  let (r, after) ← t.statements call policy p {}
  return (← t.giveVerdict r after.defaultAccept, after)

/-- Interprets a called policy; the verdict is the value of the call, and what the policy modified stays. -/
def callPolicy (t : Transfer) : Nat → Caller
  | depth, name, p, r => do
    let policy ← t.router.policy name
    let inner := ({ p with callContext := .exprCall } : Param).enterScope (isReturned p r)
    match depth with
    | 0 => throw .endless
    | depth + 1 =>
      let (value, after) ← t.body (t.callPolicy depth) policy.statements inner
      return (value, p.setRoute after.route)

def callDepth (t : Transfer) : Nat :=
  let policies := t.router.policies.length
  (policies + 1) * (policies + 1) * 3 + 1

/-! ## §3. The target -/

/-- A number of the target, if it is modeled. -/
def sameInt (x : Option (Term .int)) (value : Term .int) : Term .bool :=
  match x with
  | none => .yes
  | some x => .eq x value

def sameType (x other : Option (Enumeration OspfType)) : Term .bool :=
  match x, other with
  | none, _ => .yes
  | some x, none => x.isDefault
  | some x, some y => x.equal y

/-- The area of the target is the one of the interface, if areas are modeled. -/
def areaOf (t : Transfer) (route : Record) : Except Failure (Term .bool) :=
  match route.ospfArea, t.edge.start.ospfArea, t.target.ospfArea with
  | _, .null, _ => .ok .yes
  | some _, area, some x => x.isDocument area
  | _, _, _ => .ok .yes

/-- The OSPF type of the target: crossing into another area turns intra area routes into inter area
ones. -/
def typeOf (t : Transfer) (route : Record) (r : Result) : Except Failure (Term .bool) :=
  let copied := sameType t.target.ospfType route.ospfType
  if r.isChanged "ospf_type" then .ok copied
  else match route.ospfType, route.ospfArea, t.edge.start.ospfArea, t.target.ospfType with
    | _, _, .null, _ => .ok copied
    | some type, some area, here, some x => do
      return .ite (.and [type.isInternal, .not (← area.isDocument here)]) (x.isValue .OIA) copied
    | _, _, _, _ => .ok copied

def communitiesOf (t : Transfer) (route : Record) : List (Term .bool) :=
  let sends := t.sendsCommunity
  t.target.communities.filterMap fun e =>
    if sends then
      if e.1.kind == .regex then none
      else some (.eq e.2 ((route.community? e.1).getD .no))
    else some (.not e.2)

def historyOf (t : Transfer) (route : Record) : Term .bool :=
  match t.target.history, route.history with
  | some x, some y => x.equal y
  | _, _ => .yes

def noOverflow (t : Transfer) (metric : Term .int) : Term .bool :=
  match t.toProtocol.maxMetric? with
  | none => .yes
  | some limit => .le metric (.intLit limit)

/-- Both routes exist or none; a route without variables cannot be compared. -/
def samePermission (x y : Record) : Except Failure (Term .bool) :=
  match x.permitted, y.permitted with
  | some a, some b => .ok (.eq a b)
  | _, _ => .error .numeral

/-- The target is the final version of the route, unless the metric overflows. -/
def relate (t : Transfer) (route : Record) (r : Result) : Except Failure (Term .bool) := do
  let x := t.target
  let metric := Term.add (t.intOrDefault route .metric) (.intLit (← t.addedCost.integer))
  let localPref :=
    if r.isChanged IntAttribute.localPref.key || t.isInternal then t.intOrDefault route .localPref
    else .intLit defaultLocalPref
  let permission ← samePermission x route
  let area ← t.areaOf route
  let type ← t.typeOf route r
  let updates := Term.allOf ([
    permission,
    sameInt x.prefixLength (t.intOrDefault route .prefixLength),
    sameInt x.adminDist (t.intOrDefault route .adminDist),
    sameInt x.med (t.intOrDefault route .med),
    sameInt x.localPref localPref,
    sameInt x.metric metric,
    sameInt x.routerId (t.intOrDefault route .routerId),
    type,
    area,
    t.historyOf route,
    (match x.bgpInternal with
      | none => .yes
      | some internal => .eq internal (.boolLit t.isInternal))] ++ t.communitiesOf route)
  return .ite (t.noOverflow metric) updates (.not x.permits)

/-- On export, an aggregate that suppresses more specific routes replaces their prefix length. -/
def aggregated (t : Transfer) (route : Record) : Build Record := do
  let plan := t.frame.plan.router? t.router.name
  let aggregates := (plan.map RouterPlan.aggregates).getD []
  if !t.isExport || aggregates.isEmpty then return route
  else match route.prefixLength with
    | none => throw .shape
    | some length =>
      let suppressed := (plan.map RouterPlan.suppressed).getD []
      let shortened := aggregates.foldl (fun acc g =>
        .ite (.and [g.subnet.holdsOf t.frame.packet.dstIp,
                    .gt length (.intLit g.subnet.length),
                    .boolLit (suppressed.contains g.subnet)])
          (.intLit g.subnet.length) acc) length
      return route.setInt .prefixLength (← t.freshInt (attributeName .prefixLength) shortened)

def compute (t : Transfer) (policy : List Statement) : Build (Term .bool) := do
  let route ← t.aggregated t.source
  let route :=
    if !t.isExport && t.toProtocol == .bgp && !t.isInternal then
      route.setInt .localPref (.intLit defaultLocalPref)
    else route
  let (r, after) ← t.body (t.callPolicy t.callDepth) policy { route }
  return .ite r.value (← t.relate after.route r) (.not t.target.permits)

end ControlPlane.Transfer
