import ControlPlane.Proofs.Policy.Run
import ControlPlane.Transfer.Interpretation

/-!
# The interpretation of policies in values

`Transfer.compute` interprets a policy with terms: both branches of every condition are taken, and flags
say which modifications are void.  Here the same is done with the values that the terms have.  No variable
is needed then, so what a policy does to the values is a function of its own, and it tells apart what the
flags do (`Ground`) from how they are written down.
-/
namespace ControlPlane.Ground

open Policy (Setting Scope)
open Transfer (Change)

/-! ## §1. State -/

/-- The parameters of an interpretation, with values. -/
structure Param where
  route : Route
  scope : Scope
  /-- Modifications are void. -/
  returned : Bool

/-- The outcome of statements or of an expression, with values. -/
structure Result where
  value : Bool := false
  assigned : Bool := false
  changed : List Change := []

namespace Result

def ofExpr (value : Bool) : Result := { value, assigned := true }

def addChange (r : Result) (c : Change) : Result := { r with changed := addOnce c r.changed }

def addChanges (r s : Result) : Result :=
  { r with changed := s.changed.foldl (fun acc c => addOnce c acc) r.changed }

end Result

/-! ## §2. Modifications and joins -/

/-- Nothing is modified any more. -/
def isReturned (p : Param) (r : Result) : Bool := p.returned || r.assigned

def giveVerdict (r : Result) (accept : Bool) : Result :=
  { r with value := if r.assigned then r.value else accept, assigned := true }

def setNumber (s : Setting) (p : Param) (r : Result) (a : IntAttribute) (new : Int) : Result × Param :=
  let old := s.numberOf p.route a
  (r.addChange (.attribute a.key),
    { p with route := p.route.setNumber a (if isReturned p r then old else new) })

def attach (p : Param) (r : Result) (c : Community) (b : Bool) : Result × Param :=
  match p.route.carries c with
  | none => (r, p)
  | some old =>
    (r.addChange (.community c), { p with route := p.route.attach c (if isReturned p r then old else b) })

def attachAll (b : Bool) (cs : List Community) (p : Param) (r : Result) : Result × Param :=
  cs.foldl (fun (r, p) c => attach p r c b) (r, p)

def setType (p : Param) (r : Result) (type : OspfType) : Result × Param :=
  (r.addChange (.attribute "ospf_type"),
    { p with route := { p.route with ospfRank := if isReturned p r then p.route.ospfRank else type.rank } })

def joinNumber (g : Bool) (yes no : Route) (a : IntAttribute) : Option Int :=
  if Transfer.joinOrder.contains a then match yes.number a, no.number a with
    | some x, some y => some (if g then x else y)
    | x, _ => x
  else yes.number a

def joinRoutes (g : Bool) (yes no : Route) : Route where
  origin := yes.origin
  number := joinNumber g yes no
  ospfRank := if g then yes.ospfRank else no.ospfRank
  carries c := (yes.carries c).map fun x => if g then x else (no.carries c).getD x

def joinResults (g : Bool) (before yes no : Result) : Result :=
  (({ value := if g then yes.value else no.value, assigned := if g then yes.assigned else no.assigned,
      changed := before.changed : Result }).addChanges yes).addChanges no

/-! ## §3. Expressions -/

/-- What calling a policy does. -/
abbrev Caller := Document → Param → Result → Except Failure (Result × Param)

/-- The state between the operands of a conjunction or disjunction. -/
structure Progress where
  value : Bool
  param : Param
  changes : Result := {}

namespace Progress

/-- Before the first operand. -/
def start (isAnd : Bool) (p : Param) : Progress := { value := isAnd, param := p }

def decided (s : Progress) (isAnd : Bool) : Bool := if isAnd then !s.value else s.value

def inner (s : Progress) (isAnd : Bool) : Param :=
  { s.param with returned := s.param.returned || s.decided isAnd }

/-- What an operand leaves behind. -/
def after (s : Progress) (isAnd : Bool) (x : Result × Param) : Progress where
  value := if isAnd then s.value && x.1.value else s.value || x.1.value
  param := { s.param with route := x.2.route }
  changes := s.changes.addChanges x.1

def step (s : Progress) (isAnd : Bool) (operand : Param → Except Failure (Result × Param)) :
    Except Failure Progress := do
  return s.after isAnd (← operand (s.inner isAnd))

def finish (s : Progress) : Result := { s.changes with value := s.value, assigned := true }

end Progress

def enterChain (p : Param) (isAnd : Bool) : Param := { p with scope := p.scope.enterChain isAnd }

def endChain (call : Caller) (isAnd : Bool) (policy : Option Document) (r : Result) (s : Progress) :
    Except Failure Progress :=
  match policy with
  | none => .ok s
  | some name => s.step isAnd fun p => call name p r

mutual
def expr (s : Setting) (call : Caller) : BoolExpr → Param → Result → Except Failure (Result × Param)
  | .matchIpv4, p, _ => .ok (.ofExpr true, p)
  | .matchIpv6, p, _ => .ok (.ofExpr false, p)
  | .matchPrefix6Set _, p, _ => .ok (.ofExpr false, p)
  | .conj es, p, r => do
    let q ← sequence s call true es r (.start true p)
    return (q.finish, q.param)
  | .disj es, p, r => do
    let q ← sequence s call false es r (.start false p)
    return (q.finish, q.param)
  | .conjChain es, p, r => do
    if es.isEmpty && p.scope.defaultPolicy.isNone then return (.ofExpr true, p)
    else
      let q ← sequence s call true es r (.start true (enterChain p true))
      let q ← endChain call true p.scope.defaultPolicy r q
      return (q.finish, { p with route := q.param.route })
  | .disjChain es, p, r => do
    if es.isEmpty && p.scope.defaultPolicy.isNone then return (.ofExpr true, p)
    else
      let q ← sequence s call false es r (.start false (enterChain p false))
      let q ← endChain call false p.scope.defaultPolicy r q
      return (q.finish, { p with route := q.param.route })
  | .not e, p, r => do
    let (v, p) ← expr s call e p r
    return ({ v with value := !v.value }, p)
  | .matchProtocol q, p, _ => .ok (.ofExpr (Policy.cameFrom s p.route q), p)
  | .matchForeignProtocol _, p, _ => .ok (.ofExpr false, p)
  | .matchPrefixSet set, p, _ => do return (.ofExpr (← Policy.matchesPrefixSet s p.route set), p)
  | .matchCommunitySet set, p, _ => do return (.ofExpr (← Policy.matchesCommunitySet s p.route set), p)
  | .call policy, p, r => call policy p r
  | .withEnvironment e, p, r => expr s call e p r
  | .const b, p, _ => .ok (.ofExpr b, p)
  | .inExprCall, p, _ => .ok (.ofExpr (p.scope.callContext == .exprCall), p)
  | .inStatementCall, p, _ => .ok (.ofExpr (p.scope.callContext == .statementCall), p)
  | .foreign _ cause, _, _ => .error cause.failure

/-- Interprets the operands of a conjunction or disjunction in order. -/
def sequence (s : Setting) (call : Caller) (isAnd : Bool) :
    List BoolExpr → Result → Progress → Except Failure Progress
  | [], _, q => .ok q
  | e :: rest, r, q => do
    let q ← q.step isAnd fun p => expr s call e p r
    sequence s call isAnd rest r q
end

/-! ## §4. Statements -/

/-- Interprets a statement without arguments. -/
def simple (kind : SimpleStatement) (p : Param) (r : Result) : Except Failure (Result × Param) :=
  match kind with
  | .exitAccept | .returnTrue => .ok (giveVerdict r true, p)
  | .exitReject | .returnFalse => .ok (giveVerdict r false, p)
  | .setDefaultActionAccept => .ok (r, { p with scope.defaultAccept := true })
  | .setDefaultActionReject => .ok (r, { p with scope.defaultAccept := false })
  | .setLocalDefaultActionAccept => .ok (r, { p with scope.defaultAcceptLocal := true })
  | .setLocalDefaultActionReject => .ok (r, { p with scope.defaultAcceptLocal := false })
  | .returnLocalDefaultAction => .ok (giveVerdict r p.scope.defaultAcceptLocal, p)
  | .fallThrough => match p.scope.chainContext with
    | .conjunction => .ok (giveVerdict r true, p)
    | .disjunction => .ok (giveVerdict r false, p)
    | .none => .error (.unsupported .fallThrough)
  | .finish => .ok (r, p)

mutual
def statement (s : Setting) (call : Caller) : Statement → Param → Result → Except Failure (Result × Param)
  | .simple kind, p, r => simple kind p r
  | .cond guard yes no, p, r => do
    let (g, p) ← expr s call guard p r
    let r := r.addChanges g
    let (rYes, pYes) ← statements s call yes p r
    let (rNo, pNo) ← statements s call no p r
    return (joinResults g.value r rYes rNo, { p with route := joinRoutes g.value pYes.route pNo.route })
  | .setDefaultPolicy policy, p, r => .ok (r, { p with scope.defaultPolicy := some policy })
  | .setMetric e, p, r => do
    return setNumber s p r .metric (← Policy.applyIntExpr (s.numberOf p.route .metric) e)
  | .setLocalPref e, p, r => do
    return setNumber s p r .localPref (← Policy.applyIntExpr (s.numberOf p.route .localPref) e)
  | .setOspfType type, p, r => .ok (setType p r type)
  | .setForeignOspfType c, _, _ => .error (.unsupported (.ospfMetricType c.shown))
  | .addCommunity set, p, r => do return attachAll true (← Community.ofSet s.router set) p r
  | .deleteCommunity set, p, r => do return attachAll false (← Community.ofSet s.router set) p r
  | .prependAsPath path, p, r => do
    return setNumber s p r .metric (s.numberOf p.route .metric + (← (← path.count).integer))
  | .retainCommunity _, p, r => .ok (r, p)
  | .setOrigin _, p, r => .ok (r, p)
  | .foreign _ cause, _, _ => .error cause.failure

def statements (s : Setting) (call : Caller) :
    List Statement → Param → Result → Except Failure (Result × Param)
  | [], p, r => .ok (r, p)
  | x :: rest, p, r => do
    let (r, p) ← statement s call x p r
    statements s call rest p r
end

def body (s : Setting) (call : Caller) (policy : List Statement) (p : Param) :
    Except Failure (Result × Param) := do
  let (r, after) ← statements s call policy p {}
  return (giveVerdict r after.scope.defaultAccept, after)

def callPolicy (s : Setting) : Nat → Caller
  | 0, _, _, _ => .error .endless
  | depth + 1, name, p, r => do
    let policy ← s.router.policy name
    let inner := { p with scope.callContext := .exprCall, returned := isReturned p r }
    let (value, after) ← body s (callPolicy s depth) policy.statements inner
    return (value, { p with route := after.route })

end ControlPlane.Ground
