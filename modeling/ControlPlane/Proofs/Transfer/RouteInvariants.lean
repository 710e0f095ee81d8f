import ControlPlane.Proofs.Transfer.Faithfulness

/-!
# What policies keep of a route

A property of routes that every single modification keeps, and that the two branches of a condition hand on to their
join, holds of the route that a policy gives back.
-/
namespace ControlPlane

variable {isAnd : Bool} {n : Int} {a : IntAttribute}

namespace Ground

open Policy (Setting)
open Transfer (Change)

variable {s : Setting} {call : Caller} {Kind : Statement → Prop} {P : Route → Prop} {p : Param} {r : Result}
  {q : Progress} {policy : List Statement}

/-! ## §1. Expressions -/

def preference : Change := .attribute IntAttribute.localPref.key

/-- What is left after statements of some kind: a route with a property, and a local preference that was set only if
there are statements of the kind that set one. -/
structure Kept (Kind : Statement → Prop) (P : Route → Prop) (r : Result) (p : Param) : Prop where
  route : P p.route
  recorded : preference ∈ r.changed → ∃ e, Kind (.setLocalPref e)

theorem Kept.addChange {c : Change} (h : preference ∈ r.changed → ∃ e, Kind (.setLocalPref e))
    (hc : preference = c → ∃ e, Kind (.setLocalPref e)) (hp : P p.route) : Kept Kind P (r.addChange c) p :=
  ⟨hp, fun hmem => (mem_addOnce.1 hmem).elim hc h⟩

def CallsKeep (Kind : Statement → Prop) (P : Route → Prop) (call : Caller) : Prop :=
  ∀ name p r x, call name p r = .ok x → P p.route → Kept Kind P x.1 x.2

theorem step_keeps {operand : Param → Except Failure (Result × Param)}
    (hoperand : ∀ p, P p.route → Yields (operand p) fun x => Kept Kind P x.1 x.2)
    (hq : Kept Kind P q.changes q.param) :
    Yields (q.step isAnd operand) fun q' => Kept Kind P q'.changes q'.param :=
  .bind (hoperand (q.inner isAnd) hq.route) fun _ hx =>
    .ok ⟨hx.route, fun hmem => (mem_addChanges.1 hmem).elim hq.recorded hx.recorded⟩

section

variable (hcall : CallsKeep Kind P call)
include hcall

theorem endChain_keeps {policy : Option Document} (hq : Kept Kind P q.changes q.param) :
    Yields (endChain call isAnd policy r q) fun q' => Kept Kind P q'.changes q'.param := by
  cases policy with
  | none => exact .ok hq
  | some name => exact step_keeps (fun p hp x hx => hcall name p r x hx hp) hq

theorem chain_keeps {skip : Bool} {es : List BoolExpr} (hp : P p.route)
    (hes : Yields (sequence s call isAnd es r (.start isAnd (enterChain p isAnd))) fun q =>
      Kept Kind P q.changes q.param) :
    Yields (do
      if skip then return (.ofExpr true, p)
      else
        let q ← sequence s call isAnd es r (.start isAnd (enterChain p isAnd))
        let q ← endChain call isAnd p.scope.defaultPolicy r q
        return (q.finish, { p with route := q.param.route })) fun x => Kept Kind P x.1 x.2 := by
  split
  · exact .ok ⟨hp, nofun⟩
  · exact .bind hes fun _ hq => .bind (endChain_keeps hcall hq) fun _ hq => .ok ⟨hq.route, hq.recorded⟩

end

mutual
theorem expr_keeps (hcall : CallsKeep Kind P call) (e : BoolExpr) {p : Param} {r : Result} (hp : P p.route) :
    Yields (expr s call e p r) fun x => Kept Kind P x.1 x.2 := by
  match e with
  | .matchIpv4 | .matchIpv6 | .matchPrefix6Set _ | .const _ | .inExprCall | .inStatementCall
  | .matchProtocol _ | .matchForeignProtocol _ => exact .ok ⟨hp, nofun⟩
  | .matchPrefixSet _ | .matchCommunitySet _ => exact .after fun _ => .ok ⟨hp, nofun⟩
  | .conj es | .disj es =>
    exact .bind (sequence_keeps hcall _ es ⟨hp, nofun⟩) fun _ hq => .ok ⟨hq.route, hq.recorded⟩
  | .conjChain es | .disjChain es => exact chain_keeps hcall hp (sequence_keeps hcall _ es ⟨hp, nofun⟩)
  | .not e => exact .bind (expr_keeps hcall e hp) fun _ hx => .ok ⟨hx.route, hx.recorded⟩
  | .call policy => exact fun x hx => hcall policy p r x hx hp
  | .withEnvironment e => exact expr_keeps hcall e hp
  | .foreign _ cause => exact .error

theorem sequence_keeps (hcall : CallsKeep Kind P call) (isAnd : Bool) (es : List BoolExpr) {r : Result}
    {q : Progress} (hq : Kept Kind P q.changes q.param) :
    Yields (sequence s call isAnd es r q) fun q' => Kept Kind P q'.changes q'.param := by
  match es with
  | [] => exact .ok hq
  | e :: rest =>
    exact .bind (step_keeps (fun p hp => expr_keeps hcall e hp) hq) fun _ hfirst =>
      sequence_keeps hcall isAnd rest hfirst
end

/-! ## §2. Policies -/

/-- A property of routes that statements of some kind keep: setting a number, communities and types does, and so
does the join after a condition.  Statements inside of one of the kind are of the kind. -/
structure RouteInvariant (s : Setting) (Kind : Statement → Prop) (P : Route → Prop) : Prop where
  inside : ∀ guard yes no, Kind (.cond guard yes no) → (∀ x ∈ yes, Kind x) ∧ ∀ x ∈ no, Kind x
  join : ∀ g yes no, P yes → P no → P (joinRoutes g yes no)
  setMetric : ∀ e p r n, Kind (.setMetric e) → P p.route → P (setNumber s p r .metric n).2.route
  setLocalPref : ∀ e p r n, Kind (.setLocalPref e) → P p.route → P (setNumber s p r .localPref n).2.route
  lengthens : ∀ path p r d n, Kind (.prependAsPath path) → path.count = .ok d → d.integer = .ok n → P p.route →
    P (setNumber s p r .metric (s.numberOf p.route .metric + n)).2.route
  attaches : ∀ set cs c, Kind (.addCommunity set) ∨ Kind (.deleteCommunity set) →
    Community.ofSet s.router set = .ok cs →
    c ∈ cs → ∀ p r b, P p.route → P (attach p r c b).2.route
  setsType : ∀ p r type, P p.route → P (setType p r type).2.route

namespace RouteInvariant

variable (hinv : RouteInvariant s Kind P)

theorem attachAll (b : Bool) (cs : List Community) (hcs : ∀ c ∈ cs, ∀ p r b, P p.route → P (attach p r c b).2.route)
    {p : Param} {r : Result} (h : Kept Kind P r p) : Kept Kind P (attachAll b cs p r).1 (attachAll b cs p r).2 := by
  induction cs generalizing p r with
  | nil => exact h
  | cons c rest ih =>
    obtain ⟨hc, hrest⟩ := List.forall_mem_cons.1 hcs
    refine ih hrest ⟨hc p r b h.route, fun hmem => h.recorded ?_⟩
    split at hmem
    · exact hmem
    · exact (mem_addOnce.1 hmem).resolve_left (by simp [preference])

mutual
theorem statement (hinv : RouteInvariant s Kind P) (hcall : CallsKeep Kind P call) (x : Statement)
    (hx : Kind x) {p : Param} {r : Result}
    (hp : Kept Kind P r p) : Yields (statement s call x p r) fun y => Kept Kind P y.1 y.2 := by
  match x with
  | .simple kind =>
    intro y hy
    obtain ⟨hchanged, hroute⟩ := simple_keeps y hy
    exact ⟨hroute ▸ hp.route, hchanged ▸ hp.recorded⟩
  | .cond guard yes no =>
    obtain ⟨hkindYes, hkindNo⟩ := hinv.inside guard yes no hx
    refine .bind (expr_keeps hcall guard hp.route) fun g hg => ?_
    -- both branches start from the route that the guard leaves, and from what it recorded
    have hguard : Kept Kind P (r.addChanges g.1) g.2 :=
      ⟨hg.route, fun hmem => (mem_addChanges.1 hmem).elim hp.recorded hg.recorded⟩
    refine .bind (statements hinv hcall yes hkindYes hguard) fun _ hyes =>
      .bind (statements hinv hcall no hkindNo hguard) fun _ hno =>
        .ok ⟨hinv.join _ _ _ hyes.route hno.route, fun hmem => ?_⟩
    rcases mem_addChanges.1 hmem with hmem | hmem
    · exact (mem_addChanges.1 hmem).elim hguard.recorded hyes.recorded
    · exact hno.recorded hmem
  | .setMetric e => exact .after fun n => .ok (.addChange hp.recorded nofun (hinv.setMetric e p r n hx hp.route))
  | .setLocalPref e =>
    exact .after fun n => .ok (.addChange hp.recorded (fun _ => ⟨e, hx⟩) (hinv.setLocalPref e p r n hx hp.route))
  | .prependAsPath path =>
    refine .bind (fun _ hd => hd) fun d hd => .bind (fun _ hn => hn) fun n hn => ?_
    exact .ok (.addChange hp.recorded nofun (hinv.lengthens path p r d n hx hd hn hp.route))
  | .addCommunity set =>
    exact .bind (fun _ h => h) fun cs hcs => .ok (attachAll _ cs (hinv.attaches set cs · (.inl hx) hcs) hp)
  | .deleteCommunity set =>
    exact .bind (fun _ h => h) fun cs hcs => .ok (attachAll _ cs (hinv.attaches set cs · (.inr hx) hcs) hp)
  | .setOspfType type => exact .ok (.addChange hp.recorded nofun (hinv.setsType p r type hp.route))
  | .setDefaultPolicy _ | .retainCommunity _ | .setOrigin _ => exact .ok ⟨hp.route, hp.recorded⟩
  | .setForeignOspfType _ | .foreign _ _ => exact .error

theorem statements (hinv : RouteInvariant s Kind P) (hcall : CallsKeep Kind P call) (body : List Statement)
    (hbody : ∀ x ∈ body, Kind x) {p : Param}
    {r : Result} (hp : Kept Kind P r p) : Yields (statements s call body p r) fun y => Kept Kind P y.1 y.2 := by
  match body with
  | [] => exact .ok hp
  | x :: rest =>
    obtain ⟨hx, hrest⟩ := List.forall_mem_cons.1 hbody
    exact .bind (statement hinv hcall x hx hp) fun _ hfirst => statements hinv hcall rest hrest hfirst
end

include hinv

theorem bodyOf (hcall : CallsKeep Kind P call) (hpolicy : ∀ x ∈ policy, Kind x) (hp : P p.route) :
    Yields (body s call policy p) fun y => Kept Kind P y.1 y.2 :=
  .bind (statements hinv hcall policy hpolicy ⟨hp, nofun⟩) fun _ hx => .ok ⟨hx.route, hx.recorded⟩

/-- **Called policies keep the property**, if the statements of all policies of the router are of the kind. -/
theorem callPolicy (hpolicies : ∀ p ∈ s.router.policies, ∀ x ∈ p.statements, Kind x) (depth : Nat) :
    CallsKeep Kind P (callPolicy s depth) := by
  induction depth with
  | zero => exact fun name p r x h => absurd h (by simp [Ground.callPolicy])
  | succ depth ih =>
    intro name p r x h hp
    refine Yields.bind (R := fun x => Kept Kind P x.1 x.2) (fun _ hpolicy => hpolicy) (fun policy hpolicy => ?_) x h
    exact .bind (hinv.bodyOf ih (hpolicies policy (Policy.mem_policies hpolicy)) hp) fun _ hy =>
      .ok ⟨hy.route, hy.recorded⟩

/-- **Policies keep the property.** -/
theorem body (hpolicies : ∀ p ∈ s.router.policies, ∀ x ∈ p.statements, Kind x) {depth : Nat}
    (hpolicy : ∀ x ∈ policy, Kind x) {y : Result × Param} (h : body s (Ground.callPolicy s depth) policy p = .ok y)
    (hp : P p.route) : Kept Kind P y.1 y.2 :=
  hinv.bodyOf (hinv.callPolicy hpolicies depth) hpolicy hp y h

end RouteInvariant

/-! ## §3. Numbers that are left alone -/

theorem setNumber_number {b : IntAttribute} (h : a ≠ b) : (setNumber s p r b n).2.route.number a = p.route.number a :=
  Route.number_setNumber h

theorem attach_number {c : Community} {b : Bool} : (attach p r c b).2.route.number = p.route.number := by
  unfold attach
  split <;> rfl

theorem joinNumber_eq_or (g : Bool) (yes no : Route) (a : IntAttribute) :
    joinNumber g yes no a = yes.number a ∨ joinNumber g yes no a = no.number a := by
  unfold joinNumber
  split
  next =>
    cases hy : yes.number a with
    | none => exact .inl rfl
    | some x =>
      cases hn : no.number a with
      | none => exact .inl rfl
      | some y =>
        cases g with
        | true => exact .inl rfl
        | false => exact .inr rfl
  next => exact .inl rfl

/-- **A number that no statement sets stays as it is.**  Of all numbers, there are statements for the metric and the
local preference only. -/
theorem number_invariant (s : Setting) (Kind : Statement → Prop) (n : Option Int) (hmetric : a ≠ .metric)
    (hlocal : ∀ e, Kind (.setLocalPref e) → a ≠ .localPref)
    (hinside : ∀ guard yes no, Kind (.cond guard yes no) → (∀ x ∈ yes, Kind x) ∧ ∀ x ∈ no, Kind x) :
    RouteInvariant s Kind fun route => route.number a = n where
  inside := hinside
  join g yes no hyes hno := (joinNumber_eq_or g yes no a).elim (·.trans hyes) (·.trans hno)
  setMetric _ _ _ _ _ hp := (setNumber_number hmetric).trans hp
  setLocalPref e _ _ _ he hp := (setNumber_number (hlocal e he)).trans hp
  lengthens _ _ _ _ _ _ _ _ hp := (setNumber_number hmetric).trans hp
  attaches _ _ _ _ _ _ _ _ _ hp := (congrFun attach_number a).trans hp
  setsType _ _ _ hp := hp

end Ground

theorem Transfer.groundBody_number {t : Transfer} {v : Valuation} {x : Ground.Result × Ground.Param}
    (hmetric : a ≠ .metric) (hlocal : a ≠ .localPref) (h : t.groundBody policy v = .ok x) :
    x.2.route.number a = (t.entering v).number a :=
  ((Ground.number_invariant (t.setting v) (fun _ => True) _ hmetric (fun _ _ => hlocal)
    fun _ _ _ _ => ⟨fun _ _ => trivial, fun _ _ => trivial⟩).body (fun _ _ _ _ => trivial) (fun _ _ => trivial) h
    rfl).route

end ControlPlane
