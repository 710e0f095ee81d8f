import ControlPlane.Proofs.Transfer.Join

/-!
# Interpretations define their variables

Everything that interpreting a policy adds to the ledger is an equation that defines a new variable.  So a
valuation that satisfies the equations gives the result the values that `Ground` computes, and every
valuation can be extended to one that satisfies them.

* `Transfer.expr_emits` and `Transfer.statements_emits` follow the syntax of policies.
-/
namespace ControlPlane.Transfer

open Term

open Policy (Setting Scope)

variable {closed : Prop} {xs : List Variable} {t : Transfer} {p : Param} {r : Result} {s : Progress} {isAnd : Bool}
  {x : Result × Param}

/-! ## §1. Expressions -/

/-- What a caller adds to a ledger only defines variables, and its result has the values that `gcall`
computes. -/
def CallEmits (closed : Prop) (t : Transfer) (call : Caller) (gcall : Valuation → Ground.Caller) : Prop :=
  ∀ (xs : List Variable) (name : Document) (p : Param) (r : Result), t.Ready closed xs p r →
    Emits closed xs (call name p r) fun v => gcall v name (p.under v) (r.under v)

theorem eval_decided (v : Valuation) : (s.decided isAnd).eval v = (s.under v).decided isAnd := by
  cases isAnd <;> rfl

theorem over_decided (h : Valued.Over xs s) : (s.decided isAnd).Over xs := by
  cases isAnd
  · exact h.1
  · exact h.1.not

def Progress.inner (s : Progress) (isAnd : Bool) : Param :=
  { s.param with returned := .anyOf [s.param.returned, s.decided isAnd] }

/-- What an operand leaves behind. -/
def Progress.after (s : Progress) (isAnd : Bool) (x : Result × Param) : Progress where
  value := if isAnd then .allOf [s.value, x.1.value] else .anyOf [s.value, x.1.value]
  param := s.param.setRoute x.2.route
  changes := s.changes.addChanges x.1

theorem Progress.under_inner (v : Valuation) : (s.inner isAnd).under v = (s.under v).inner isAnd := by
  have hret : (s.inner isAnd).returned.eval v = ((s.under v).inner isAnd).returned := by
    show (Term.anyOf _).eval v = (_ || _)
    rw [← eval_decided, eval_anyOf, List.any_cons, List.any_cons, List.any_nil, Bool.or_false]
    rfl
  unfold Param.under
  rw [hret]
  rfl

theorem Progress.under_after (v : Valuation) :
    (s.after isAnd x).under v = (s.under v).after isAnd (Valued.under v x) := by
  have hval : (s.after isAnd x).value.eval v = ((s.under v).after isAnd (Valued.under v x)).value := by
    cases isAnd
    · show (Term.anyOf [s.value, x.1.value]).eval v = (s.value.eval v || x.1.value.eval v)
      simp
    · show (Term.allOf [s.value, x.1.value]).eval v = (s.value.eval v && x.1.value.eval v)
      simp
  unfold Progress.under
  rw [hval]
  rfl

theorem Progress.over_inner (h : Valued.Over xs s) : Valued.Over xs (s.inner isAnd) := by
  refine ⟨h.2.1, within_anyOf.2 ?_⟩
  simp only [List.mem_cons, List.not_mem_nil, or_false, forall_eq_or_imp, forall_eq]
  exact ⟨h.2.2, over_decided h⟩

theorem Progress.over_after (h : Valued.Over xs s) (hx : Valued.Over xs x) : Valued.Over xs (s.after isAnd x) := by
  refine ⟨?_, hx.2.1, h.2.2⟩
  have hops : ∀ c ∈ [s.value, x.1.value], c.Over xs := by
    simp only [List.mem_cons, List.not_mem_nil, or_false, forall_eq_or_imp, forall_eq]
    exact ⟨h.1, hx.1.1⟩
  cases isAnd
  · exact within_anyOf.2 hops
  · exact within_allOf.2 hops

/-- One more operand of a conjunction or disjunction. -/
theorem step_emits {operand : Param → Build (Result × Param)}
    {F : Valuation → Ground.Param → Except Failure (Ground.Result × Ground.Param)}
    (h : t.Ready closed xs s.param r) (hs : closed → Valued.Over xs s)
    (hop : ∀ p : Param, t.Ready closed xs p r → Emits closed xs (operand p) fun v => F v (p.under v)) :
    Emits closed xs (s.step isAnd operand) fun v => (s.under v).step isAnd (F v) := by
  refine Emits.bind ((hop (s.inner isAnd) ⟨h.fit, h.destination, fun hq => Progress.over_inner (hs hq),
    h.result⟩).congr fun v => by rw [Progress.under_inner]) ?_
  intro x ys hsub hf hover
  exact Emits.pure hf.2 (fun hq => Progress.over_after (Valued.over_mono hsub (hs hq)) (hover hq))
    fun v => congrArg Except.ok (Progress.under_after v).symm

section

variable (h : t.Ready closed xs p r)
include h

/-- A condition that modifies nothing. -/
theorem ofExpr_emits {c : Term .bool} (hc : closed → c.Over xs) :
    Emits closed xs (pure (Result.ofExpr c, p)) fun v => .ok (.ofExpr (c.eval v), p.under v) :=
  Emits.pure ⟨trivial, h.fit⟩ (fun hq => ⟨⟨hc hq, within_yes⟩, h.param hq⟩) fun _ => rfl

/-- A condition that is computed without new variables. -/
theorem reads_emits {e : Except Failure (Term .bool)} {value : Valuation → Except Failure Bool}
    (he : Reads closed xs e value) :
    Emits closed xs (do return (Result.ofExpr (← e), p)) fun v => do
      return (.ofExpr (← value v), p.under v) := by
  refine Emits.lift fun c hc => ?_
  obtain ⟨hval, hover⟩ := he c hc
  exact (ofExpr_emits h hover).congr fun v => by rw [hval v]; rfl

end

theorem operands_emits {b : Build Progress} {B : Valuation → Except Failure Ground.Progress}
    (hb : Emits closed xs b B) :
    Emits closed xs (do let s ← b; return (s.finish, s.param)) fun v => do
      let s ← B v
      return (s.finish, s.param) := by
  refine Emits.bind hb fun s ys _ hf hs => ?_
  exact Emits.pure ⟨trivial, hf⟩ (fun hq => ⟨⟨(hs hq).1, within_yes⟩, (hs hq).2⟩) fun _ => rfl

theorem over_start (hp : Valued.Over xs p) : Valued.Over xs (Progress.start isAnd p) :=
  ⟨within_boolLit isAnd, hp⟩

variable {call : Caller} {gcall : Valuation → Ground.Caller}

theorem endChain_emits (hcall : CallEmits closed t call gcall) (policy : Option Document)
    (h : t.Ready closed xs s.param r) (hs : closed → Valued.Over xs s) :
    Emits closed xs (endChain call isAnd policy r s) fun v =>
      Ground.endChain (gcall v) isAnd policy (r.under v) (s.under v) := by
  cases policy with
  | none => exact Emits.pure h.fit hs fun _ => rfl
  | some name => exact step_emits h hs (F := fun v p => gcall v name p (r.under v)) fun p hp => hcall xs name p r hp

theorem chain_emits (hcall : CallEmits closed t call gcall) (es : List BoolExpr) (h : t.Ready closed xs p r)
    (hes : Emits closed xs (sequence t call isAnd es r (.start isAnd (enterChain p isAnd))) fun v =>
      Ground.sequence (t.setting v) (gcall v) isAnd es (r.under v)
        (.start isAnd (Ground.enterChain (p.under v) isAnd))) :
    Emits closed xs (do
        if es.isEmpty && p.defaultPolicy.isNone then return (.ofExpr .yes, p)
        else
          let s ← sequence t call isAnd es r (.start isAnd (enterChain p isAnd))
          let s ← endChain call isAnd p.defaultPolicy r s
          return (s.finish, p.setRoute s.param.route)) fun v => do
      if es.isEmpty && p.defaultPolicy.isNone then return (.ofExpr true, p.under v)
      else
        let s ← Ground.sequence (t.setting v) (gcall v) isAnd es (r.under v)
          (.start isAnd (Ground.enterChain (p.under v) isAnd))
        let s ← Ground.endChain (gcall v) isAnd p.defaultPolicy (r.under v) s
        return (s.finish, { p.under v with route := s.param.route }) := by
  split
  next => exact ofExpr_emits h fun _ => within_yes
  next =>
    refine Emits.bind hes fun s ys hsub hf hs => ?_
    have h := h.mono hsub
    refine Emits.bind (endChain_emits hcall p.defaultPolicy ⟨hf, h.destination, fun hq => (hs hq).2, h.result⟩ hs)
      fun s zs hsub hf hs => ?_
    exact Emits.pure ⟨trivial, hf⟩ (fun hq => ⟨⟨(hs hq).1, within_yes⟩, (hs hq).2.1, ((h.mono hsub).param hq).2⟩)
      fun v => rfl

mutual
/-- **Interpreting an expression only defines variables**, and gives it the value that `Ground` computes. -/
theorem expr_emits (hcall : CallEmits closed t call gcall) (e : BoolExpr) {xs : List Variable} {p : Param}
    {r : Result} (h : t.Ready closed xs p r) :
    Emits closed xs (t.expr call e p r) fun v =>
      Ground.expr (t.setting v) (gcall v) e (p.under v) (r.under v) := by
  match e with
  | .matchIpv4 | .matchIpv6 | .matchPrefix6Set _ | .const _ | .inExprCall | .inStatementCall =>
    exact ofExpr_emits h fun _ => within_boolLit _
  | .conj es | .disj es => exact operands_emits (sequence_emits hcall es h fun hq => over_start (h.param hq))
  | .conjChain es | .disjChain es =>
    exact chain_emits hcall es h (sequence_emits hcall es ⟨h.fit, h.destination, h.param, h.result⟩ fun hq =>
      over_start (h.param hq))
  | .not e =>
    show Emits closed xs (t.expr call e p r >>= fun x => pure ({ x.1 with value := .not x.1.value }, x.2))
      fun v => Ground.expr (t.setting v) (gcall v) e (p.under v) (r.under v) >>= fun x =>
        .ok ({ x.1 with value := !x.1.value }, x.2)
    refine Emits.bind (expr_emits hcall e h) fun x ys _ hf hx => ?_
    exact Emits.pure hf (fun hq => ⟨⟨(hx hq).1.1.not, (hx hq).1.2⟩, (hx hq).2⟩) fun v => rfl
  | .matchProtocol q =>
    exact (ofExpr_emits h fun hq => over_matchesProtocol (fun hq => (h.param hq).1) hq q).congr fun v => by
      rw [eval_matchesProtocol]
      rfl
  | .matchForeignProtocol c =>
    refine Emits.lift fun x hx => ?_
    obtain rfl : x = .no := by
      unfold matchesForeign at hx
      split at hx
      · cases hx
      · exact (Except.ok.inj hx).symm
    exact ofExpr_emits h fun _ => within_no
  | .matchPrefixSet set => exact reads_emits h (reads_matchesPrefixSet h.destination (fun hq => (h.param hq).1) set)
  | .matchCommunitySet set => exact reads_emits h (reads_matchesCommunitySet (fun hq => (h.param hq).1) set)
  | .call policy => exact hcall xs policy p r h
  | .withEnvironment e => exact expr_emits hcall e h
  | .foreign _ cause => exact Emits.throw

theorem sequence_emits (hcall : CallEmits closed t call gcall) (es : List BoolExpr) {xs : List Variable}
    {r : Result} {s : Progress} {isAnd : Bool} (h : t.Ready closed xs s.param r)
    (hs : closed → Valued.Over xs s) :
    Emits closed xs (sequence t call isAnd es r s) fun v =>
      Ground.sequence (t.setting v) (gcall v) isAnd es (r.under v) (s.under v) := by
  match es with
  | [] => exact Emits.pure h.fit hs fun _ => rfl
  | e :: rest =>
    refine Emits.bind (step_emits h hs (F := fun v p => Ground.expr (t.setting v) (gcall v) e p (r.under v))
      fun p hp => expr_emits hcall e hp) fun s ys hsub hf hs => ?_
    have h := h.mono hsub
    exact sequence_emits hcall rest ⟨hf, h.destination, fun hq => (hs hq).2, h.result⟩ hs
end

/-! ## §2. Statements -/

section

variable (h : t.Ready closed xs p r)
include h

theorem simple_emits (kind : SimpleStatement) :
    Emits closed xs (t.simple kind p r) fun v => Ground.simple kind (p.under v) (r.under v) := by
  have verdict (accept : Bool) : Emits closed xs (do return (← t.giveVerdict r accept, p)) fun v =>
      .ok (Ground.giveVerdict (r.under v) accept, p.under v) := by
    refine Emits.bind (t.giveVerdict_emits accept h.result) (F := fun v x => .ok (x, p.under v))
      fun x ys hsub hf hx => ?_
    exact Emits.pure ⟨hf, h.fit⟩ (fun hq => ⟨hx hq, (h.mono hsub).param hq⟩) fun _ => rfl
  cases kind with
  | exitAccept | returnTrue => exact verdict true
  | exitReject | returnFalse => exact verdict false
  | returnLocalDefaultAction => exact verdict p.defaultAcceptLocal
  | setDefaultActionAccept | setDefaultActionReject | setLocalDefaultActionAccept
  | setLocalDefaultActionReject | finish => exact Ready.emits ⟨h.fit, h.destination, h.param, h.result⟩
  | fallThrough =>
    have hchain : ∀ v, (p.under v).scope.chainContext = p.chainContext := fun _ => rfl
    unfold simple Ground.simple
    simp only [hchain]
    cases p.chainContext with
    | none => exact Emits.throw
    | conjunction => exact verdict true
    | disjunction => exact verdict false

omit h in
theorem applyIntExpr_reads {old new : Term .int} (e : IntExpr) (h : applyIntExpr old e = .ok new)
    (hold : closed → old.Over xs) :
    (∀ v, Policy.applyIntExpr (old.eval v) e = .ok (new.eval v)) ∧ (closed → new.Over xs) := by
  cases e with
  | literal n =>
    obtain ⟨k, hk, h⟩ := bind_eq_ok.1 h
    cases h
    exact ⟨fun v => hk, fun _ => within_intLit k⟩
  | increaseMetric n | increaseLocalPref n =>
    obtain ⟨k, hk, h⟩ := bind_eq_ok.1 h
    cases h
    exact ⟨fun v => bind_eq_ok.2 ⟨k, hk, by rw [eval_add]; rfl⟩, fun hq => (hold hq).add (within_intLit k)⟩
  | decreaseMetric n | decreaseLocalPref n =>
    obtain ⟨k, hk, h⟩ := bind_eq_ok.1 h
    cases h
    exact ⟨fun v => bind_eq_ok.2 ⟨k, hk, by rw [eval_sub]; rfl⟩, fun hq => (hold hq).sub (within_intLit k)⟩
  | «foreign» c => exact absurd h (by simp [applyIntExpr])

theorem setAttribute_emits (a : IntAttribute) (e : IntExpr) :
    Emits closed xs (t.setAttribute a e p r) fun v => do
      return Ground.setNumber (t.setting v) (p.under v) (r.under v) a
        (← Policy.applyIntExpr ((t.setting v).numberOf (p.under v).route a) e) := by
  refine Emits.lift fun new hnew => ?_
  obtain ⟨hval, hover⟩ := applyIntExpr_reads e hnew fun hq => t.over_intOrDefault (h.param hq).1 a
  refine (modifyInt_emits h a hover).congr fun v => ?_
  have hv := hval v
  rw [eval_intOrDefault] at hv
  show _ = (Policy.applyIntExpr ((t.setting v).numberOf (p.route.under v) a) e >>= _)
  rw [hv]
  rfl

end

mutual
/-- **Interpreting a statement only defines variables**, and does to the values what `Ground` does. -/
theorem statement_emits (hcall : CallEmits closed t call gcall) (x : Statement) {xs : List Variable} {p : Param}
    {r : Result} (h : t.Ready closed xs p r) :
    Emits closed xs (t.statement call x p r) fun v =>
      Ground.statement (t.setting v) (gcall v) x (p.under v) (r.under v) := by
  match x with
  | .simple kind => exact simple_emits h kind
  | .cond guard yes no =>
    show Emits closed xs (t.expr call guard p r >>= fun x => _) fun v =>
      Ground.expr (t.setting v) (gcall v) guard (p.under v) (r.under v) >>= fun x => _
    refine Emits.bind (expr_emits hcall guard h) ?_
    rintro ⟨g, q⟩ ys hsub ⟨-, hfitq⟩ hgq
    have h := h.mono hsub
    have hq : t.Ready closed ys q (r.addChanges g) := ⟨hfitq, h.destination, fun hq => (hgq hq).2, h.result⟩
    refine Emits.bind (statements_emits hcall yes hq) ?_
    rintro ⟨rYes, pYes⟩ zs hsub' hf hyes
    refine Emits.bind (statements_emits hcall no (hq.mono hsub')) ?_
    rintro ⟨rNo, pNo⟩ us hsub'' - hno
    have hg : closed → g.value.Over us := fun hq => ((hgq hq).1.1.mono hsub').mono hsub''
    have hyes := ((hq.next hsub' hf hyes).mono hsub'')
    show Emits closed us (t.joinRecords g.value pYes.route pNo.route >>= fun route =>
        t.joinResults g.value (r.addChanges g) rYes rNo >>= fun result => pure (result, q.setRoute route))
      fun v => .ok _ >>= fun route => .ok _ >>= fun result => .ok (result, { q.under v with route })
    refine Emits.bind (t.joinRecords_emits hyes.fit hg (fun hq => (hyes.param hq).1) fun hq => (hno hq).2.1) ?_
    intro route ws hsub₃ hfit' hroute
    refine Emits.bind (t.joinResults_emits (fun hq => (hg hq).mono hsub₃) (hyes.mono hsub₃).result
      fun hq => Valued.over_mono hsub₃ (hno hq).1) ?_
    intro result us' hsub₄ _ hresult
    refine Emits.pure ⟨trivial, hfit'⟩ (fun hq => ⟨hresult hq, (hroute hq).mono hsub₄, ?_⟩) fun v => rfl
    exact ((((hgq hq).2.2.mono hsub').mono hsub'').mono hsub₃).mono hsub₄
  | .setDefaultPolicy policy => exact Ready.emits ⟨h.fit, h.destination, h.param, h.result⟩
  | .setMetric e | .setLocalPref e => exact setAttribute_emits h _ e
  | .setOspfType type => exact modifyOspfType_emits h type
  | .setForeignOspfType c => exact Emits.throw
  | .addCommunity set | .deleteCommunity set =>
    refine Emits.lift fun cs hcs => (modifyCommunities_emits h _ cs).congr fun v => ?_
    show _ = (Community.ofSet t.router set >>= _)
    rw [hcs]
    rfl
  | .prependAsPath path =>
    refine Emits.lift fun d hd => Emits.lift fun n hn => ?_
    refine (modifyInt_emits h .metric fun hq =>
      (t.over_intOrDefault (h.param hq).1 .metric).add (within_intLit n)).congr fun v => ?_
    rw [eval_add, eval_intOrDefault]
    show _ = (path.count >>= fun d => d.integer >>= _)
    rw [hd, ok_bind, hn]
    rfl
  | .retainCommunity _ | .setOrigin _ => exact h.emits
  | .foreign _ cause => exact Emits.throw

theorem statements_emits (hcall : CallEmits closed t call gcall) (body : List Statement) {xs : List Variable}
    {p : Param} {r : Result} (h : t.Ready closed xs p r) :
    Emits closed xs (t.statements call body p r) fun v =>
      Ground.statements (t.setting v) (gcall v) body (p.under v) (r.under v) := by
  match body with
  | [] => exact h.emits
  | x :: rest =>
    show Emits closed xs (t.statement call x p r >>= fun y => t.statements call rest y.2 y.1) fun v =>
      Ground.statement (t.setting v) (gcall v) x (p.under v) (r.under v) >>= fun y =>
        Ground.statements (t.setting v) (gcall v) rest y.2 y.1
    refine Emits.bind (statement_emits hcall x h) fun y ys hsub hf hover => ?_
    exact statements_emits hcall rest (h.next hsub hf hover)
end

/-! ## §3. Policies -/

theorem body_emits (hcall : CallEmits closed t call gcall) (policy : List Statement) (h : t.Ready closed xs p {}) :
    Emits closed xs (t.body call policy p) fun v =>
      Ground.body (t.setting v) (gcall v) policy (p.under v) := by
  show Emits closed xs (t.statements call policy p {} >>= fun x =>
      t.giveVerdict x.1 x.2.defaultAccept >>= fun r => pure (r, x.2))
    fun v => Ground.statements (t.setting v) (gcall v) policy (p.under v) {} >>= fun x => .ok _ >>= fun r =>
      .ok (r, x.2)
  refine Emits.bind (statements_emits hcall policy h) ?_
  rintro ⟨r, after⟩ ys hsub ⟨-, hfit'⟩ hover
  refine Emits.bind (t.giveVerdict_emits after.defaultAccept fun hq => (hover hq).1) ?_
  intro result zs hsub' _ hresult
  exact Emits.pure ⟨trivial, hfit'⟩ (fun hq => ⟨hresult hq, Valued.over_mono hsub' (hover hq).2⟩) fun v => rfl

/-- **Calls only define variables**, whatever their depth is. -/
theorem callPolicy_emits (closed : Prop) (t : Transfer) (depth : Nat) :
    CallEmits closed t (t.callPolicy depth) fun v => Ground.callPolicy (t.setting v) depth := by
  induction depth with
  | zero =>
    intro xs name p r _
    unfold callPolicy
    exact Emits.lift fun _ _ => Emits.throw
  | succ depth ih =>
    intro xs name p r h
    unfold callPolicy
    refine Emits.lift fun policy hpolicy => ?_
    have hinner : ∀ v, (({ p with callContext := .exprCall } : Param).enterScope (isReturned p r)).under v =
        { p.under v with
          scope := { (p.under v).scope with callContext := .exprCall }
          returned := Ground.isReturned (p.under v) (r.under v) } := by
      intro v
      rw [← eval_isReturned]
      rfl
    have hbody := body_emits ih policy.statements
      (p := ({ p with callContext := .exprCall } : Param).enterScope (isReturned p r))
      ⟨h.fit, h.destination, fun hq => ⟨(h.param hq).1, h.over_isReturned hq⟩, fun _ => ⟨within_no, within_no⟩⟩
    simp only [hinner] at hbody
    refine (Emits.bind hbody (f := fun x => pure (x.1, p.setRoute x.2.route)) (F := fun v x =>
      .ok (x.1, { p.under v with route := x.2.route })) ?_).congr fun v => ?_
    · rintro ⟨r', after⟩ ys hsub hf hover
      exact Emits.pure hf (fun hq => ⟨(hover hq).1, (hover hq).2.1, (h.param hq).2.mono hsub⟩) fun v => rfl
    · show _ = (t.router.policy name >>= _)
      rw [hpolicy]
      rfl

end ControlPlane.Transfer
