import ControlPlane.Proofs.Ledger.Emission
import ControlPlane.Proofs.Transfer.Ground

/-!
# Interpreting a policy is running it

`Ground` takes both branches of every condition and goes on after a verdict; flags void what should not
happen.  `Policy` takes one branch and stops.  This module shows that they agree, for the reading in which
a branch hands on its verdict and its route only.

* Where the flags void everything, the route does not change.
* Where they do not, the value, the verdict and the route are those of the run.

A number that a policy sets has to have a place in the route: otherwise the default that stands in for it
would remain there.
-/
namespace ControlPlane

open Policy (Setting Scope Reading)
open Transfer (Change)

variable {isAnd : Bool} {ran : Except Failure (Bool × Route)} {a : IntAttribute}
  {operand : Param → Except Failure (Result × Param)} {r' : Route} {f : Scope → Route → Except Failure (Bool × Route)}

/-! ## §1. The shape of a route -/

/-- Routes with places for the same attributes, and the same values for what no policy changes. -/
structure Route.SameShape (r r' : Route) : Prop where
  origin : r'.origin = r.origin
  number : ∀ a, (r'.number a).isSome = (r.number a).isSome
  routerId : r'.number .routerId = r.number .routerId
  carries : ∀ c, (r'.carries c).isSome = (r.carries c).isSome

def Route.Models (r : Route) (changed : List Change) : Prop :=
  ∀ a : IntAttribute, .attribute a.key ∈ changed → (r.number a).isSome

namespace Route

variable {r : Route}

theorem SameShape.refl (r : Route) : r.SameShape r := ⟨rfl, fun _ => rfl, rfl, fun _ => rfl⟩

theorem SameShape.trans {r₁ r₂ r₃ : Route} (h : r₁.SameShape r₂) (h' : r₂.SameShape r₃) :
    r₁.SameShape r₃ :=
  ⟨h'.origin.trans h.origin, fun a => (h'.number a).trans (h.number a), h'.routerId.trans h.routerId,
    fun c => (h'.carries c).trans (h.carries c)⟩

theorem SameShape.symm (h : r.SameShape r') : r'.SameShape r :=
  ⟨h.origin.symm, fun a => (h.number a).symm, h.routerId.symm, fun c => (h.carries c).symm⟩

theorem Models.of_subset {cs ds : List Change} (h : r.Models ds) (hs : cs ⊆ ds) : r.Models cs :=
  fun a ha => h a (hs ha)

theorem Models.of_sameShape {cs : List Change} (h : r.Models cs) (hs : r.SameShape r') : r'.Models cs :=
  fun a ha => (hs.number a).trans (h a ha)

theorem sameShape_setNumber (n : Int) (ha : a ≠ .routerId) (h : (r.number a).isSome) :
    r.SameShape (r.setNumber a n) := by
  refine ⟨rfl, fun b => ?_, if_neg ha.symm, fun _ => rfl⟩
  unfold setNumber
  dsimp only
  split
  next hb => rw [hb, h]; rfl
  next => rfl

theorem sameShape_attach (r : Route) (c : Community) (b : Bool) : r.SameShape (r.attach c b) := by
  refine ⟨rfl, fun _ => rfl, rfl, fun d => ?_⟩
  unfold attach
  dsimp only
  split
  next hd => rw [hd, Option.isSome_map]
  next => rfl

theorem sameShape_attachAll (r : Route) (cs : List Community) (b : Bool) :
    r.SameShape (r.attachAll cs b) := by
  induction cs generalizing r with
  | nil => exact .refl r
  | cons c rest ih => exact (r.sameShape_attach c b).trans (ih _)

end Route

/-! ## §2. Modifications and joins -/

theorem mem_addOnce {α : Type} [BEq α] [LawfulBEq α] {x y : α} {set : List α} :
    x ∈ addOnce y set ↔ x = y ∨ x ∈ set := by
  unfold addOnce
  split
  next h =>
    have := List.contains_iff_mem.1 h
    exact ⟨.inr, fun h => h.elim (fun h => h ▸ this) id⟩
  next => simp [or_comm]

namespace Ground

variable {p : Param} {r : Result} {x y : Result × Param} {q q' : Progress}

theorem mem_addChanges {c : Change} {r s : Result} :
    c ∈ (r.addChanges s).changed ↔ c ∈ r.changed ∨ c ∈ s.changed := by
  show c ∈ s.changed.foldl (fun acc c => addOnce c acc) r.changed ↔ _
  induction s.changed generalizing r with
  | nil => simp
  | cons d rest ih =>
    refine (ih (r := { r with changed := addOnce d r.changed })).trans ?_
    rw [mem_addOnce, List.mem_cons, or_assoc]
    exact or_left_comm

theorem joinRoutes_true (yes no : Route) : joinRoutes true yes no = yes := by
  apply Route.ext
  · rfl
  · funext a
    show joinNumber true yes no a = yes.number a
    unfold joinNumber
    split
    · cases yes.number a <;> cases no.number a <;> rfl
    · rfl
  · rfl
  · funext c
    show (yes.carries c).map _ = yes.carries c
    cases yes.carries c <;> rfl

theorem joinRoutes_eq (g : Bool) {yes no : Route} (h : yes.SameShape no) :
    joinRoutes g yes no = if g then yes else no := by
  cases g with
  | true => exact joinRoutes_true yes no
  | false =>
    apply Route.ext
    · exact h.origin.symm
    · funext a
      have hsome := h.number a
      show joinNumber false yes no a = no.number a
      unfold joinNumber
      split
      next => cases hy : yes.number a <;> cases hn : no.number a <;> simp_all
      next hjoin =>
        have ha : a = .routerId := by cases a <;> first | rfl | exact absurd rfl hjoin
        rw [ha]
        exact h.routerId.symm
    · rfl
    · funext c
      have hsome := h.carries c
      show (yes.carries c).map _ = no.carries c
      cases hy : yes.carries c <;> cases hn : no.carries c <;> simp_all

/-! ## §3. Expressions -/

structure ExprSim (p : Param) (r : Result) (x : Result × Param) (ran : Except Failure (Bool × Route)) :
    Prop where
  keeps : x.2 = { p with route := x.2.route }
  shape : p.route.SameShape x.2.route
  void : isReturned p r → x.2.route = p.route
  live : isReturned p r = false → ran = .ok (x.1.value, x.2.route)

/-- Interpreted calls, compared with runs of them. -/
def CallSim (gcall : Caller) (call : Policy.Call) : Prop :=
  ∀ (name : Document) (p : Param) (r : Result) (x : Result × Param), gcall name p r = .ok x →
    p.route.Models x.1.changed → ExprSim p r x (call name p.scope p.route)

structure OperandsSim (isAnd : Bool) (r : Result) (q q' : Progress) (ran : Except Failure (Bool × Route)) :
    Prop where
  keeps : q'.param = { q.param with route := q'.param.route }
  shape : q.param.route.SameShape q'.param.route
  decided : q.decided isAnd → q'.value = q.value
  void : isReturned (q.inner isAnd) r → q'.param.route = q.param.route
  live : isReturned (q.inner isAnd) r = false → ran = .ok (q'.value, q'.param.route)

theorem decided_eq (q : Progress) (isAnd : Bool) : q.decided isAnd = !(q.value == isAnd) := by
  unfold Progress.decided
  cases isAnd <;> cases q.value <;> rfl

theorem isReturned_inner (q : Progress) (isAnd : Bool) (r : Result) :
    isReturned (q.inner isAnd) r = (isReturned q.param r || q.decided isAnd) := by
  unfold isReturned Progress.inner
  rw [Bool.or_right_comm]

theorem step_sim (h : q.step isAnd operand = .ok q') (hm : q.param.route.Models q'.changes.changed)
    (hop : ∀ p x, operand p = .ok x → p.route.Models x.1.changed → ExprSim p r x (f p.scope p.route)) :
    OperandsSim isAnd r q q' (f q.param.scope q.param.route) := by
  obtain ⟨x, hx, h⟩ := bind_eq_ok.1 h
  cases h
  have hsim := hop _ x hx (hm.of_subset fun c hc => mem_addChanges.2 (.inr hc))
  refine ⟨rfl, hsim.shape, fun hdec => ?_, hsim.void, fun hlive => ?_⟩
  · rw [decided_eq] at hdec
    show (if isAnd then q.value && x.1.value else q.value || x.1.value) = q.value
    cases isAnd <;> cases hv : q.value <;> simp_all
  · have hran := hsim.live hlive
    rw [isReturned_inner, decided_eq] at hlive
    refine hran.trans (congrArg (fun b => Except.ok (b, x.2.route)) ?_)
    show x.1.value = if isAnd then q.value && x.1.value else q.value || x.1.value
    cases isAnd <;> cases hv : q.value <;> simp_all

/-- More operands, which are run when those before did not decide. -/
theorem OperandsSim.trans {q₁ q₂ q₃ : Progress} (h : OperandsSim isAnd r q₁ q₂ ran)
    (h' : OperandsSim isAnd r q₂ q₃ (f q₂.param.scope q₂.param.route)) :
    OperandsSim isAnd r q₁ q₃ (ran >>= fun x =>
      if x.1 == isAnd then f q₁.param.scope x.2 else .ok x) := by
  have hscope : q₂.param.scope = q₁.param.scope := by rw [h.keeps]
  have hreturned : isReturned q₂.param r = isReturned q₁.param r := by rw [h.keeps]; rfl
  refine ⟨?_, h.shape.trans h'.shape, fun hdec => ?_, fun hvoid => ?_, fun hlive => ?_⟩
  · rw [h'.keeps, h.keeps]
  · have hvalue := h.decided hdec
    rw [← hvalue]
    apply h'.decided
    rw [decided_eq, hvalue, ← decided_eq, hdec]
  · rw [isReturned_inner, Bool.or_eq_true] at hvoid
    refine (h'.void ?_).trans (h.void (by rw [isReturned_inner, Bool.or_eq_true]; exact hvoid))
    rw [isReturned_inner, Bool.or_eq_true, hreturned]
    refine hvoid.imp_right fun hdec => ?_
    rw [decided_eq, h.decided hdec, ← decided_eq, hdec]
  · rw [h.live hlive, ok_bind]
    rw [isReturned_inner, Bool.or_eq_false_iff] at hlive
    split
    next hsame =>
      rw [← hscope]
      apply h'.live
      rw [isReturned_inner, hreturned, hlive.1, decided_eq, hsame]
      rfl
    next hdiff =>
      have hdec : q₂.decided isAnd := by rw [decided_eq, Bool.eq_false_iff.2 hdiff]; rfl
      rw [h'.decided hdec, h'.void (by rw [isReturned_inner, hdec, Bool.or_true])]

theorem OperandsSim.refl (isAnd : Bool) (r : Result) (q : Progress) :
    OperandsSim isAnd r q q (.ok (isAnd, q.param.route)) := by
  refine ⟨rfl, .refl _, fun _ => rfl, fun _ => rfl, fun hlive => ?_⟩
  rw [isReturned_inner, Bool.or_eq_false_iff, decided_eq] at hlive
  have hvalue : q.value = isAnd := by simpa using hlive.2
  rw [hvalue]

theorem OperandsSim.toExpr {p p₀ : Param} (h : OperandsSim isAnd r (.start isAnd p₀) q ran)
    (hroute : p₀.route = p.route) (hret : p₀.returned = p.returned) :
    ExprSim p r (q.finish, { p with route := q.param.route }) ran := by
  have hflag : isReturned ((Progress.start isAnd p₀).inner isAnd) r = isReturned p r := by
    rw [isReturned_inner, decided_eq]
    show (isReturned p₀ r || !(isAnd == isAnd)) = _
    rw [beq_self_eq_true, Bool.not_true, Bool.or_false]
    unfold isReturned
    rw [hret]
  refine ⟨rfl, hroute ▸ h.shape, fun hvoid => ?_, fun hlive => h.live (hflag.trans hlive)⟩
  rw [← hroute]
  exact h.void (hflag.trans hvoid)

theorem OperandsSim.toJunction (h : OperandsSim isAnd r (.start isAnd p) q ran) :
    ExprSim p r (q.finish, q.param) ran := by
  have hkeeps : q.param = { p with route := q.param.route } := h.keeps
  have hexpr := h.toExpr (p := p) rfl rfl
  rwa [← hkeeps] at hexpr

theorem step_changed : Yields (q.step isAnd operand) fun q' => q.changes.changed ⊆ q'.changes.changed :=
  .after fun _ => .ok fun _ hc => mem_addChanges.2 (.inl hc)

theorem sequence_changed {s : Setting} {gcall : Caller} {es : List BoolExpr} :
    Yields (sequence s gcall isAnd es r q) fun q' => q.changes.changed ⊆ q'.changes.changed := by
  induction es generalizing q with
  | nil => exact .ok (List.Subset.refl _)
  | cons e rest ih => exact .bind step_changed fun _ h₁ q' hq' => List.Subset.trans h₁ (ih q' hq')

theorem endChain_changed {gcall : Caller} {policy : Option Document} :
    Yields (endChain gcall isAnd policy r q) fun q' => q.changes.changed ⊆ q'.changes.changed := by
  cases policy with
  | none => exact .ok (List.Subset.refl _)
  | some name =>
    show Yields (q.step isAnd fun p => gcall name p r) _
    exact step_changed

/-- A condition that modifies nothing. -/
theorem ExprSim.ofExpr (p : Param) (r : Result) (b : Bool) :
    ExprSim p r (.ofExpr b, p) (.ok (b, p.route)) :=
  ⟨rfl, .refl _, fun _ => rfl, fun _ => rfl⟩

variable {s : Setting} {gcall : Caller} {call : Policy.Call}

section

variable (hcall : CallSim gcall call)
include hcall

theorem endChain_sim {policy : Option Document} {q₀ q q' : Progress} (h₀ : OperandsSim isAnd r q₀ q ran)
    (h : endChain gcall isAnd policy r q = .ok q') (hm : q.param.route.Models q'.changes.changed) :
    OperandsSim isAnd r q₀ q' (ran >>= Policy.endChain call isAnd policy q₀.param.scope) := by
  cases policy with
  | none =>
    cases h
    have hbind : (ran >>= Policy.endChain call isAnd none q₀.param.scope) = ran := by cases ran <;> rfl
    rw [hbind]
    exact h₀
  | some name =>
    have h : q.step isAnd (fun p => gcall name p r) = .ok q' := h
    exact h₀.trans (step_sim h hm fun p x hx hm => hcall name p r x hx hm)

theorem chain_sim {es : List BoolExpr}
    (hes : ∀ (r : Result) (q q' : Progress), sequence s gcall isAnd es r q = .ok q' →
      q.param.route.Models q'.changes.changed →
      OperandsSim isAnd r q q' (Policy.evalUntil s call isAnd es q.param.scope q.param.route))
    (h : (do
      if es.isEmpty && p.scope.defaultPolicy.isNone then return (.ofExpr true, p)
      else
        let q ← sequence s gcall isAnd es r (.start isAnd (enterChain p isAnd))
        let q ← endChain gcall isAnd p.scope.defaultPolicy r q
        return (q.finish, { p with route := q.param.route })) = Except.ok x)
    (hm : p.route.Models x.1.changed) :
    ExprSim p r x (do
      if es.isEmpty && p.scope.defaultPolicy.isNone then return (true, p.route)
      else
        let before ← Policy.evalUntil s call isAnd es (p.scope.enterChain isAnd) p.route
        Policy.endChain call isAnd p.scope.defaultPolicy (p.scope.enterChain isAnd) before) := by
  split at h
  next hempty =>
    cases h
    rw [if_pos hempty]
    exact .ofExpr p r true
  next hempty =>
    obtain ⟨q, hq, h⟩ := bind_eq_ok.1 h
    obtain ⟨q', hq', h⟩ := bind_eq_ok.1 h
    cases h
    rw [if_neg hempty]
    have hsim := hes r _ q hq (hm.of_subset (endChain_changed q' hq'))
    exact (endChain_sim hcall hsim hq' (hm.of_sameShape hsim.shape)).toExpr rfl rfl

end

mutual
/-- **An interpreted expression has the value of its run**, and void ones leave the route alone. -/
theorem expr_sim (hcall : CallSim gcall call) (e : BoolExpr) {p : Param} {r : Result} {x : Result × Param}
    (h : expr s gcall e p r = .ok x) (hm : p.route.Models x.1.changed) :
    ExprSim p r x (Policy.eval s call e p.scope p.route) := by
  match e with
  | .matchIpv4 | .matchIpv6 | .matchPrefix6Set _ | .const _ | .inExprCall | .inStatementCall
  | .matchProtocol _ | .matchForeignProtocol _ =>
    cases h
    exact .ofExpr p r _
  | .conj es | .disj es =>
    obtain ⟨q, hq, h⟩ := bind_eq_ok.1 h
    cases h
    exact (sequence_sim hcall _ es hq hm).toJunction
  | .conjChain es | .disjChain es =>
    exact chain_sim hcall (fun r q q' hq hm => sequence_sim hcall _ es hq hm) h hm
  | .not e =>
    obtain ⟨⟨v, p'⟩, hv, h⟩ := bind_eq_ok.1 h
    cases h
    have hsim := expr_sim hcall e hv hm
    refine ⟨hsim.keeps, hsim.shape, hsim.void, fun hlive => ?_⟩
    show (Policy.eval s call e p.scope p.route >>= _) = _
    rw [hsim.live hlive]
    rfl
  | .matchPrefixSet set | .matchCommunitySet set =>
    obtain ⟨b, hb, h⟩ := bind_eq_ok.1 h
    cases h
    exact ⟨rfl, .refl _, fun _ => rfl, fun _ => bind_eq_ok.2 ⟨b, hb, rfl⟩⟩
  | .call policy => exact hcall policy p r x h hm
  | .withEnvironment e => exact expr_sim hcall e h hm
  | .foreign _ cause => exact absurd h (by simp [expr])

theorem sequence_sim (hcall : CallSim gcall call) (isAnd : Bool) (es : List BoolExpr) {r : Result}
    {q q' : Progress} (h : sequence s gcall isAnd es r q = .ok q') (hm : q.param.route.Models q'.changes.changed) :
    OperandsSim isAnd r q q' (Policy.evalUntil s call isAnd es q.param.scope q.param.route) := by
  match es with
  | [] =>
    cases h
    exact .refl isAnd r q
  | e :: rest =>
    obtain ⟨q₁, h₁, h⟩ := bind_eq_ok.1 h
    have hsim := step_sim h₁ (hm.of_subset (sequence_changed q' h)) fun p x hx hm =>
      expr_sim hcall e hx hm
    exact hsim.trans (f := Policy.evalUntil s call isAnd rest)
      (sequence_sim hcall isAnd rest h (hm.of_sameShape hsim.shape))
end

/-! ## §4. Statements -/

structure StatementSim (p : Param) (r : Result) (x : Result × Param) (ran : Except Failure Policy.State) :
    Prop where
  returned : x.2.returned = p.returned
  shape : p.route.SameShape x.2.route
  /-- A verdict stays. -/
  assigned : r.assigned → x.1.assigned ∧ x.1.value = r.value
  void : isReturned p r → x.2.route = p.route
  live : isReturned p r = false → ∃ after : Policy.State, ran = .ok after ∧
    after.verdict = (if x.1.assigned then some x.1.value else none) ∧ after.route = x.2.route ∧
      (x.1.assigned = false → after.scope = x.2.scope)

/-- A statement that modifies the route, by `change`. -/
theorem StatementSim.modify {changed : List Change} {route after : Route} (hshape : p.route.SameShape route)
    (hroute : route = if isReturned p r then p.route else after) :
    StatementSim p r ({ r with changed }, { p with route }) (.ok ⟨none, p.scope, after⟩) := by
  refine ⟨rfl, hshape, fun h => ⟨h, rfl⟩, fun h => hroute.trans (if_pos h), fun h => ⟨_, rfl, ?_, ?_, fun _ => rfl⟩⟩
  · have : r.assigned = false := (Bool.or_eq_false_iff.1 h).2
    simp [this]
  · exact (hroute.trans (if_neg (by simp [h]))).symm

theorem StatementSim.setting (scope : Scope) :
    StatementSim p r (r, { p with scope }) (.ok ⟨none, scope, p.route⟩) := by
  refine ⟨rfl, .refl _, fun h => ⟨h, rfl⟩, fun _ => rfl, fun h => ⟨_, rfl, ?_, rfl, fun _ => rfl⟩⟩
  have : r.assigned = false := (Bool.or_eq_false_iff.1 h).2
  simp [this]

theorem StatementSim.verdict (accept : Bool) :
    StatementSim p r (giveVerdict r accept, p) (.ok ⟨some accept, p.scope, p.route⟩) := by
  refine ⟨rfl, .refl _, fun h => ⟨rfl, ?_⟩, fun _ => rfl, fun h => ⟨_, rfl, ?_, rfl, fun _ => rfl⟩⟩
  · simp [giveVerdict, h]
  · have : r.assigned = false := (Bool.or_eq_false_iff.1 h).2
    simp [giveVerdict, this]

theorem simple_sim {kind : SimpleStatement} (h : simple kind p r = .ok x) :
    StatementSim p r x (Policy.runSimple .threaded kind p.scope p.route) := by
  cases kind with
  | exitAccept | returnTrue | exitReject | returnFalse | returnLocalDefaultAction =>
    cases h
    exact .verdict _
  | setDefaultActionAccept | setDefaultActionReject | setLocalDefaultActionAccept
  | setLocalDefaultActionReject | finish =>
    cases h
    exact .setting _
  | fallThrough =>
    unfold simple at h
    unfold Policy.runSimple
    cases hc : p.scope.chainContext <;> rw [hc] at h
    · cases h
    all_goals
      cases h
      exact .verdict _

theorem setNumber_sim {n : Int} {ran : Except Failure Policy.State} (ha : a ≠ .routerId)
    (hm : p.route.Models (setNumber s p r a n).1.changed) (hran : ran = .ok ⟨none, p.scope, p.route.setNumber a n⟩) :
    StatementSim p r (setNumber s p r a n) ran := by
  have hsome : (p.route.number a).isSome := hm a (mem_addOnce.2 (.inl rfl))
  obtain ⟨old, hold⟩ := Option.isSome_iff_exists.1 hsome
  rw [hran]
  refine StatementSim.modify (Route.sameShape_setNumber _ ha hsome) ?_
  have hnum : s.numberOf p.route a = old := by simp [Setting.numberOf, hold]
  split
  next => rw [hnum, Route.setNumber_self hold]
  next => rfl

theorem attach_sim (p : Param) (r : Result) (c : Community) (b : Bool) :
    (attach p r c b).2 = { p with route := if isReturned p r then p.route else p.route.attach c b } ∧
      (attach p r c b).1.value = r.value ∧ (attach p r c b).1.assigned = r.assigned := by
  unfold attach
  cases hc : p.route.carries c with
  | none =>
    have hsame : p.route.attach c b = p.route := by
      unfold Route.attach
      congr 1
      funext d
      split
      next hd => rw [hd, hc]; rfl
      next => rfl
    simp [hsame]
  | some old =>
    refine ⟨?_, rfl, rfl⟩
    dsimp only
    split
    next => rw [Route.attach_self hc]
    next => rfl

theorem attachAll_eq (b : Bool) (cs : List Community) (p : Param) (r : Result) :
    (attachAll b cs p r).2 = { p with route := if isReturned p r then p.route else p.route.attachAll cs b } ∧
      (attachAll b cs p r).1.value = r.value ∧ (attachAll b cs p r).1.assigned = r.assigned := by
  unfold attachAll Route.attachAll
  induction cs generalizing p r with
  | nil => simp
  | cons c rest ih =>
    obtain ⟨hp, hv, ha⟩ := attach_sim p r c b
    obtain ⟨ihp, ihv, iha⟩ := ih (attach p r c b).2 (attach p r c b).1
    have hret : isReturned (attach p r c b).2 (attach p r c b).1 = isReturned p r := by
      unfold isReturned
      rw [ha, hp]
    refine ⟨ihp.trans ?_, ihv.trans hv, iha.trans ha⟩
    rw [hret, hp]
    cases isReturned p r <;> rfl

theorem attachAll_sim {cs : List Community} {b : Bool} {ran : Except Failure Policy.State}
    (hran : ran = .ok ⟨none, p.scope, p.route.attachAll cs b⟩) : StatementSim p r (attachAll b cs p r) ran := by
  obtain ⟨hp, hv, ha⟩ := attachAll_eq b cs p r
  have hx : attachAll b cs p r = ({ r with changed := (attachAll b cs p r).1.changed },
      { p with route := if isReturned p r then p.route else p.route.attachAll cs b }) := by
    rw [← hp, ← hv, ← ha]
  rw [hx, hran]
  refine StatementSim.modify ?_ rfl
  split
  · exact .refl _
  · exact p.route.sameShape_attachAll cs b

/-- More statements, which are run when those before gave no verdict. -/
theorem StatementSim.trans {p p₁ : Param} {r r₁ : Result} {x : Statement} {rest : List Statement}
    (h : StatementSim p r (r₁, p₁) (Policy.run .threaded s call x p.scope p.route))
    (h' : StatementSim p₁ r₁ y (Policy.runAll .threaded s call rest p₁.scope p₁.route)) :
    StatementSim p r y (Policy.runAll .threaded s call (x :: rest) p.scope p.route) := by
  have hreturned : p₁.returned = p.returned := h.returned
  refine ⟨h'.returned.trans h.returned, h.shape.trans h'.shape, fun ha => ?_, fun hvoid => ?_, fun hlive => ?_⟩
  · obtain ⟨ha₁, hv₁⟩ := h.assigned ha
    obtain ⟨ha₂, hv₂⟩ := h'.assigned ha₁
    exact ⟨ha₂, hv₂.trans hv₁⟩
  · refine (h'.void ?_).trans (h.void hvoid)
    unfold isReturned at hvoid ⊢
    rw [hreturned, Bool.or_eq_true]
    exact (Bool.or_eq_true _ _ ▸ hvoid).imp_right fun ha => (h.assigned ha).1
  · obtain ⟨after, hran, hverdict, hroute, hscope⟩ := h.live hlive
    have hrun : Policy.runAll .threaded s call (x :: rest) p.scope p.route =
        if after.verdict.isSome then .ok after
        else Policy.runAll .threaded s call rest after.scope after.route := by
      show (Policy.run .threaded s call x p.scope p.route >>= _) = _
      rw [hran]
      rfl
    rw [hrun, hverdict]
    cases ha : r₁.assigned with
    | true =>
      -- the verdict of `x` ends the run, and voids the rest
      obtain ⟨ha₂, hv₂⟩ := h'.assigned ha
      refine ⟨after, rfl, ?_, ?_, fun hno => ?_⟩
      · rw [hverdict, ha, ha₂, hv₂]
      · rw [hroute]
        exact (h'.void (by simp [isReturned, ha])).symm
      · rw [ha₂] at hno
        cases hno
    | false =>
      have hlive' : isReturned p₁ r₁ = false := by
        have := (Bool.or_eq_false_iff.1 hlive).1
        simp [isReturned, ha, hreturned, this]
      rw [hscope ha, hroute]
      exact h'.live hlive'

theorem attach_changed (p : Param) (r : Result) (c : Community) (b : Bool) :
    r.changed ⊆ (attach p r c b).1.changed := by
  unfold attach
  cases p.route.carries c with
  | none => exact List.Subset.refl _
  | some old => exact fun d hd => mem_addOnce.2 (.inr hd)

theorem attachAll_changed (b : Bool) (cs : List Community) (p : Param) (r : Result) :
    r.changed ⊆ (attachAll b cs p r).1.changed := by
  induction cs generalizing p r with
  | nil => exact List.Subset.refl _
  | cons c rest ih => exact List.Subset.trans (attach_changed p r c b) (ih _ _)

theorem simple_keeps {kind : SimpleStatement} :
    Yields (simple kind p r) fun x => x.1.changed = r.changed ∧ x.2.route = p.route := by
  cases kind with
  | fallThrough =>
    unfold simple
    dsimp only
    split
    · exact .ok ⟨rfl, rfl⟩
    · exact .ok ⟨rfl, rfl⟩
    · exact .error
  | _ => exact .ok ⟨rfl, rfl⟩

theorem statement_changed (x : Statement) : Yields (statement s gcall x p r) fun y => r.changed ⊆ y.1.changed := by
  cases x with
  | simple kind => exact fun y h => (simple_keeps y h).1 ▸ List.Subset.refl _
  | cond guard yes no =>
    exact .after fun _ => .after fun _ => .after fun _ => .ok fun c hc =>
      mem_addChanges.2 (.inl (mem_addChanges.2 (.inl (mem_addChanges.2 (.inl hc)))))
  | setDefaultPolicy _ | retainCommunity _ | setOrigin _ => exact .ok (List.Subset.refl _)
  | setOspfType _ => exact .ok fun c hc => mem_addOnce.2 (.inr hc)
  | setMetric _ | setLocalPref _ => exact .after fun _ => .ok fun c hc => mem_addOnce.2 (.inr hc)
  | prependAsPath _ => exact .after fun _ => .after fun _ => .ok fun c hc => mem_addOnce.2 (.inr hc)
  | addCommunity _ | deleteCommunity _ => exact .after fun cs => .ok (attachAll_changed _ cs p r)
  | setForeignOspfType _ | «foreign» _ _ => exact .error

theorem statements_changed (body : List Statement) :
    Yields (statements s gcall body p r) fun y => r.changed ⊆ y.1.changed := by
  induction body generalizing p r with
  | nil => exact .ok (List.Subset.refl _)
  | cons x rest ih => exact .bind (statement_changed x) fun _ h₁ y hy => List.Subset.trans h₁ (ih y hy)

theorem cond_sim {guard : BoolExpr} {yes no : List Statement} {p p₁ : Param} {r g rYes rNo : Result}
    {pYes pNo : Param} (hguard : ExprSim p r (g, p₁) (Policy.eval s call guard p.scope p.route))
    (hyes : StatementSim p₁ (r.addChanges g) (rYes, pYes) (Policy.runAll .threaded s call yes p₁.scope p₁.route))
    (hno : StatementSim p₁ (r.addChanges g) (rNo, pNo) (Policy.runAll .threaded s call no p₁.scope p₁.route)) :
    StatementSim p r (joinResults g.value (r.addChanges g) rYes rNo,
        { p₁ with route := joinRoutes g.value pYes.route pNo.route })
      (Policy.run .threaded s call (.cond guard yes no) p.scope p.route) := by
  have hkeeps : p₁ = { p with route := p₁.route } := hguard.keeps
  have hflag : isReturned p₁ (r.addChanges g) = isReturned p r := by rw [hkeeps]; rfl
  have hscope : p₁.scope = p.scope := by rw [hkeeps]
  -- the branch that is taken
  obtain ⟨rB, pB, branch, hB, hassigned, hvalue, hroute, hbranch⟩ : ∃ (rB : Result) (pB : Param)
      (branch : List Statement),
      StatementSim p₁ (r.addChanges g) (rB, pB) (Policy.runAll .threaded s call branch p₁.scope p₁.route) ∧
        (joinResults g.value (r.addChanges g) rYes rNo).assigned = rB.assigned ∧
        (joinResults g.value (r.addChanges g) rYes rNo).value = rB.value ∧
        joinRoutes g.value pYes.route pNo.route = pB.route ∧
        (isReturned p r = false → Policy.run .threaded s call (.cond guard yes no) p.scope p.route =
          (Policy.runAll .threaded s call branch p.scope p₁.route >>= fun after =>
            .ok { after with scope := p.scope })) := by
    have hjoin := joinRoutes_eq g.value (hyes.shape.symm.trans hno.shape)
    cases hg : g.value <;> rw [hg] at hjoin
    · refine ⟨rNo, pNo, no, hno, rfl, rfl, hjoin, fun hlive => ?_⟩
      rw [Policy.run, hguard.live hlive, hg]
      rfl
    · refine ⟨rYes, pYes, yes, hyes, rfl, rfl, hjoin, fun hlive => ?_⟩
      rw [Policy.run, hguard.live hlive, hg]
      rfl
  rw [hroute]
  refine ⟨by rw [hkeeps], hguard.shape.trans hB.shape, fun h => ?_, fun h => ?_, fun h => ?_⟩
  · obtain ⟨ha, hv⟩ := hB.assigned h
    exact ⟨hassigned.trans ha, hvalue.trans hv⟩
  · exact (hB.void (hflag.trans h)).trans (hguard.void h)
  · obtain ⟨after, hran, hverdict, hafter, -⟩ := hB.live (hflag.trans h)
    refine ⟨{ after with scope := p.scope }, ?_, ?_, hafter, fun _ => hscope.symm⟩
    · rw [hbranch h, ← hscope, hran]
      rfl
    · rw [hverdict, hassigned, hvalue]

mutual
/-- **Interpreted statements do what a run of them does**: a verdict stays, and void statements leave the
route alone. -/
theorem statement_sim (hcall : CallSim gcall call) (x : Statement) {p : Param} {r : Result} {y : Result × Param}
    (h : statement s gcall x p r = .ok y) (hm : p.route.Models y.1.changed) :
    StatementSim p r y (Policy.run .threaded s call x p.scope p.route) := by
  match x with
  | .simple kind => exact simple_sim h
  | .cond guard yes no =>
    obtain ⟨⟨g, p₁⟩, hg, h⟩ := bind_eq_ok.1 h
    obtain ⟨⟨rYes, pYes⟩, hyes, h⟩ := bind_eq_ok.1 h
    obtain ⟨⟨rNo, pNo⟩, hno, h⟩ := bind_eq_ok.1 h
    cases h
    have hguard := expr_sim hcall guard hg (hm.of_subset fun c hc =>
      mem_addChanges.2 (.inl (mem_addChanges.2 (.inl (mem_addChanges.2 (.inr hc))))))
    have hm := hm.of_sameShape hguard.shape
    refine cond_sim hguard (statements_sim hcall yes hyes (hm.of_subset fun c hc => ?_))
      (statements_sim hcall no hno (hm.of_subset fun c hc => ?_))
    · exact mem_addChanges.2 (.inl (mem_addChanges.2 (.inr hc)))
    · exact mem_addChanges.2 (.inr hc)
  | .setDefaultPolicy policy =>
    cases h
    exact .setting _
  | .setMetric e | .setLocalPref e =>
    obtain ⟨n, hn, h⟩ := bind_eq_ok.1 h
    cases h
    exact setNumber_sim (by decide) hm (bind_eq_ok.2 ⟨n, hn, rfl⟩)
  | .setOspfType type =>
    cases h
    refine StatementSim.modify ⟨rfl, fun _ => rfl, rfl, fun _ => rfl⟩ ?_
    split <;> rfl
  | .setForeignOspfType c => exact absurd h (by simp [statement])
  | .addCommunity set | .deleteCommunity set =>
    obtain ⟨cs, hcs, h⟩ := bind_eq_ok.1 h
    cases h
    exact attachAll_sim (bind_eq_ok.2 ⟨cs, hcs, rfl⟩)
  | .prependAsPath path =>
    obtain ⟨d, hd, h⟩ := bind_eq_ok.1 h
    obtain ⟨n, hn, h⟩ := bind_eq_ok.1 h
    cases h
    exact setNumber_sim (by decide) hm (bind_eq_ok.2 ⟨d, hd, bind_eq_ok.2 ⟨n, hn, rfl⟩⟩)
  | .retainCommunity _ | .setOrigin _ =>
    cases h
    exact .setting _
  | .foreign _ cause => exact absurd h (by simp [statement])

theorem statements_sim (hcall : CallSim gcall call) (body : List Statement) {p : Param} {r : Result}
    {y : Result × Param}
    (h : statements s gcall body p r = .ok y) (hm : p.route.Models y.1.changed) :
    StatementSim p r y (Policy.runAll .threaded s call body p.scope p.route) := by
  match body with
  | [] =>
    cases h
    exact .setting _
  | x :: rest =>
    obtain ⟨⟨r₁, p₁⟩, h₁, h⟩ := bind_eq_ok.1 h
    have hfirst := statement_sim hcall x h₁ (hm.of_subset (statements_changed rest y h))
    have hrest := statements_sim hcall rest h (hm.of_sameShape hfirst.shape)
    exact hfirst.trans hrest
end

/-! ## §5. Policies -/

/-- **An interpreted policy gives the verdict and the route of its run**, unless it is void. -/
theorem body_sim (hcall : CallSim gcall call) {policy : List Statement} (h : body s gcall policy p = .ok x)
    (hm : p.route.Models x.1.changed) :
    p.route.SameShape x.2.route ∧ (p.returned → x.2.route = p.route) ∧
      (p.returned = false →
        Policy.runPolicy .threaded s call policy p.scope p.route = .ok (x.1.value, x.2.route)) := by
  obtain ⟨⟨r, after⟩, hr, h⟩ := bind_eq_ok.1 h
  cases h
  have hsim := statements_sim hcall policy hr hm
  have hflag : isReturned p {} = p.returned := Bool.or_false _
  refine ⟨hsim.shape, fun hvoid => hsim.void (hflag.trans hvoid), fun hlive => ?_⟩
  obtain ⟨st, hran, hverdict, hroute, hscope⟩ := hsim.live (hflag.trans hlive)
  show (Policy.runAll .threaded s call policy p.scope p.route >>= _) = _
  rw [hran]
  refine congrArg Except.ok (Prod.ext ?_ hroute)
  show st.verdict.getD st.scope.defaultAccept = if r.assigned then r.value else after.scope.defaultAccept
  rw [hverdict]
  cases ha : r.assigned with
  | true => rfl
  | false => simp [hscope ha]

theorem callPolicy_sim (s : Setting) (depth : Nat) :
    CallSim (callPolicy s depth) (Policy.callNamed .threaded s depth) := by
  induction depth with
  | zero => exact fun _ _ _ _ h _ => absurd h (by simp [callPolicy])
  | succ depth ih =>
    intro name p r x h hm
    obtain ⟨policy, hpolicy, h⟩ := bind_eq_ok.1 h
    obtain ⟨⟨value, after⟩, hbody, h⟩ := bind_eq_ok.1 h
    cases h
    obtain ⟨hshape, hvoid, hlive⟩ := body_sim ih hbody hm
    refine ⟨rfl, hshape, hvoid, fun h => ?_⟩
    show (s.router.policy name >>= _) = _
    rw [hpolicy]
    exact hlive h

end Ground

end ControlPlane
