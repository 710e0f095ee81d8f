import ControlPlane.Proofs.Ledger.Run

/-!
# What a computation adds to a ledger

The judgement `Emits` is for computations that only bind new variables to terms: a valuation that
satisfies what was added gives the result the value that it should have, and every valuation can be
changed at the new variables so that it satisfies what was added.
-/
namespace ControlPlane

open Build

/-! ## §1. Satisfied ledgers -/

def Valuation.Satisfies (v : Valuation) (l : Ledger) : Prop := ∀ c ∈ l.required, c.eval v

instance (v : Valuation) (l : Ledger) : Decidable (v.Satisfies l) :=
  inferInstanceAs (Decidable (∀ c ∈ l.required, c.eval v))

/-- What holds of the value of a computation can be decided, if it can be for all values. -/
instance decidableExistsOk {ε α : Type} {p : α → Prop} [DecidablePred p] (x : Except ε α) :
    Decidable (∃ a, x = .ok a ∧ p a) :=
  match x with
  | .ok a => decidable_of_iff (p a) ⟨fun h => ⟨a, rfl, h⟩, fun ⟨_, hb, h⟩ => Except.ok.inj hb ▸ h⟩
  | .error _ => .isFalse fun ⟨_, h, _⟩ => nomatch h

instance decidableForallOk {ε α : Type} {p : α → Prop} [DecidablePred p] (x : Except ε α) :
    Decidable (∀ a, x = .ok a → p a) :=
  match x with
  | .ok a => decidable_of_iff (p a) ⟨fun h _ hb => Except.ok.inj hb ▸ h, fun h => h a rfl⟩
  | .error _ => .isTrue nofun

def Valuation.SatisfiesSince (v : Valuation) (l l' : Ledger) : Prop :=
  ∀ c ∈ l.since l', c.eval v

namespace Valuation

theorem satisfiesSince_self (v : Valuation) (l : Ledger) : v.SatisfiesSince l l := by
  intro c hc
  rw [Ledger.since_self] at hc
  cases hc

theorem satisfiesSince_trans {v : Valuation} {l l' l'' : Ledger} (h : l.Grows l')
    (h' : l'.Grows l'') :
    v.SatisfiesSince l l'' ↔ v.SatisfiesSince l l' ∧ v.SatisfiesSince l' l'' := by
  unfold SatisfiesSince
  rw [Ledger.since_trans h h']
  exact List.forall_mem_append

end Valuation

namespace Ledger

theorem about_self (l : Ledger) : ∀ c ∈ l.since l, c.Over l.vars := by
  rw [since_self]
  exact nofun

/-- What is added in two steps is about declared variables if both parts are. -/
theorem about_trans {l l' l'' : Ledger} (h : l.Grows l') (h' : l'.Grows l'') (ha : ∀ c ∈ l.since l', c.Over l'.vars)
    (ha' : ∀ c ∈ l'.since l'', c.Over l''.vars) : ∀ c ∈ l.since l'', c.Over l''.vars := by
  rw [since_trans h h', List.forall_mem_append]
  exact ⟨fun c hc => (ha c hc).mono h'.vars.subset, ha'⟩

end Ledger

/-! ## §2. Values of results -/

/-- Results that are made of terms: when they are well formed, the variables they are over, and their
values. -/
class Valued (α : Type) (β : outParam Type) where
  Fit : α → Prop
  Over : List Variable → α → Prop
  under : Valuation → α → β
  over_mono : ∀ {xs ys : List Variable} {a : α}, xs ⊆ ys → Over xs a → Over ys a

instance {ty : Ty} : Valued (Term ty) ty.Carrier where
  Fit _ := True
  Over xs t := t.Over xs
  under v t := t.eval v
  over_mono hs h := h.mono hs

instance {α β γ δ : Type} [Valued α γ] [Valued β δ] : Valued (α × β) (γ × δ) where
  Fit p := Valued.Fit p.1 ∧ Valued.Fit p.2
  Over xs p := Valued.Over xs p.1 ∧ Valued.Over xs p.2
  under v p := (Valued.under v p.1, Valued.under v p.2)
  over_mono hs h := ⟨Valued.over_mono hs h.1, Valued.over_mono hs h.2⟩

/-! ## §3. Computations that define variables -/

/-- What a run of a defining computation guarantees.  Where `closed` holds, the inputs of the computation
are over declared variables, and then so is all that comes out of it. -/
structure Emission {α β : Type} [Valued α β] (closed : Prop) (value : Valuation → Except Failure β)
    (l l' : Ledger) (x : α) : Prop where
  grows : l.Grows l'
  fit : Valued.Fit x
  /-- What was added fixes the result. -/
  sound : ∀ v : Valuation, v.SatisfiesSince l l' → value v = .ok (Valued.under v x)
  scope : closed → Valued.Over l'.vars x
  about : closed → ∀ c ∈ l.since l', c.Over l'.vars
  /-- What was added only defines the new variables. -/
  complete : closed → l'.Distinct → ∀ v : Valuation,
    ∃ w : Valuation, v.AgreesOn w l.vars ∧ w.SatisfiesSince l l'

/-- Run on a ledger that declares `xs`, a computation only defines new variables, and its result has the
value that `value` says. -/
def Emits {α β : Type} [Valued α β] (closed : Prop) (xs : List Variable) (b : Build α)
    (value : Valuation → Except Failure β) : Prop :=
  ∀ (l : Ledger) (x : α) (l' : Ledger), (closed → xs ⊆ l.vars) → b.runOn l = (.ok x, l') →
    Emission closed value l l' x

namespace Emits

variable {α β γ δ : Type} [Valued α γ] [Valued β δ] {closed : Prop} {xs : List Variable} {b : Build α}

/-- A result that needs no new variable. -/
theorem pure {x : α} {value : Valuation → Except Failure γ} (hfit : Valued.Fit x)
    (hx : closed → Valued.Over xs x) (hv : ∀ v, value v = .ok (Valued.under v x)) :
    Emits closed xs (Pure.pure x) value := by
  intro l y l' hl hrun
  obtain ⟨rfl, rfl⟩ := runOn_pure_ok.1 hrun
  exact ⟨.refl l, hfit, fun v _ => hv v, fun hq => Valued.over_mono (hl hq) (hx hq), fun _ => l.about_self, fun _ _ v =>
    ⟨v, .refl v _, v.satisfiesSince_self l⟩⟩

theorem throw {f : Failure} {value : Valuation → Except Failure γ} :
    Emits closed xs (MonadExcept.throw f : Build α) value :=
  fun _ _ _ _ hrun => absurd hrun runOn_throw_ok

/-- A part that depends on no variable. -/
theorem lift {ε : Type} {e : Except Failure ε} {f : ε → Build β} {value : Valuation → Except Failure δ}
    (h : ∀ y, e = .ok y → Emits closed xs (f y) value) : Emits closed xs (liftM e >>= f) value := by
  intro l x l' hl hrun
  obtain ⟨y, l₁, hy, hrun⟩ := runOn_bind_ok.1 hrun
  obtain ⟨he, rfl⟩ := runOn_lift_ok.1 hy
  exact h y he l x l' hl hrun

/-- **One defining computation after another is a defining computation.**  The second may rely on what
every result of the first has. -/
theorem bindWith {P : α → Prop} {f : α → Build β} {B : Valuation → Except Failure γ}
    {F : Valuation → γ → Except Failure δ} (hb : Emits closed xs b B)
    (hP : ∀ l x l', b.runOn l = (.ok x, l') → P x)
    (hf : ∀ (x : α) (ys : List Variable), xs ⊆ ys → P x → Valued.Fit x → (closed → Valued.Over ys x) →
      Emits closed ys (f x) fun v => F v (Valued.under v x)) :
    Emits closed xs (b >>= f) fun v => B v >>= F v := by
  intro l y l'' hl hrun
  obtain ⟨x, l', hx, hy⟩ := runOn_bind_ok.1 hrun
  have h := hb l x l' hl hx
  have hsub : l.vars ⊆ l'.vars := h.grows.vars.subset
  have h' := hf x (xs ++ l'.vars) (List.subset_append_left _ _) (hP l x l' hx) h.fit
    (fun hq => Valued.over_mono (List.subset_append_right _ _) (h.scope hq)) l' y l''
    (fun hq => List.append_subset.2 ⟨fun _ hz => hsub (hl hq hz), fun _ hz => hz⟩) hy
  refine ⟨h.grows.trans h'.grows, h'.fit, ?_, h'.scope,
    fun hq => Ledger.about_trans h.grows h'.grows (h.about hq) (h'.about hq), ?_⟩
  · intro v hv
    obtain ⟨hv₁, hv₂⟩ := (Valuation.satisfiesSince_trans h.grows h'.grows).1 hv
    rw [h.sound v hv₁]
    exact h'.sound v hv₂
  · intro hq hd v
    -- first the variables of `b`, then those of `f x`, which what `b` added is not about
    obtain ⟨w, hvw, hw⟩ := h.complete hq (hd.of_grows h'.grows) v
    obtain ⟨u, hwu, hu⟩ := h'.complete hq hd w
    refine ⟨u, hvw.trans (hwu.mono hsub), (Valuation.satisfiesSince_trans h.grows h'.grows).2 ⟨?_, hu⟩⟩
    intro c hc
    rw [← (h.about hq c hc).eval_eq w u hwu]
    exact hw c hc

theorem bind {f : α → Build β} {B : Valuation → Except Failure γ}
    {F : Valuation → γ → Except Failure δ} (hb : Emits closed xs b B)
    (hf : ∀ (x : α) (ys : List Variable), xs ⊆ ys → Valued.Fit x → (closed → Valued.Over ys x) →
      Emits closed ys (f x) fun v => F v (Valued.under v x)) :
    Emits closed xs (b >>= f) fun v => B v >>= F v :=
  bindWith hb (P := fun _ => True) (fun _ _ _ _ => trivial) fun x ys hs _ => hf x ys hs

theorem congr {value value' : Valuation → Except Failure γ}
    (hb : Emits closed xs b value) (h : ∀ v, value v = value' v) : Emits closed xs b value' := by
  have e : value = value' := funext h
  exact e ▸ hb

end Emits

end ControlPlane
