import ControlPlane.Proofs.Ledger.Emission

/-!
# What a computation demands

Transfers do two things to a ledger: they define variables, and they require terms about the variables that
are already there.  The judgement `Demands` is for such computations.  A valuation that satisfies what was
added has the property that is demanded, and one that has the property can be changed at the new variables so
that it satisfies what was added.

Properties are only ever about the old variables (`Valuation.Fixes`), so that what is demanded first still holds
after the variables that come later were set.
-/
namespace ControlPlane

open Build

variable {xs : List Variable} {P Q : Valuation → Prop}

/-! ## §1. Properties of some variables -/

def Valuation.Fixes (xs : List Variable) (P : Valuation → Prop) : Prop :=
  ∀ v w : Valuation, v.AgreesOn w xs → P v → P w

namespace Valuation.Fixes

theorem and (hP : Fixes xs P) (hQ : Fixes xs Q) : Fixes xs fun v => P v ∧ Q v :=
  fun v w hvw h => ⟨hP v w hvw h.1, hQ v w hvw h.2⟩

end Valuation.Fixes

/-! ## §2. Demands -/

/-- What a run guarantees. -/
structure Demand (P : Valuation → Prop) (l l' : Ledger) : Prop where
  grows : l.Grows l'
  sound : ∀ v : Valuation, v.SatisfiesSince l l' → P v
  /-- What was added is about declared variables. -/
  about : ∀ c ∈ l.since l', c.Over l'.vars
  /-- What was added demands no more than the property. -/
  complete : l'.Distinct → ∀ v : Valuation, P v → ∃ w : Valuation, v.AgreesOn w l.vars ∧ w.SatisfiesSince l l'

theorem Demand.stable {l l' : Ledger} (d : Demand P l l') : Valuation.Fixes l'.vars fun v => v.SatisfiesSince l l' :=
  fun v w hvw hv c hc => (d.about c hc).eval_eq v w hvw ▸ hv c hc

/-- Run on a ledger that declares `xs`, a computation demands a property of those variables. -/
structure Demands {α : Type} (xs : List Variable) (b : Build α) (P : Valuation → Prop) : Prop where
  fixes : Valuation.Fixes xs P
  run : ∀ (l : Ledger) (x : α) (l' : Ledger), xs ⊆ l.vars → b.runOn l = (.ok x, l') → Demand P l l'

namespace Demands

variable {α β : Type}

theorem pure {x : α} : Demands xs (Pure.pure x) fun _ => True where
  fixes _ _ _ _ := trivial
  run l y l' _ hrun := by
    obtain ⟨-, rfl⟩ := runOn_pure_ok.1 hrun
    exact ⟨.refl l, fun _ _ => trivial, l.about_self, fun _ v _ => ⟨v, .refl v _, v.satisfiesSince_self l⟩⟩

theorem congr {b : Build α} (hb : Demands xs b P) (h : ∀ v, P v ↔ Q v) : Demands xs b Q := by
  have e : P = Q := funext fun v => propext (h v)
  exact e ▸ hb

/-- A part that depends on no variable. -/
theorem lift {ε : Type} {e : Except Failure ε} {f : ε → Build β} (hP : Valuation.Fixes xs P)
    (h : ∀ y, e = .ok y → Demands xs (f y) P) : Demands xs (liftM e >>= f) P where
  fixes := hP
  run l x l' hl hrun := by
    obtain ⟨y, hy, hrun⟩ := runOn_lift_bind_ok.1 hrun
    exact (h y hy).run l x l' hl hrun

theorem requireReading {c : Term .bool} (hc : c.Over xs) (h : ∀ v, c.eval v ↔ P v) :
    Demands xs (Build.require c) P where
  fixes v w hvw hv := (h w).1 (hc.eval_eq v w hvw ▸ (h v).2 hv)
  run l x l' hl hrun := by
    have e := runOn_require_ok hrun
    have hsince : ∀ v : Valuation, v.SatisfiesSince l l' ↔ P v := by
      intro v
      unfold Valuation.SatisfiesSince
      rw [e.since, List.forall_mem_singleton, h v]
    refine ⟨e.grows, fun v hv => (hsince v).1 hv, fun d hd => ?_, fun _ v hv => ⟨v, .refl v _, (hsince v).2 hv⟩⟩
    rw [e.since, List.mem_singleton] at hd
    exact hd ▸ hc.mono fun _ hz => e.grows.vars.subset (hl hz)

theorem bind {b : Build α} {f : α → Build β} (a : α) (hb : Demands xs b P)
    (hresult : ∀ l x l', b.runOn l = (.ok x, l') → x = a) (hf : Demands xs (f a) Q) :
    Demands xs (b >>= f) fun v => P v ∧ Q v where
  fixes := hb.fixes.and hf.fixes
  run l y l'' hl hrun := by
    obtain ⟨x, l', hx, hy⟩ := runOn_bind_ok.1 hrun
    obtain rfl := hresult l x l' hx
    have d := hb.run l x l' hl hx
    have hsub : l.vars ⊆ l'.vars := d.grows.vars.subset
    have d' := hf.run l' y l'' (fun _ hz => hsub (hl hz)) hy
    have hboth := fun v => Valuation.satisfiesSince_trans (v := v) d.grows d'.grows
    refine ⟨d.grows.trans d'.grows, fun v hv => ?_, Ledger.about_trans d.grows d'.grows d.about d'.about,
      fun hd v hv => ?_⟩
    · obtain ⟨h, h'⟩ := (hboth v).1 hv
      exact ⟨d.sound v h, d'.sound v h'⟩
    · -- the variables of the first are set first; the second property does not mind them
      obtain ⟨w, hvw, hw⟩ := d.complete (hd.of_grows d'.grows) v hv.1
      obtain ⟨u, hwu, hu⟩ := d'.complete hd w (hf.fixes v w (hvw.mono hl) hv.2)
      exact ⟨u, hvw.trans (hwu.mono hsub), (hboth u).2 ⟨d.stable w u hwu hw, hu⟩⟩

theorem seq {b : Build Unit} {f : Unit → Build β} (hb : Demands xs b P) (hf : Demands xs (f ()) Q) :
    Demands xs (b >>= f) fun v => P v ∧ Q v :=
  hb.bind () (fun _ _ _ _ => rfl) hf

theorem forM {f : α → Build Unit} {P : α → Valuation → Prop} (as : List α)
    (h : ∀ a ∈ as, Demands xs (f a) (P a)) : Demands xs (as.forM f) fun v => ∀ a ∈ as, P a v := by
  induction as with
  | nil => exact (pure (x := ())).congr fun _ => ⟨nofun, fun _ => trivial⟩
  | cons a rest ih =>
    have hrest := ih fun b hb => h b (List.mem_cons_of_mem _ hb)
    exact (seq (h a List.mem_cons_self) hrest).congr fun v => (List.forall_mem_cons (p := fun b => P b v)).symm

end Demands

/-! ## §3. A defined term that is required -/

/-- A computation only defines variables, and its result then says a property. -/
structure Tells (P : Valuation → Prop) (l l' : Ledger) (c : Term .bool) : Prop where
  grows : l.Grows l'
  reads : ∀ v : Valuation, v.SatisfiesSince l l' → (c.eval v ↔ P v)
  scope : c.Over l'.vars
  about : ∀ c ∈ l.since l', c.Over l'.vars
  complete : l'.Distinct → ∀ v : Valuation, ∃ w : Valuation, v.AgreesOn w l.vars ∧ w.SatisfiesSince l l'

/-- **A term that is made of a defined one and then required demands what it says.** -/
theorem Demands.tell {b : Build (Term .bool)} {k : Term .bool → Build (Term .bool)} (hQ : Valuation.Fixes xs Q)
    (hb : ∀ l c l', xs ⊆ l.vars → b.runOn l = (.ok c, l') → Tells P l l' c)
    (hk : ∀ c l d l', (k c).runOn l = (.ok d, l') → l = l' ∧ (xs ⊆ l.vars → c.Over l.vars → d.Over l.vars) ∧
      ∀ v, (c.eval v ↔ P v) → (d.eval v ↔ Q v)) :
    Demands xs (b >>= fun c => k c >>= Build.require) Q where
  fixes := hQ
  run l x l'' hl hrun := by
    obtain ⟨c, l₁, hc, hrun⟩ := runOn_bind_ok.1 hrun
    obtain ⟨d, l₂, hd, hrun⟩ := runOn_bind_ok.1 hrun
    obtain ⟨rfl, hover, hread⟩ := hk c l₁ d l₂ hd
    have t := hb l c l₁ hl hc
    have e := runOn_require_ok hrun
    -- both what was defined and the required term
    have hboth : ∀ v : Valuation, v.SatisfiesSince l l'' ↔ v.SatisfiesSince l l₁ ∧ Q v := by
      intro v
      rw [Valuation.satisfiesSince_trans t.grows e.grows]
      refine and_congr_right fun hv => ?_
      unfold Valuation.SatisfiesSince
      rw [e.since, List.forall_mem_singleton]
      exact hread v (t.reads v hv)
    refine ⟨t.grows.trans e.grows, fun v hv => ((hboth v).1 hv).2,
      Ledger.about_trans t.grows e.grows t.about fun c hc => ?_, fun hdist v hv => ?_⟩
    · rw [e.since, List.mem_singleton] at hc
      exact hc ▸ (hover (fun _ hz => t.grows.vars.subset (hl hz)) t.scope).mono e.grows.vars.subset
    · have hdist : l₁.Distinct := hdist.of_grows e.grows
      obtain ⟨w, hvw, hw⟩ := t.complete hdist v
      exact ⟨w, hvw, (hboth w).2 ⟨hw, hQ v w (hvw.mono hl) hv⟩⟩

end ControlPlane
