import ControlPlane.Proofs.Term.Scope
import ControlPlane.Term.Ledger
import Mathlib.Data.List.Forall2
import Mathlib.Data.List.Nodup

/-!
# Runs on a ledger

`Build.runOn` is taken apart step by step, and a ledger that grew is compared with the one it grew from.
Computations over lists are followed element by element; `Ledger.Extends` tells exactly what was added.
-/
namespace ControlPlane

open List

variable {cs : List (Term .bool)} {vs : List Variable} {name : String} {l l' l'' : Ledger}

/-! ## §1. Runs -/

section Except

variable {ε α β : Type} {e : Except ε α} {f : α → Except ε β} {xs : List α} {ys : List β} {x : α} {y : β}

/-- A sequence succeeds when both of its parts do. -/
theorem bind_eq_ok : (e >>= f) = .ok y ↔ ∃ x, e = .ok x ∧ f x = .ok y := by
  cases e with
  | error f => exact ⟨nofun, fun ⟨_, h, _⟩ => nomatch h⟩
  | ok x => exact ⟨fun h => ⟨x, rfl, h⟩, fun ⟨_, h, hf⟩ => Except.ok.inj h ▸ hf⟩

/-- A computation that succeeds has one result. -/
theorem exists_ok_iff (h : e = .ok x) {P : α → Prop} : (∃ y, e = .ok y ∧ P y) ↔ P x :=
  ⟨fun ⟨_, hy, hp⟩ => Except.ok.inj (h.symm.trans hy) ▸ hp, fun hp => ⟨x, h, hp⟩⟩

theorem exists_ok_ok_iff {e' : Except ε β} (h : e = .ok x) (h' : e' = .ok y) {P : α → β → Prop} :
    (∃ a b, e = .ok a ∧ e' = .ok b ∧ P a b) ↔ P x y := by
  simp only [exists_and_left, exists_ok_iff h, exists_ok_iff h']

theorem pure_eq_ok {x y : α} : (pure x : Except ε α) = .ok y ↔ x = y :=
  ⟨fun h => Except.ok.inj h, fun h => congrArg Except.ok h⟩

@[simp] theorem ok_bind (x : α) (f : α → Except ε β) : (Except.ok x >>= f) = f x := rfl

theorem mapM_eq_ok : xs.mapM f = .ok ys ↔ List.Forall₂ (fun x y => f x = .ok y) xs ys := by
  induction xs generalizing ys with
  | nil =>
    rw [mapM_nil, pure_eq_ok, forall₂_nil_left_iff]
    exact eq_comm
  | cons x rest ih =>
    rw [mapM_cons, bind_eq_ok, forall₂_cons_left_iff]
    constructor
    · rintro ⟨y, hy, h⟩
      obtain ⟨zs, hzs, h⟩ := bind_eq_ok.1 h
      exact ⟨y, zs, hy, ih.1 hzs, (pure_eq_ok.1 h).symm⟩
    · rintro ⟨y, zs, hy, hzs, rfl⟩
      exact ⟨y, hy, bind_eq_ok.2 ⟨zs, ih.2 hzs, rfl⟩⟩

theorem exists_mapM_eq_ok (h : ∀ x ∈ xs, ∃ y, f x = .ok y) : ∃ ys, xs.mapM f = .ok ys := by
  induction xs with
  | nil => exact ⟨[], rfl⟩
  | cons x rest ih =>
    obtain ⟨y, hy⟩ := h x mem_cons_self
    obtain ⟨ys, hys⟩ := ih fun x' hx' => h x' (mem_cons_of_mem _ hx')
    exact ⟨y :: ys, mapM_eq_ok.2 (.cons hy (mapM_eq_ok.1 hys))⟩

theorem exists_foldlM_eq_ok {g : β → α → Except ε β} (h : ∀ x ∈ xs, ∀ y, ∃ z, g y x = .ok z) (y : β) :
    ∃ z, xs.foldlM g y = .ok z := by
  induction xs generalizing y with
  | nil => exact ⟨y, rfl⟩
  | cons x rest ih =>
    obtain ⟨z, hz⟩ := h x mem_cons_self y
    obtain ⟨w, hw⟩ := ih (fun x' hx' => h x' (mem_cons_of_mem _ hx')) z
    exact ⟨w, bind_eq_ok.2 ⟨z, hz, hw⟩⟩

theorem forall₂_mem_right {R : α → β → Prop} (h : List.Forall₂ R xs ys) (hy : y ∈ ys) : ∃ x ∈ xs, R x y := by
  induction h with
  | nil => cases hy
  | @cons a b as bs hab _ ih =>
    rcases mem_cons.1 hy with rfl | hy
    · exact ⟨a, mem_cons_self, hab⟩
    · obtain ⟨x, hx, hxy⟩ := ih hy
      exact ⟨x, mem_cons_of_mem a hx, hxy⟩

/-- Where a computation was done for every member of a list, it was done for each. -/
theorem exists_of_mapM_eq_ok (h : xs.mapM f = .ok ys) (hx : x ∈ xs) : ∃ y ∈ ys, f x = .ok y :=
  forall₂_mem_right (mapM_eq_ok.1 h).flip hx

/-- Every result of computations over a list is that of one of its members. -/
theorem exists_of_mem_mapM (h : xs.mapM f = .ok ys) (hy : y ∈ ys) : ∃ x ∈ xs, f x = .ok y :=
  forall₂_mem_right (R := fun x y => f x = .ok y) (mapM_eq_ok.1 h) hy

/-- What all results have in common is told element by element. -/
theorem forall_mem_mapM (h : xs.mapM f = .ok ys) {P : β → Prop} {Q : α → Prop}
    (hiff : ∀ x ∈ xs, ∀ y, f x = .ok y → (P y ↔ Q x)) : (∀ y ∈ ys, P y) ↔ ∀ x ∈ xs, Q x := by
  constructor
  · intro hp x hx
    obtain ⟨y, hy, hxy⟩ := exists_of_mapM_eq_ok h hx
    exact (hiff x hx y hxy).1 (hp y hy)
  · intro hq y hy
    obtain ⟨x, hx, hxy⟩ := exists_of_mem_mapM h hy
    exact (hiff x hx y hxy).2 (hq x hx)

/-- What some result has is told element by element. -/
theorem exists_mem_mapM (h : xs.mapM f = .ok ys) {P : β → Prop} {Q : α → Prop}
    (hiff : ∀ x ∈ xs, ∀ y, f x = .ok y → (P y ↔ Q x)) : (∃ y ∈ ys, P y) ↔ ∃ x ∈ xs, Q x := by
  have hnone := forall_mem_mapM h (P := fun y => ¬ P y) fun x hx y hxy => not_congr (hiff x hx y hxy)
  simpa using not_congr hnone

theorem mem_of_lookup_eq_some [BEq α] [LawfulBEq α] {xs : List (α × β)} (h : xs.lookup x = some y) : (x, y) ∈ xs := by
  obtain ⟨before, after, rfl, -⟩ := lookup_eq_some_iff.1 h
  exact mem_append_right _ mem_cons_self

theorem exists_mem_flatten {xs : List (List α)} {P : α → Prop} :
    (∃ x ∈ xs.flatten, P x) ↔ ∃ ys ∈ xs, ∃ x ∈ ys, P x := by
  simp only [mem_flatten]
  tauto

/-- Computations with the same view fail alike or succeed with the same view. -/
theorem map_eq_map {α' γ : Type} {e' : Except ε α'} {p : α → γ} {p' : α' → γ} (h : e.map p = e'.map p') :
    (∃ f, e = .error f ∧ e' = .error f) ∨ ∃ x x', e = .ok x ∧ e' = .ok x' ∧ p x = p' x' := by
  cases e with
  | error a =>
    cases e' with
    | error b => exact .inl ⟨a, rfl, congrArg _ (Except.error.inj h).symm⟩
    | ok x' => cases h
  | ok x =>
    cases e' with
    | error b => cases h
    | ok x' => exact .inr ⟨x, x', rfl, rfl, Except.ok.inj h⟩

/-- Sequences whose parts have the same views have the same view. -/
theorem map_bind_congr {α' β' γ δ : Type} {e' : Except ε α'} {p : α → γ} {p' : α' → γ} {f' : α' → Except ε β'}
    {q : β → δ} {q' : β' → δ} (he : e.map p = e'.map p') (hf : ∀ x x', p x = p' x' → (f x).map q = (f' x').map q') :
    (e >>= f).map q = (e' >>= f').map q' := by
  obtain ⟨f, rfl, rfl⟩ | ⟨x, x', rfl, rfl, hx⟩ := map_eq_map he
  · rfl
  · exact hf x x' hx

theorem map_bind_same {β' δ : Type} {f' : α → Except ε β'} {q : β → δ} {q' : β' → δ}
    (hf : ∀ x, (f x).map q = (f' x).map q') : (e >>= f).map q = (e >>= f').map q' := by
  cases e with
  | error a => rfl
  | ok x => exact hf x

end Except

def Yields {α : Type} (e : Except Failure α) (Q : α → Prop) : Prop := ∀ x, e = .ok x → Q x

namespace Yields

variable {α β : Type} {Q : α → Prop} {R : β → Prop} {e : Except Failure α} {f : α → Except Failure β} {x : α}

protected theorem ok (h : Q x) : Yields (.ok x) Q := fun _ hx => Except.ok.inj hx ▸ h

protected theorem pure (h : Q x) : Yields (pure x) Q := .ok h

protected theorem error {f : Failure} : Yields (.error f : Except Failure α) Q := nofun

protected theorem throw {f : Failure} : Yields (throw f : Except Failure α) Q := Yields.error

protected theorem bind (he : Yields e Q) (hf : ∀ x, Q x → Yields (f x) R) : Yields (e >>= f) R := by
  intro y hy
  obtain ⟨x, hx, hy⟩ := bind_eq_ok.1 hy
  exact hf x (he x hx) y hy

theorem after (hf : ∀ x, Yields (f x) R) : Yields (e >>= f) R :=
  Yields.bind (Q := fun _ => True) (fun _ _ => trivial) fun x _ => hf x

theorem mapM {xs : List α} (hf : ∀ x ∈ xs, Yields (f x) R) : Yields (xs.mapM f) fun ys => ∀ y ∈ ys, R y := by
  intro ys hys y hy
  obtain ⟨x, hx, hxy⟩ := exists_of_mem_mapM hys hy
  exact hf x hx y hxy

theorem foldlM {f : α → β → Except Failure α} {xs : List β} (hf : ∀ y ∈ xs, ∀ x, Q x → Yields (f x y) Q) (h : Q x) :
    Yields (xs.foldlM f x) Q := by
  induction xs generalizing x with
  | nil => exact .pure h
  | cons y rest ih =>
    exact Yields.bind (hf y mem_cons_self x h) fun z hz => ih (fun w hw => hf w (mem_cons_of_mem _ hw)) hz

theorem foldrM {f : β → α → Except Failure α} {xs : List β} (hf : ∀ y ∈ xs, ∀ x, Q x → Yields (f y x) Q) (h : Q x) :
    Yields (xs.foldrM f x) Q := by
  exact foldlM (fun y hy => hf y (mem_reverse.1 hy)) h

end Yields

namespace Build

variable {α β : Type}

theorem runOn_pure (x : α) (l : Ledger) : (pure x : Build α).runOn l = (.ok x, l) := rfl

theorem runOn_throw (f : Failure) (l : Ledger) : (throw f : Build α).runOn l = (.error f, l) := rfl

theorem runOn_lift (e : Except Failure α) (l : Ledger) : (liftM e : Build α).runOn l = (e, l) := rfl

theorem runOn_bind (b : Build α) (f : α → Build β) (l : Ledger) :
    (b >>= f).runOn l = match b.runOn l with
      | (.ok x, l') => (f x).runOn l'
      | (.error e, l') => (.error e, l') := by
  simp only [runOn, ExceptT.run_bind, StateT.run_bind]
  cases StateT.run (ExceptT.run b) l with
  | mk x l' => cases x <;> rfl

theorem runOn_bind_ok {b : Build α} {f : α → Build β} {y : β} :
    (b >>= f).runOn l = (.ok y, l'') ↔
      ∃ x l', b.runOn l = (.ok x, l') ∧ (f x).runOn l' = (.ok y, l'') := by
  rw [runOn_bind]
  constructor
  · intro h
    split at h
    next x l' hb => exact ⟨x, l', hb, h⟩
    next => cases h
  · rintro ⟨x, l', hb, hf⟩
    rw [hb]
    exact hf

theorem runOn_pure_ok {x y : α} : (pure x : Build α).runOn l = (.ok y, l') ↔ x = y ∧ l = l' := by
  rw [runOn_pure, Prod.mk.injEq, Except.ok.injEq]

theorem runOn_lift_ok {e : Except Failure α} {x : α} :
    (liftM e : Build α).runOn l = (.ok x, l') ↔ e = .ok x ∧ l = l' := by
  rw [runOn_lift, Prod.mk.injEq]

theorem runOn_lift_bind_ok {e : Except Failure α} {f : α → Build β} {y : β} :
    (liftM e >>= f).runOn l = (.ok y, l') ↔ ∃ x, e = .ok x ∧ (f x).runOn l = (.ok y, l') := by
  rw [runOn_bind_ok]
  constructor
  · rintro ⟨x, l₁, hx, hf⟩
    obtain ⟨he, rfl⟩ := runOn_lift_ok.1 hx
    exact ⟨x, he, hf⟩
  · rintro ⟨x, he, hf⟩
    exact ⟨x, l, runOn_lift_ok.2 ⟨he, rfl⟩, hf⟩

theorem runOn_throw_ok {f : Failure} {x : α} : ¬ (throw f : Build α).runOn l = (.ok x, l') := by
  rw [runOn_throw]
  simp

end Build

/-! ## §3. Ledgers that grow -/

namespace Ledger

def vars (l : Ledger) : List Variable := l.declared.toList

def required (l : Ledger) : List (Term .bool) := l.constraints.toList

def Distinct (l : Ledger) : Prop := (l.vars.map Variable.name).Nodup

def code (name : String) : Nat := name.toByteArray.data.toList.foldl (fun n b => 256 * n + b.toNat) 0

instance (l : Ledger) : Decidable l.Distinct :=
  if h : ((l.vars.map Variable.name).map code).Nodup then .isTrue (List.Nodup.of_map code h) else
    inferInstanceAs (Decidable (List.Nodup _))

/-- Everything in a ledger is in another one, before anything else. -/
structure Grows (l l' : Ledger) : Prop where
  vars : l.vars <+: l'.vars
  required : l.required <+: l'.required

theorem Grows.refl (l : Ledger) : l.Grows l := ⟨prefix_refl _, prefix_refl _⟩

theorem Grows.trans (h : l.Grows l') (h' : l'.Grows l'') : l.Grows l'' :=
  ⟨h.vars.trans h'.vars, h.required.trans h'.required⟩

theorem Distinct.of_grows (h : l.Grows l') (hd : l'.Distinct) : l.Distinct :=
  hd.sublist (h.vars.sublist.map _)

def since (l l' : Ledger) : List (Term .bool) := l'.required.drop l.required.length

theorem since_self (l : Ledger) : l.since l = [] := drop_length

theorem required_since (h : l.Grows l') : l'.required = l.required ++ l.since l' := by
  obtain ⟨cs, hcs⟩ := h.required
  rw [since, ← hcs, drop_left]

theorem since_trans (h : l.Grows l') (h' : l'.Grows l'') : l.since l'' = l.since l' ++ l'.since l'' := by
  have hl' := required_since h
  have hl'' := required_since h'
  rw [hl', append_assoc] at hl''
  show l''.required.drop l.required.length = _
  rw [hl'', drop_left]

end Ledger

/-! ## §4. What was added -/

namespace Ledger

structure Extends (l l' : Ledger) (vs : List Variable) (cs : List (Term .bool)) : Prop where
  vars : l'.vars = l.vars ++ vs
  required : l'.required = l.required ++ cs

theorem Extends.refl (l : Ledger) : l.Extends l [] [] := ⟨(append_nil _).symm, (append_nil _).symm⟩

theorem Extends.trans {vs' : List Variable} {cs' : List (Term .bool)} (h : l.Extends l' vs cs)
    (h' : l'.Extends l'' vs' cs') : l.Extends l'' (vs ++ vs') (cs ++ cs') := by
  refine ⟨?_, ?_⟩
  · rw [h'.vars, h.vars, append_assoc]
  · rw [h'.required, h.required, append_assoc]

variable (h : l.Extends l' vs cs)
include h

theorem Extends.grows : l.Grows l' :=
  ⟨⟨vs, h.vars.symm⟩, ⟨cs, h.required.symm⟩⟩

theorem Extends.since : l.since l' = cs := by
  unfold Ledger.since
  rw [h.required, drop_left]

end Ledger

namespace Build

variable {α β : Type} {f : α → Build Unit}

theorem runOn_declare {z : Variable} {x y : α} (h : (do declare z; return y : Build α).runOn l = (.ok x, l')) :
    x = y ∧ l.Extends l' [z] [] := by
  obtain ⟨hx, rfl⟩ := Prod.mk.inj h
  exact ⟨(Except.ok.inj hx).symm, Array.toList_push, (append_nil _).symm⟩

theorem runOn_newBool {x : Term .bool} (h : (newBool name).runOn l = (.ok x, l')) :
    x = .boolVar name ∧ l.Extends l' [⟨name, .bool⟩] [] := runOn_declare h

theorem runOn_newInt {x : Term .int} (h : (newInt name).runOn l = (.ok x, l')) :
    x = .intVar name ∧ l.Extends l' [⟨name, .int⟩] [] := runOn_declare h

theorem runOn_newBits {width : Nat} {x : Term .bits} (h : (newBits name width).runOn l = (.ok x, l')) :
    x = .bitsVar name width ∧ l.Extends l' [⟨name, .bits width⟩] [] := runOn_declare h

theorem toList_foldl_push {γ : Type} (xs : List γ) (a : Array γ) :
    (xs.foldl Array.push a).toList = a.toList ++ xs := by
  induction xs generalizing a with
  | nil => exact (append_nil _).symm
  | cons x rest ih => rw [foldl_cons, ih, Array.toList_push, append_assoc, singleton_append]

theorem runOn_declareAll {x : Unit} (h : (declareAll vs).runOn l = (.ok x, l')) : l.Extends l' vs [] := by
  cases h
  exact ⟨toList_foldl_push vs _, (append_nil _).symm⟩

theorem runOn_require_ok {c : Term .bool} {x : Unit} (h : (require c).runOn l = (.ok x, l')) :
    l.Extends l' [] [c] := by
  cases h
  exact ⟨(append_nil _).symm, Array.toList_push⟩

theorem runOn_requireAll {x : Unit} (h : (requireAll cs).runOn l = (.ok x, l')) : l.Extends l' [] cs := by
  cases h
  exact ⟨(append_nil _).symm, toList_foldl_push cs _⟩

variable {xs : List α} {ys : List β} {y : Unit}

/-- Computations in order.  What is known of each result, and what each adds, is known of all. -/
theorem runOn_mapM_of {γ : Type} {f : α → Build β} (part : β → γ) {g : α → γ} {V : β → List Variable}
    {C : β → List (Term .bool)}
    (hf : ∀ x ∈ xs, ∀ l y l', (f x).runOn l = (.ok y, l') → part y = g x ∧ l.Extends l' (V y) (C y))
    (h : (xs.mapM f).runOn l = (.ok ys, l')) :
    ys.map part = xs.map g ∧ l.Extends l' (ys.flatMap V) (ys.flatMap C) := by
  induction xs generalizing ys l with
  | nil =>
    obtain ⟨rfl, rfl⟩ := runOn_pure_ok.1 h
    exact ⟨rfl, .refl l⟩
  | cons x rest ih =>
    rw [mapM_cons] at h
    obtain ⟨y, l₁, hy, h⟩ := runOn_bind_ok.1 h
    obtain ⟨zs, l₂, hzs, h⟩ := runOn_bind_ok.1 h
    obtain ⟨rfl, rfl⟩ := runOn_pure_ok.1 h
    obtain ⟨hpart, he⟩ := hf x mem_cons_self l y l₁ hy
    obtain ⟨hparts, hes⟩ := ih (fun x hx => hf x (mem_cons_of_mem _ hx)) hzs
    exact ⟨by rw [map_cons, hpart, hparts, map_cons], he.trans hes⟩

theorem runOn_mapM {f : α → Build β} {g : α → β} {V : β → List Variable} {C : β → List (Term .bool)}
    (hf : ∀ x ∈ xs, ∀ l y l', (f x).runOn l = (.ok y, l') → y = g x ∧ l.Extends l' (V y) (C y))
    (h : (xs.mapM f).runOn l = (.ok ys, l')) : ys = xs.map g ∧ l.Extends l' (ys.flatMap V) (ys.flatMap C) := by
  obtain ⟨hys, he⟩ := runOn_mapM_of id hf h
  exact ⟨ys.map_id.symm.trans hys, he⟩

/-- Computations in order, each of which adds what its input tells. -/
theorem runOn_forM {V : α → List Variable} {C : α → List (Term .bool)}
    (hf : ∀ x ∈ xs, ∀ l y l', (f x).runOn l = (.ok y, l') → l.Extends l' (V x) (C x))
    (h : (xs.forM f).runOn l = (.ok y, l')) : l.Extends l' (xs.flatMap V) (xs.flatMap C) := by
  induction xs generalizing l with
  | nil =>
    obtain ⟨-, rfl⟩ := runOn_pure_ok.1 h
    exact .refl l
  | cons x rest ih =>
    obtain ⟨z, l₁, hz, h⟩ := runOn_bind_ok.1 h
    exact (hf x mem_cons_self l z l₁ hz).trans (ih (fun x hx => hf x (mem_cons_of_mem _ hx)) h)

/-- Computations in order that succeed have all succeeded. -/
theorem exists_of_runOn_forM (h : (xs.forM f).runOn l = (.ok y, l')) {x : α} (hx : x ∈ xs) :
    ∃ k k', (f x).runOn k = (.ok (), k') := by
  induction xs generalizing l with
  | nil => cases hx
  | cons z rest ih =>
    obtain ⟨_, l₁, hz, h⟩ := runOn_bind_ok.1 h
    rcases mem_cons.1 hx with rfl | hx
    · exact ⟨l, l₁, hz⟩
    · exact ih h hx

/-- Computations in order succeed if each of them always does. -/
theorem runOn_forM_total (hf : ∀ x ∈ xs, ∀ l, ∃ l', (f x).runOn l = (.ok (), l')) (l : Ledger) :
    ∃ l', (xs.forM f).runOn l = (.ok (), l') := by
  induction xs generalizing l with
  | nil => exact ⟨l, rfl⟩
  | cons x rest ih =>
    obtain ⟨l₁, h₁⟩ := hf x mem_cons_self l
    obtain ⟨l₂, h₂⟩ := ih (fun y hy => hf y (mem_cons_of_mem _ hy)) l₁
    exact ⟨l₂, runOn_bind_ok.2 ⟨(), l₁, h₁, h₂⟩⟩

end Build

end ControlPlane
