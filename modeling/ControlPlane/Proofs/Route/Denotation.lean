import ControlPlane.Proofs.Ledger.Emission
import ControlPlane.Proofs.Policy.Run

/-!
# The route that a record stands for

Under a valuation an enumeration stands for at most one of its values and a record for a `Route`.  What
is set in a record is set in its route, so the operations of an interpretation can be read off routes.
-/
namespace ControlPlane

open List Term

variable {c : Community} {xs : List Variable} {r : Record} {t : Term .bool}

/-! ## §1. Enumerations -/

namespace Enumeration

variable {α : Type} (v : Valuation) (e : Enumeration α)

def valueUnder [BEq α] : Option α :=
  match e.bits with
  | none => e.values.head?
  | some b =>
    if e.width == 0 then none
    else (e.values[b.eval v]?).filter fun x => e.placeOf? x == some (b.eval v)

/-- The number in the bits, which is the place of the value. -/
def numberUnder : Option Nat := e.bits.map fun b => b.eval v

theorem holds_isValue [BEq α] (x : α) : (e.isValue x).eval v ↔
    (e.numberUnder v = none → (e.values.head? == some x)) ∧
      ∀ k, e.numberUnder v = some k → e.width ≠ 0 ∧ ∃ i, e.placeOf? x = some i ∧ k = i % 2 ^ e.width := by
  unfold isValue numberUnder
  cases e.bits with
  | none => simp
  | some b =>
    by_cases hw : e.width = 0
    · simp [hw]
    · cases e.placeOf? x with
      | none => simp [hw]
      | some i => simp [hw]

theorem holds_isDefault : e.isDefault.eval v ↔ ∀ k, e.numberUnder v = some k → k = 0 := by
  unfold isDefault numberUnder
  cases e.bits with
  | none => simp
  | some b => simp [defaultLit]

theorem holds_equal {β : Type} (f : Enumeration β) :
    (e.equal f).eval v ↔ ∀ i, e.numberUnder v = some i → ∀ j, f.numberUnder v = some j → i = j := by
  unfold equal numberUnder
  cases e.bits with
  | none => simp
  | some a =>
    cases f.bits with
    | none => simp
    | some b => simp

theorem length_le_two_pow_width : e.values.length ≤ 2 ^ e.width := by
  unfold width widthFor
  split
  next h => simpa using h
  next h =>
    have := Nat.lt_log2_self (n := e.values.length - 1)
    omega

theorem placeOf?_some [BEq α] {x : α} {i : Nat} (h : e.placeOf? x = some i) :
    ∃ y, e.values[i]? = some y ∧ (y == x) := by
  obtain ⟨⟨y, j⟩, hlast, rfl⟩ := Option.map_eq_some_iff.1 h
  have hmem := mem_of_mem_getLast? hlast
  simp only [mem_filter, mem_zipIdx_iff_getElem?] at hmem
  exact ⟨y, hmem⟩

theorem exists_placeOf? [BEq α] {x y : α} (hy : y ∈ e.values) (hsame : (y == x)) :
    ∃ i, e.placeOf? x = some i := by
  obtain ⟨i, hi⟩ := mem_iff_getElem?.1 hy
  have hmem : (y, i) ∈ e.values.zipIdx.filter fun z => z.1 == x :=
    mem_filter.2 ⟨mem_zipIdx_iff_getElem?.2 hi, hsame⟩
  rw [placeOf?, getLast?_eq_some_getLast (ne_nil_of_mem hmem)]
  exact ⟨_, rfl⟩

/-- The test for a value says whether the enumeration stands for it. -/
theorem eval_isValue [BEq α] [LawfulBEq α] (x : α) : (e.isValue x).eval v = (e.valueUnder v == some x) := by
  have hplace : ∀ {i}, e.placeOf? x = some i → e.values[i]? = some x ∧ i % 2 ^ e.width = i := by
    intro i hi
    obtain ⟨y, hx, hsame⟩ := e.placeOf?_some hi
    obtain rfl := eq_of_beq hsame
    have := (List.getElem?_eq_some_iff.1 hx).1
    have := e.length_le_two_pow_width
    exact ⟨hx, Nat.mod_eq_of_lt (by omega)⟩
  rw [Bool.eq_iff_iff, holds_isValue]
  unfold valueUnder numberUnder
  cases e.bits with
  | none => simp
  | some b =>
    simp only [Option.map_some, Option.some.injEq, forall_eq', reduceCtorEq, false_implies, true_and]
    by_cases hw : e.width = 0
    · simp [hw]
    · simp only [hw, ne_eq, not_false_iff, true_and, beq_iff_eq, if_false, Option.filter_eq_some_iff]
      constructor
      · rintro ⟨i, hi, hb⟩
        obtain ⟨hx, hmod⟩ := hplace hi
        rw [hb, hmod]
        exact ⟨hx, hi⟩
      · rintro ⟨-, hi⟩
        exact ⟨_, hi, (hplace hi).2.symm⟩

end Enumeration

namespace OspfType

theorem rank_lt (type : OspfType) : type.rank < 4 := by
  cases type <;> decide

@[simp] theorem eval_literal (v : Valuation) (type : OspfType) : type.literal.eval v = type.rank :=
  Nat.mod_eq_of_lt type.rank_lt

theorem over_literal (type : OspfType) : type.literal.Over xs := within_bitsLit _ _

end OspfType

/-! ## §2. Records -/

namespace Record

def under (v : Valuation) (r : Record) : Route where
  origin := r.history.map fun h => h.valueUnder v
  number a := (r.int? a).map fun t => t.eval v
  ospfRank := (Transfer.ospfBits r).eval v
  carries c := (r.community? c).map fun t => t.eval v

theorem under_setInt (v : Valuation) (r : Record) (a : IntAttribute) (t : Term .int) :
    (r.setInt a t).under v = (r.under v).setNumber a (t.eval v) := by
  unfold under Route.setNumber
  cases a <;> (congr 1; funext b; cases b <;> rfl)

theorem lookup_set {d : Community} (entries : List (Community × Term .bool)) :
    (entries.map fun e => if e.1 == c then (e.1, t) else e).lookup d =
      if d = c then (entries.lookup c).map fun _ => t else entries.lookup d := by
  induction entries with
  | nil => simp
  | cons e rest ih =>
    obtain ⟨f, u⟩ := e
    rw [map_cons, lookup_cons, lookup_cons, lookup_cons, ih]
    by_cases hf : f = c
    · subst hf
      by_cases hd : d = f
      · simp [hd]
      · simp [hd, beq_eq_false_iff_ne.2 hd]
    · by_cases hd : d = c
      · subst hd
        simp [hf, beq_eq_false_iff_ne.2 (Ne.symm hf)]
      · simp [hf, hd]

theorem under_setCommunity (v : Valuation) (r : Record) (c : Community) (t : Term .bool) :
    (r.setCommunity c t).under v = (r.under v).attach c (t.eval v) := by
  unfold under Route.attach
  congr 1
  funext d
  show ((r.setCommunity c t).communities.lookup d).map _ = _
  rw [setCommunity, lookup_set]
  split
  next => simp only [community?, Option.map_map]; rfl
  next => rfl

def Fit (r : Record) : Prop := (r.communities.map Prod.fst).Nodup

theorem setInt_communities (r : Record) (a : IntAttribute) (t : Term .int) :
    (r.setInt a t).communities = r.communities := by
  cases a <;> rfl

theorem setCommunity_keys (r : Record) (c : Community) (t : Term .bool) :
    (r.setCommunity c t).communities.map Prod.fst = r.communities.map Prod.fst := by
  unfold setCommunity
  rw [map_map]
  refine map_congr_left fun e _ => ?_
  show (if e.1 == c then (e.1, t) else e).1 = e.1
  split <;> rfl

theorem Fit.setInt (h : r.Fit) (a : IntAttribute) (t : Term .int) : (r.setInt a t).Fit := by
  unfold Fit
  rw [setInt_communities]
  exact h

theorem Fit.setCommunity (h : r.Fit) (c : Community) (t : Term .bool) : (r.setCommunity c t).Fit := by
  unfold Fit
  rw [setCommunity_keys]
  exact h

/-- The attributes that policies read are over some variables.  OSPF types have two bits. -/
structure Over (xs : List Variable) (r : Record) : Prop where
  number : ∀ a t, r.int? a = some t → t.Over xs
  community : ∀ e ∈ r.communities, e.2.Over xs
  ospfBits : (Transfer.ospfBits r).Over xs
  ospfBits_lt : ∀ v, (Transfer.ospfBits r).eval v < 4
  history : ∀ h b, r.history = some h → h.bits = some b → b.Over xs

theorem Over.mono {ys : List Variable} (hs : xs ⊆ ys) (h : r.Over xs) : r.Over ys where
  number a t ht := (h.number a t ht).mono hs
  community e he := (h.community e he).mono hs
  ospfBits := h.ospfBits.mono hs
  ospfBits_lt := h.ospfBits_lt
  history e b he hb := (h.history e b he hb).mono hs

section

variable (h : r.Over xs)
include h

theorem Over.community? (ht : r.community? c = some t) : t.Over xs := h.community (c, t) (mem_of_lookup_eq_some ht)

theorem Over.setInt (a : IntAttribute) {t : Term .int} (ht : t.Over xs) : (r.setInt a t).Over xs where
  number b u hu := by
    by_cases hb : b = a
    · subst hb
      have : (r.setInt b t).int? b = some t := by cases b <;> rfl
      rw [this] at hu
      exact Option.some.inj hu ▸ ht
    · have : (r.setInt a t).int? b = r.int? b := by cases a <;> cases b <;> first | rfl | exact absurd rfl hb
      rw [this] at hu
      exact h.number b u hu
  community e he := h.community e (setInt_communities r a t ▸ he)
  ospfBits := by cases a <;> exact h.ospfBits
  ospfBits_lt := by cases a <;> exact h.ospfBits_lt
  history e b he hb := h.history e b (by cases a <;> exact he) hb

theorem Over.setCommunity (c : Community) (ht : t.Over xs) : (r.setCommunity c t).Over xs where
  number := h.number
  community e he := by
    obtain ⟨f, hf, rfl⟩ := mem_map.1 he
    split
    · exact ht
    · exact h.community f hf
  ospfBits := h.ospfBits
  ospfBits_lt := h.ospfBits_lt
  history := h.history

theorem Over.setOspfBits {b : Term .bits} (hb : b.Over xs) (hlt : ∀ v, b.eval v < 4) :
    (Transfer.setOspfBits r b).Over xs where
  number := h.number
  community := h.community
  ospfBits := hb
  ospfBits_lt := hlt
  history := h.history

end

instance : Valued Record Route where
  Fit := Fit
  Over := Over
  under := under
  over_mono := Over.mono

end Record

end ControlPlane
