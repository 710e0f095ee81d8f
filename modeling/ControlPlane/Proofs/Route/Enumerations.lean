import ControlPlane.Proofs.Route.Creation
import ControlPlane.Proofs.Route.Denotation
import Mathlib.Data.Nat.Log

/-!
# Enumerations have exactly one value

The bit vector of an enumeration has the fewest bits that can hold every place of its list.  Places beyond the list are
excluded by the bound, or there are none, so that the bit vector always is the place of a value.
-/
namespace ControlPlane.Enumeration

open List

variable {α : Type} {name name' : String} {values : List α} {v : Valuation} {e : Enumeration α} {x : α}

/-- The place that the bit vector tells, which is the first one where there is nothing to tell. -/
def placeUnder (v : Valuation) (e : Enumeration α) : Nat := (e.numberUnder v).getD 0

theorem widthFor_eq_clog (size : Nat) : widthFor size = Nat.clog 2 size := by
  unfold widthFor
  split
  next hsmall => rw [Nat.clog_of_right_le_one hsmall]
  next hlarge =>
    -- both are the least width with enough patterns
    refine eq_of_forall_ge_iff fun width => ?_
    rw [Nat.succ_le_iff, Nat.log2_lt (by omega), Nat.clog_le_iff_le_pow (by decide)]
    omega

theorem create_total (name : String) (values : List α) (l : Ledger) :
    ∃ e l', (create name values).runOn l = (.ok e, l') := by
  unfold create
  dsimp only
  split <;> exact ⟨_, _, rfl⟩

theorem isDefault_iff : e.isDefault.eval v ↔ e.placeUnder v = 0 := by
  rw [holds_isDefault, placeUnder]
  cases e.numberUnder v <;> simp

theorem equal_iff : ((planned name values).equal (planned name' values)).eval v ↔
    (planned name values).placeUnder v = (planned name' values).placeUnder v := by
  rw [holds_equal]
  unfold placeUnder numberUnder
  by_cases hone : values.length ≤ 1
  · simp [bits_planned_of_le hone]
  · simp [bits_planned (Nat.lt_of_not_le hone)]

section Bounded

variable (hne : values ≠ []) (hbounds : ∀ c ∈ (planned name values).bounds, c.eval v)
include hne hbounds

/-- **The bit vector tells a place of the list.** -/
theorem placeUnder_lt : (planned name values).placeUnder v < values.length := by
  unfold placeUnder numberUnder
  by_cases hone : values.length ≤ 1
  · rw [bits_planned_of_le hone]
    exact length_pos_of_ne_nil hne
  · have hbits := @bits_planned name _ _ (Nat.lt_of_not_le hone)
    rw [hbits]
    have hpattern : (Term.bitsVar name (widthFor values.length)).eval v < 2 ^ widthFor values.length :=
      Nat.mod_lt _ (Nat.two_pow_pos _)
    unfold bounds bound? at hbounds
    rw [hbits, planned_values] at hbounds
    split at hbounds
    next hfills =>
      -- every pattern is the place of a value
      have hfills : values.length = 2 ^ widthFor values.length := by simpa [fillsWidth, hne] using hfills
      exact Nat.lt_of_lt_of_eq hpattern hfills.symm
    next =>
      have hle : _ ≤ (values.length - 1) % 2 ^ widthFor values.length :=
        of_decide_eq_true (hbounds _ (mem_singleton_self _))
      exact Nat.lt_of_le_of_lt (hle.trans (Nat.mod_le _ _)) (by omega)

/-- The test for a value holds just if this is the last place of the value. -/
theorem isValue_iff [BEq α] : ((planned name values).isValue x).eval v ↔
    (planned name values).placeOf? x = some ((planned name values).placeUnder v) := by
  rw [holds_isValue]
  by_cases hone : values.length ≤ 1
  · have hpos := length_pos_of_ne_nil hne
    obtain ⟨y, rfl⟩ := length_eq_one_iff.1 (Nat.le_antisymm hone hpos)
    rw [placeUnder, numberUnder, bits_planned_of_le hone, placeOf?, planned_values]
    by_cases hsame : (y == x) <;> simp [hsame]
  · have hbits := @bits_planned name _ _ (Nat.lt_of_not_le hone)
    have hwidth : (planned name values).width ≠ 0 := by
      rw [width, planned_values]
      exact widthFor_ne_zero (Nat.lt_of_not_le hone)
    have hmod : ∀ {i}, (planned name values).placeOf? x = some i → i % 2 ^ (planned name values).width = i := by
      intro i hi
      obtain ⟨y, hy, -⟩ := placeOf?_some _ hi
      have hlt := (List.getElem?_eq_some_iff.1 hy).1
      exact Nat.mod_eq_of_lt (Nat.lt_of_lt_of_le hlt (planned name values).length_le_two_pow_width)
    rw [placeUnder, numberUnder, hbits]
    simp only [Option.map_some, Option.some.injEq, forall_eq', reduceCtorEq, false_implies, true_and, Option.getD_some]
    refine ⟨?_, fun hplace => ⟨hwidth, _, hplace, (hmod hplace).symm⟩⟩
    rintro ⟨-, i, hi, hbits⟩
    rw [hi, hbits, hmod hi]

end Bounded

theorem placeOf?_getElem [BEq α] (hself : ∀ x ∈ values, (x == x))
    (hdiffer : values.Pairwise fun x y => (x == y) = false ∧ (y == x) = false) (name : String) {i : Nat}
    (hi : i < values.length) : (planned name values).placeOf? values[i] = some i := by
  have hmem := getElem_mem hi
  obtain ⟨j, hj⟩ := (planned name values).exists_placeOf? ((planned_values name values).symm ▸ hmem) (hself _ hmem)
  obtain ⟨y, hy, hsame⟩ := placeOf?_some _ hj
  rw [planned_values] at hy
  obtain ⟨hlt, rfl⟩ := List.getElem?_eq_some_iff.1 hy
  rw [pairwise_iff_getElem] at hdiffer
  obtain hji | rfl | hij := Nat.lt_trichotomy j i
  · exact absurd hsame (Bool.eq_false_iff.1 (hdiffer _ _ hlt hi hji).1)
  · exact hj
  · exact absurd hsame (Bool.eq_false_iff.1 (hdiffer _ _ hi hlt hij).2)

/-- **An enumeration has exactly one value**, whatever the number of values is: the test for a value holds for one value
of the list and for nothing else, the default is the first value, and two enumerations of a list are equal exactly when
they have the same value.  The values need not be equal to be the same, as numbers in several forms are, but each of
them must be the same as itself and as no other one. -/
theorem value_isUnique [BEq α] (name name' : String) (hne : values ≠ []) (hself : ∀ x ∈ values, (x == x))
    (hdiffer : values.Pairwise fun x y => (x == y) = false ∧ (y == x) = false) (l m : Ledger) :
    ∃ e l' d m', (create name values).runOn l = (.ok e, l') ∧ (create name' values).runOn m = (.ok d, m') ∧
      e.bits = (if values.length ≤ 1 then none else some (.bitsVar name (Nat.clog 2 values.length))) ∧
      ∀ v : Valuation, v.SatisfiesSince l l' →
        (∃! x, x ∈ values ∧ (e.isValue x).eval v) ∧
        (∀ x, (∀ y ∈ values, (y == x) = false) → (e.isValue x).eval v = false) ∧
        e.isDefault.eval v = (e.isValue (values.head hne)).eval v ∧
        (v.SatisfiesSince m m' → ((e.equal d).eval v ↔
          ∃ x, (e.isValue x).eval v ∧ (d.isValue x).eval v)) := by
  obtain ⟨e, l', he⟩ := create_total name values l
  obtain ⟨d, m', hd⟩ := create_total name' values m
  obtain ⟨rfl, hextends⟩ := create_extends he
  obtain ⟨rfl, hextends'⟩ := create_extends hd
  have hbits : (planned name values).bits =
      if values.length ≤ 1 then none else some (.bitsVar name (Nat.clog 2 values.length)) := by
    rw [← widthFor_eq_clog]
    split
    next hone => exact bits_planned_of_le hone
    next hone => exact bits_planned (Nat.lt_of_not_le hone)
  refine ⟨_, l', _, m', he, hd, hbits, fun v hv => ?_⟩
  have hbounds : ∀ c ∈ (planned name values).bounds, c.eval v := hextends.since ▸ hv
  have hlt := placeUnder_lt hne hbounds
  have hvalue := fun x => isValue_iff (x := x) hne hbounds
  have hplace := fun name i hi => placeOf?_getElem hself hdiffer name (i := i) hi
  refine ⟨⟨_, ⟨getElem_mem hlt, (hvalue _).2 (hplace _ _ hlt)⟩, ?_⟩, fun x hx => ?_, ?_, fun hv' => ?_⟩
  · rintro x ⟨hx, htest⟩
    obtain ⟨i, hi, rfl⟩ := getElem_of_mem hx
    have heq := (hplace name i hi).symm.trans ((hvalue _).1 htest)
    simp only [Option.some.inj heq]
  · refine Bool.eq_false_iff.2 fun htest => ?_
    obtain ⟨y, hy, hsame⟩ := placeOf?_some _ ((hvalue x).1 htest)
    rw [planned_values] at hy
    exact absurd hsame (Bool.eq_false_iff.1 (hx y (mem_of_getElem? hy)))
  · rw [Bool.eq_iff_iff, isDefault_iff, hvalue, head_eq_getElem, hplace, Option.some.injEq, eq_comm]
  · have hbounds' : ∀ c ∈ (planned name' values).bounds, c.eval v := hextends'.since ▸ hv'
    have hvalue' := fun x => isValue_iff (x := x) hne hbounds'
    rw [equal_iff]
    simp only [hvalue, hvalue']
    refine ⟨fun hsame => ⟨_, hplace _ _ hlt, hsame ▸ hplace _ _ hlt⟩, fun ⟨x, hx, hx'⟩ => ?_⟩
    rw [placeOf?, planned_values] at hx hx'
    exact Option.some.inj (hx.symm.trans hx')

theorem createOf_of_scalars {values : List Document} (h : values.all Document.isScalar) :
    createOf name values = create name values := by
  rw [createOf, createAmong, h, Bool.or_true, if_pos rfl]

theorem isDocument_of_scalar {e : Enumeration Document} {x : Document} (h : x.isScalar) :
    e.isDocument x = .ok (e.isValue x) := by
  rw [isDocument, isAmong, h, Bool.or_true, if_pos rfl]

/-- Areas that are named by a number, a text and a number with a point. -/
def threeAreas : List Document := [.int 0, .text "0", .real 5 (-1)]

theorem value_isUnique_of_three : ∃ e l', (createOf "x" threeAreas).runOn {} = (.ok e, l') ∧
    e.bits = some (.bitsVar "x" 2) ∧ ∀ v : Valuation, v.SatisfiesSince {} l' →
      (∃! x, x ∈ threeAreas ∧ (e.isDocument x).map (Term.eval v) = .ok true) ∧
      (e.isDocument (.int 5)).map (Term.eval v) = .ok false := by
  obtain ⟨e, l', _, _, he, -, hbits, hvalue⟩ := value_isUnique "x" "y"
    (by decide : threeAreas ≠ []) (by decide) (by decide) {} {}
  have hwidth : Nat.clog 2 3 = 2 := by rw [← widthFor_eq_clog]; rfl
  refine ⟨e, l', by rw [createOf_of_scalars rfl, he], by simpa [hwidth, threeAreas] using hbits, fun v hv => ?_⟩
  obtain ⟨⟨x, ⟨hx, htest⟩, hunique⟩, hother, -⟩ := hvalue v hv
  have hscalar : ∀ x ∈ threeAreas, x.isScalar := by decide
  refine ⟨⟨x, ⟨hx, ?_⟩, ?_⟩, ?_⟩
  · rw [isDocument_of_scalar (hscalar x hx), Except.map, htest]
  · rintro y ⟨hy, htest'⟩
    rw [isDocument_of_scalar (hscalar y hy)] at htest'
    exact hunique y ⟨hy, Except.ok.inj htest'⟩
  · rw [isDocument_of_scalar rfl, Except.map, hother _ (by decide)]

end ControlPlane.Enumeration
