import ControlPlane.Term.Eval
import Mathlib.Algebra.Group.Nat.Defs

/-!
# Evaluating terms

What the builders of terms mean under a valuation.  The short forms `Term.anyOf` and `Term.allOf` drop
operands that decide nothing, and their values show none of that; terms that are built in the same way
have the same value.
-/
namespace ControlPlane

open List Bool

variable {ts : List (Term .bool)} {c t : Term .bool}

namespace Term

variable (v : Valuation) {a b : Term .bool}

/-! ## §1. Literals and connectives -/

@[simp] theorem eval_yes : Term.yes.eval v := rfl

@[simp] theorem eval_no : Term.no.eval v = false := rfl

@[simp] theorem eval_boolLit (b : Bool) : (boolLit b).eval v = b := rfl

@[simp] theorem eval_intLit (n : Int) : (intLit n).eval v = n := rfl

@[simp] theorem eval_boolVar (name : String) : (boolVar name).eval v = v.bool name := rfl

@[simp] theorem eval_intVar (name : String) : (intVar name).eval v = v.int name := rfl

@[simp] theorem eval_bitsVar (name : String) (w : Nat) :
    (bitsVar name w).eval v = v.bits name % 2 ^ w := rfl

@[simp] theorem eval_bitsLit (n w : Nat) : (bitsLit n w).eval v = n % 2 ^ w := rfl

@[simp] theorem eval_not (t : Term .bool) : (not t).eval v = !(t.eval v) := rfl

@[simp] theorem eval_implies (a b : Term .bool) :
    (implies a b).eval v = (!(a.eval v) || b.eval v) := rfl

@[simp] theorem eval_ite {ty : Ty} (c : Term .bool) (a b : Term ty) :
    (ite c a b).eval v = if c.eval v then a.eval v else b.eval v := by
  show (bif c.eval v then a.eval v else b.eval v) = _
  cases c.eval v <;> rfl

theorem evalBools_eq (ts : List (Term .bool)) : evalBools v ts = ts.map (eval v) := by
  induction ts with
  | nil => rfl
  | cons t rest ih =>
    show eval v t :: evalBools v rest = _
    rw [ih, map_cons]

theorem evalInts_eq (ts : List (Term .int)) : evalInts v ts = ts.map (eval v) := by
  induction ts with
  | nil => rfl
  | cons t rest ih =>
    show eval v t :: evalInts v rest = _
    rw [ih, map_cons]

@[simp] theorem eval_and (ts : List (Term .bool)) :
    (and ts).eval v = ts.all fun t => t.eval v := by
  show (evalBools v ts).all id = _
  rw [evalBools_eq, all_map]
  rfl

@[simp] theorem eval_or (ts : List (Term .bool)) :
    (or ts).eval v = ts.any fun t => t.eval v := by
  show (evalBools v ts).any id = _
  rw [evalBools_eq, any_map]
  rfl

/-! ## §2. Equations and comparisons -/

@[simp] theorem eval_eq {ty : Ty} (a b : Term ty) :
    (eq a b).eval v ↔ a.eval v = b.eval v := by
  cases ty with
  | bool => exact beq_iff_eq
  | int => exact decide_eq_true_iff
  | bits => exact beq_iff_eq

@[simp] theorem eval_le (a b : Term .int) : (le a b).eval v = decide (a.eval v ≤ b.eval v) := rfl

@[simp] theorem eval_ge (a b : Term .int) : (ge a b).eval v = decide (b.eval v ≤ a.eval v) := rfl

@[simp] theorem eval_lt (a b : Term .int) : (lt a b).eval v = decide (a.eval v < b.eval v) := rfl

@[simp] theorem eval_gt (a b : Term .int) : (gt a b).eval v = decide (b.eval v < a.eval v) := rfl

theorem holds_le {a b : Term .int} : (le a b).eval v ↔ a.eval v ≤ b.eval v := decide_eq_true_iff

theorem holds_ge {a b : Term .int} : (ge a b).eval v ↔ b.eval v ≤ a.eval v := decide_eq_true_iff

theorem holds_lt {a b : Term .int} : (lt a b).eval v ↔ a.eval v < b.eval v := decide_eq_true_iff

theorem holds_gt {a b : Term .int} : (gt a b).eval v ↔ b.eval v < a.eval v := decide_eq_true_iff

theorem holds_not : (not t).eval v ↔ t.eval v = false := by
  rw [eval_not, not_eq_true']

theorem holds_implies : (implies a b).eval v ↔ (a.eval v → b.eval v) := by
  rw [eval_implies]
  cases a.eval v <;> simp

theorem holds_ite : (ite c a b).eval v ↔ (c.eval v → a.eval v) ∧ (c.eval v = false → b.eval v) := by
  rw [eval_ite]
  cases c.eval v <;> simp

theorem holds_and : (and ts).eval v ↔ ∀ t ∈ ts, t.eval v := by
  rw [eval_and, all_eq_true]

theorem holds_and_two : (and [a, b]).eval v ↔ a.eval v ∧ b.eval v := by
  rw [holds_and, forall_mem_cons, forall_mem_singleton]

theorem holds_and_three : (and [a, b, c]).eval v ↔ a.eval v ∧ b.eval v ∧ c.eval v := by
  rw [holds_and, forall_mem_cons, forall_mem_cons, forall_mem_singleton]

@[simp] theorem eval_is (a : Term .int) (n : Int) : (a.is n).eval v ↔ a.eval v = n :=
  eval_eq v a (intLit n)

@[simp] theorem eval_add (a b : Term .int) : (add a b).eval v = a.eval v + b.eval v := by
  show a.eval v + (b.eval v + 0) = _
  rw [Int.add_zero]

@[simp] theorem eval_sub (a b : Term .int) : (sub a b).eval v = a.eval v - b.eval v := rfl

@[simp] theorem eval_bitsCompare (op : BitsComparison) (a b : Term .bits) :
    (bitsCompare op a b).eval v = op.holds (a.eval v) (b.eval v) := rfl

/-! ## §3. Short forms -/

theorem eval_of_literal {b : Bool} (h : t.literal? = some b) : t.eval v = b := by
  cases t with
  | boolLit value => exact Option.some.inj h
  | _ => exact absurd h (by simp [literal?])

/-- Leaving out operands that never hold keeps the value of a disjunction. -/
theorem any_kept (ts : List (Term .bool)) :
    ((ts.filter fun t => t.literal? != some false).any fun t => t.eval v) = ts.any fun t => t.eval v := by
  induction ts with
  | nil => rfl
  | cons t rest ih =>
    by_cases ht : t.literal? = some false
    · rw [filter_cons_of_neg (by simp [ht]), ih, any_cons, eval_of_literal v ht, Bool.false_or]
    · rw [filter_cons_of_pos (by simp [ht]), any_cons, ih, any_cons]

/-- Leaving out operands that always hold keeps the value of a conjunction. -/
theorem all_kept (ts : List (Term .bool)) :
    ((ts.filter fun t => t.literal? != some true).all fun t => t.eval v) = ts.all fun t => t.eval v := by
  induction ts with
  | nil => rfl
  | cons t rest ih =>
    by_cases ht : t.literal? = some true
    · rw [filter_cons_of_neg (by simp [ht]), ih, all_cons, eval_of_literal v ht, Bool.true_and]
    · rw [filter_cons_of_pos (by simp [ht]), all_cons, ih, all_cons]

@[simp] theorem eval_anyOf (ts : List (Term .bool)) :
    (anyOf ts).eval v = ts.any fun t => t.eval v := by
  rw [← any_kept, anyOf]
  split
  next h => rw [h]; rfl
  next h => rw [h]; simp
  next => rw [eval_or]

@[simp] theorem eval_allOf (ts : List (Term .bool)) :
    (allOf ts).eval v = ts.all fun t => t.eval v := by
  rw [← all_kept, allOf]
  split
  next h => rw [h]; rfl
  next h => rw [h]; simp
  next => rw [eval_and]

theorem holds_anyOf : (anyOf ts).eval v ↔ ∃ t ∈ ts, t.eval v := by
  rw [eval_anyOf, any_eq_true]

theorem holds_allOf : (allOf ts).eval v ↔ ∀ t ∈ ts, t.eval v := by
  rw [eval_allOf, all_eq_true]

/-! ## §4. Structural equality -/

mutual
theorem eq_of_same {a : Ty} (s : Term a) {b : Ty} (t : Term b) (h : s.same t) :
    (⟨a, s⟩ : Sigma Term) = ⟨b, t⟩ := by
  match s with
  | boolVar x | intVar x | boolLit x | intLit x =>
    cases t <;> simp only [same, beq_iff_eq, false_eq_true] at h
    rw [h]
  | bitsVar x w | bitsLit x w =>
    cases t <;> simp only [same, and_eq_true, beq_iff_eq, false_eq_true] at h
    rw [h.1, h.2]
  | and xs | or xs =>
    cases t <;> simp only [same, false_eq_true] at h
    rw [eq_of_sameBools xs _ h]
  | sum xs =>
    cases t <;> simp only [same, false_eq_true] at h
    rw [eq_of_sameInts xs _ h]
  | not x =>
    cases t <;> simp only [same, false_eq_true] at h
    cases eq_of_same x _ h
    rfl
  | implies x y | eq x y | sub x y =>
    cases t <;> simp only [same, and_eq_true, false_eq_true] at h
    have hx := eq_of_same x _ h.1
    have hy := eq_of_same y _ h.2
    cases hx
    cases hy
    rfl
  | ite c x y =>
    cases t <;> simp only [same, and_eq_true, false_eq_true] at h
    have hc := eq_of_same c _ h.1.1
    have hx := eq_of_same x _ h.1.2
    have hy := eq_of_same y _ h.2
    cases hc
    cases hx
    cases hy
    rfl
  | compare op x y | bitsCompare op x y =>
    cases t <;> simp only [same, and_eq_true, beq_iff_eq, false_eq_true] at h
    have hx := eq_of_same x _ h.1.2
    have hy := eq_of_same y _ h.2
    cases h.1.1
    cases hx
    cases hy
    rfl

theorem eq_of_sameBools (ss ts : List (Term .bool)) (h : sameBools ss ts) : ss = ts := by
  match ss, ts with
  | [], ts => exact (isEmpty_iff.1 h).symm
  | x :: xs, [] => exact absurd h (by simp [sameBools])
  | x :: xs, y :: ys =>
    simp only [sameBools, and_eq_true] at h
    cases eq_of_same x y h.1
    rw [eq_of_sameBools xs ys h.2]

theorem eq_of_sameInts (ss ts : List (Term .int)) (h : sameInts ss ts) : ss = ts := by
  match ss, ts with
  | [], ts => exact (isEmpty_iff.1 h).symm
  | x :: xs, [] => exact absurd h (by simp [sameInts])
  | x :: xs, y :: ys =>
    simp only [sameInts, and_eq_true] at h
    cases eq_of_same x y h.1
    rw [eq_of_sameInts xs ys h.2]
end

theorem eval_of_same {ty : Ty} {s t : Term ty} (h : s.same t) : s.eval v = t.eval v := by
  cases eq_of_same s t h
  rfl

end Term

end ControlPlane
