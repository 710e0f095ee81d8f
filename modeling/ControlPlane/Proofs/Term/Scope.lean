import ControlPlane.Proofs.Term.Evaluation
import Mathlib.Logic.Basic

/-!
# The variables that a term is about

A term is *over* some variables when it mentions no others.  Their values then fix its value, so changing a
valuation at another variable leaves the term alone, which is what makes it harmless to define a new variable
by an equation.
-/
namespace ControlPlane

open List

variable {ts : List (Term .bool)} {xs ys : List Variable} {name : String} {u v w : Valuation} {x : Variable}

/-! ## §1. Agreement of valuations -/

namespace Valuation

def AgreesAt (v w : Valuation) (x : Variable) : Prop :=
  match x.sort with
  | .bool => v.bool x.name = w.bool x.name
  | .int => v.int x.name = w.int x.name
  | .bits _ => v.bits x.name = w.bits x.name

def AgreesOn (v w : Valuation) (xs : List Variable) : Prop := ∀ x ∈ xs, v.AgreesAt w x

theorem AgreesAt.refl (v : Valuation) (x : Variable) : v.AgreesAt v x := by
  unfold AgreesAt
  split <;> rfl

theorem AgreesAt.symm (h : v.AgreesAt w x) : w.AgreesAt v x := by
  unfold AgreesAt at h ⊢
  split <;> simp_all

theorem AgreesAt.trans (h : u.AgreesAt v x) (h' : v.AgreesAt w x) : u.AgreesAt w x := by
  unfold AgreesAt at h h' ⊢
  split <;> simp_all

theorem AgreesOn.refl (v : Valuation) (xs : List Variable) : v.AgreesOn v xs :=
  fun x _ => AgreesAt.refl v x

theorem AgreesOn.symm (h : v.AgreesOn w xs) :
    w.AgreesOn v xs :=
  fun x hx => (h x hx).symm

theorem AgreesOn.trans (h : u.AgreesOn v xs) (h' : v.AgreesOn w xs) : u.AgreesOn w xs :=
  fun x hx => (h x hx).trans (h' x hx)

theorem AgreesOn.mono (hs : xs ⊆ ys) (h : v.AgreesOn w ys) : v.AgreesOn w xs :=
  fun x hx => h x (hs hx)

def setBool (v : Valuation) (name : String) (b : Bool) : Valuation :=
  { v with bool := fun n => if n = name then b else v.bool n }

def setInt (v : Valuation) (name : String) (i : Int) : Valuation :=
  { v with int := fun n => if n = name then i else v.int n }

def setBits (v : Valuation) (name : String) (k : Nat) : Valuation :=
  { v with bits := fun n => if n = name then k else v.bits n }

theorem setBool_agreesOn (v : Valuation) (b : Bool) (h : name ∉ xs.map Variable.name) :
    v.AgreesOn (v.setBool name b) xs := by
  intro x hx
  have hne : x.name ≠ name := fun e => h (e ▸ mem_map_of_mem hx)
  unfold AgreesAt
  split <;> simp [setBool, hne]

theorem setInt_agreesOn (v : Valuation) (i : Int) (h : name ∉ xs.map Variable.name) :
    v.AgreesOn (v.setInt name i) xs := by
  intro x hx
  have hne : x.name ≠ name := fun e => h (e ▸ mem_map_of_mem hx)
  unfold AgreesAt
  split <;> simp [setInt, hne]

theorem setBits_agreesOn (v : Valuation) (k : Nat) (h : name ∉ xs.map Variable.name) :
    v.AgreesOn (v.setBits name k) xs := by
  intro x hx
  have hne : x.name ≠ name := fun e => h (e ▸ mem_map_of_mem hx)
  unfold AgreesAt
  split <;> simp [setBits, hne]

end Valuation

/-! ## §2. Terms over variables -/

namespace Term

mutual
def mentioned {ty : Ty} (t : Term ty) : List Variable :=
  match t with
  | boolVar x => [⟨x, .bool⟩]
  | intVar x => [⟨x, .int⟩]
  | bitsVar x n => [⟨x, .bits n⟩]
  | boolLit _ | intLit _ | bitsLit _ _ => []
  | and ts | or ts => mentionedBools ts
  | not a => mentioned a
  | implies a b | eq a b | compare _ a b | sub a b | bitsCompare _ a b => mentioned a ++ mentioned b
  | ite c a b => mentioned c ++ (mentioned a ++ mentioned b)
  | sum ts => mentionedInts ts
termination_by structural t

def mentionedBools (ts : List (Term .bool)) : List Variable :=
  match ts with
  | [] => []
  | t :: rest => mentioned t ++ mentionedBools rest
termination_by structural ts

def mentionedInts (ts : List (Term .int)) : List Variable :=
  match ts with
  | [] => []
  | t :: rest => mentioned t ++ mentionedInts rest
termination_by structural ts
end

def Within {ty : Ty} (P : Variable → Prop) (t : Term ty) : Prop := ∀ x ∈ t.mentioned, P x

/-- Every variable in the term is one of `xs`. -/
abbrev Over {ty : Ty} (xs : List Variable) (t : Term ty) : Prop := t.Within (· ∈ xs)

theorem Within.mono {ty : Ty} {t : Term ty} (hs : xs ⊆ ys) (h : t.Over xs) : t.Over ys := fun x hx => hs (h x hx)

mutual
theorem eval_of_mentioned {ty : Ty} (t : Term ty) (h : v.AgreesOn w t.mentioned) : t.eval v = t.eval w := by
  match t with
  | boolVar x => exact h ⟨x, .bool⟩ mem_cons_self
  | intVar x => exact h ⟨x, .int⟩ mem_cons_self
  | bitsVar x n => exact congrArg (· % Nat.pow 2 n) (h ⟨x, .bits n⟩ mem_cons_self)
  | boolLit _ | intLit _ | bitsLit _ _ => rfl
  | and ts => exact congrArg (List.all · id) (evalBools_of_mentioned ts h)
  | or ts => exact congrArg (List.any · id) (evalBools_of_mentioned ts h)
  | not a => exact congrArg Bool.not (eval_of_mentioned a h)
  | implies a b =>
    obtain ⟨ha, hb⟩ := forall_mem_append.1 h
    exact congrArg₂ (fun x y => Bool.or (Bool.not x) y) (eval_of_mentioned a ha) (eval_of_mentioned b hb)
  | ite c a b =>
    obtain ⟨hc, hab⟩ := forall_mem_append.1 h
    obtain ⟨ha, hb⟩ := forall_mem_append.1 hab
    rw [eval_ite, eval_ite, eval_of_mentioned c hc, eval_of_mentioned a ha, eval_of_mentioned b hb]
  | @eq s a b =>
    obtain ⟨ha, hb⟩ := forall_mem_append.1 h
    exact congrArg₂ s.equal (eval_of_mentioned a ha) (eval_of_mentioned b hb)
  | compare op a b =>
    obtain ⟨ha, hb⟩ := forall_mem_append.1 h
    exact congrArg₂ op.holds (eval_of_mentioned a ha) (eval_of_mentioned b hb)
  | sum ts => exact congrArg (List.foldr Int.add 0) (evalInts_of_mentioned ts h)
  | sub a b =>
    obtain ⟨ha, hb⟩ := forall_mem_append.1 h
    exact congrArg₂ Int.sub (eval_of_mentioned a ha) (eval_of_mentioned b hb)
  | bitsCompare op a b =>
    obtain ⟨ha, hb⟩ := forall_mem_append.1 h
    exact congrArg₂ op.holds (eval_of_mentioned a ha) (eval_of_mentioned b hb)
termination_by structural t

theorem evalBools_of_mentioned (ts : List (Term .bool)) (h : v.AgreesOn w (mentionedBools ts)) :
    evalBools v ts = evalBools w ts := by
  match ts with
  | [] => rfl
  | t :: rest =>
    obtain ⟨ht, hrest⟩ := forall_mem_append.1 h
    exact congrArg₂ List.cons (eval_of_mentioned t ht) (evalBools_of_mentioned rest hrest)
termination_by structural ts

theorem evalInts_of_mentioned (ts : List (Term .int)) (h : v.AgreesOn w (mentionedInts ts)) :
    evalInts v ts = evalInts w ts := by
  match ts with
  | [] => rfl
  | t :: rest =>
    obtain ⟨ht, hrest⟩ := forall_mem_append.1 h
    exact congrArg₂ List.cons (eval_of_mentioned t ht) (evalInts_of_mentioned rest hrest)
termination_by structural ts
end

variable {ty : Ty}

/-- **The values of its variables fix the value of a term.** -/
theorem Within.eval_eq {t : Term ty} (h : t.Over xs) (v w : Valuation) (hvw : v.AgreesOn w xs) : t.eval v = t.eval w :=
  eval_of_mentioned t (hvw.mono h)

variable {P : Variable → Prop}

@[simp] theorem within_boolVar {x : String} : (boolVar x).Within P ↔ P ⟨x, .bool⟩ := by simp [Within, mentioned]

@[simp] theorem within_intVar {x : String} : (intVar x).Within P ↔ P ⟨x, .int⟩ := by simp [Within, mentioned]

@[simp] theorem within_bitsVar {x : String} {n : Nat} : (bitsVar x n).Within P ↔ P ⟨x, .bits n⟩ := by
  simp [Within, mentioned]

@[simp] theorem within_boolLit (b : Bool) : (boolLit b).Within P := by simp [Within, mentioned]

@[simp] theorem within_yes : Term.yes.Within P := within_boolLit true

@[simp] theorem within_no : Term.no.Within P := within_boolLit false

@[simp] theorem within_intLit (n : Int) : (intLit n).Within P := by simp [Within, mentioned]

@[simp] theorem within_bitsLit (n w : Nat) : (bitsLit n w).Within P := by simp [Within, mentioned]

@[simp] theorem within_not {a : Term .bool} : (not a).Within P ↔ a.Within P := Iff.rfl

@[simp] theorem within_implies {a b : Term .bool} : (implies a b).Within P ↔ a.Within P ∧ b.Within P :=
  forall_mem_append

@[simp] theorem within_ite {c : Term .bool} {a b : Term ty} :
    (ite c a b).Within P ↔ c.Within P ∧ a.Within P ∧ b.Within P :=
  forall_mem_append.trans (and_congr_right fun _ => forall_mem_append)

@[simp] theorem within_eq {a b : Term ty} : (eq a b).Within P ↔ a.Within P ∧ b.Within P := forall_mem_append

@[simp] theorem within_compare {op : Comparison} {a b : Term .int} :
    (compare op a b).Within P ↔ a.Within P ∧ b.Within P :=
  forall_mem_append

@[simp] theorem within_sub {a b : Term .int} : (sub a b).Within P ↔ a.Within P ∧ b.Within P := forall_mem_append

@[simp] theorem within_bitsCompare {op : BitsComparison} {a b : Term .bits} :
    (bitsCompare op a b).Within P ↔ a.Within P ∧ b.Within P :=
  forall_mem_append

theorem forall_mem_mentionedBools : (∀ x ∈ mentionedBools ts, P x) ↔ ∀ t ∈ ts, t.Within P := by
  induction ts with
  | nil => simp [mentionedBools]
  | cons t rest ih => rw [mentionedBools, forall_mem_append, ih, forall_mem_cons, Within]

@[simp] theorem within_and {ts : List (Term .bool)} : (and ts).Within P ↔ ∀ t ∈ ts, t.Within P :=
  forall_mem_mentionedBools

@[simp] theorem within_or {ts : List (Term .bool)} : (or ts).Within P ↔ ∀ t ∈ ts, t.Within P :=
  forall_mem_mentionedBools

@[simp] theorem within_sum {ts : List (Term .int)} : (sum ts).Within P ↔ ∀ t ∈ ts, t.Within P := by
  show (∀ x ∈ mentionedInts ts, P x) ↔ _
  induction ts with
  | nil => simp [mentionedInts]
  | cons t rest ih => rw [mentionedInts, forall_mem_append, ih, forall_mem_cons, Within]

@[simp] theorem within_add {a b : Term .int} : (add a b).Within P ↔ a.Within P ∧ b.Within P := by simp [add]

@[simp] theorem within_is {a : Term .int} {i : Int} : (is a i).Within P ↔ a.Within P := by simp [is]

@[simp] theorem within_le {a b : Term .int} : (le a b).Within P ↔ a.Within P ∧ b.Within P := within_compare

@[simp] theorem within_ge {a b : Term .int} : (ge a b).Within P ↔ a.Within P ∧ b.Within P := within_compare

@[simp] theorem within_lt {a b : Term .int} : (lt a b).Within P ↔ a.Within P ∧ b.Within P := within_compare

@[simp] theorem within_gt {a b : Term .int} : (gt a b).Within P ↔ a.Within P ∧ b.Within P := within_compare

namespace Within

variable {a b : Term .int}

protected theorem not {a : Term .bool} (h : a.Within P) : (not a).Within P := h

protected theorem ite {c : Term .bool} {a b : Term ty} (hc : c.Within P) (ha : a.Within P) (hb : b.Within P) :
    (ite c a b).Within P :=
  within_ite.2 ⟨hc, ha, hb⟩

protected theorem eq {a b : Term ty} (ha : a.Within P) (hb : b.Within P) : (eq a b).Within P := within_eq.2 ⟨ha, hb⟩

protected theorem add (ha : a.Within P) (hb : b.Within P) : (add a b).Within P :=
  within_add.2 ⟨ha, hb⟩

protected theorem sub (ha : a.Within P) (hb : b.Within P) : (sub a b).Within P :=
  within_sub.2 ⟨ha, hb⟩

protected theorem compare {op : Comparison} (ha : a.Within P) (hb : b.Within P) : (compare op a b).Within P :=
  within_compare.2 ⟨ha, hb⟩

end Within

/-- Operands that are left out are literals. -/
theorem within_filter {b : Bool} :
    (∀ t ∈ ts.filter fun t => t.literal? != some b, t.Within P) ↔ ∀ t ∈ ts, t.Within P := by
  refine ⟨fun h t ht => ?_, fun h t ht => h t (mem_filter.1 ht).1⟩
  by_cases hlit : t.literal? = some b
  · unfold literal? at hlit
    split at hlit
    · exact within_boolLit _
    · cases hlit
  · exact h t (mem_filter.2 ⟨ht, by simpa using hlit⟩)

@[simp] theorem within_anyOf {ts : List (Term .bool)} : (anyOf ts).Within P ↔ ∀ t ∈ ts, t.Within P := by
  rw [← within_filter (b := false)]
  unfold anyOf
  split
  next h => simp [h]
  next h => simp [h]
  next => exact within_or

@[simp] theorem within_allOf {ts : List (Term .bool)} : (allOf ts).Within P ↔ ∀ t ∈ ts, t.Within P := by
  rw [← within_filter (b := true)]
  unfold allOf
  split
  next h => simp [h]
  next h => simp [h]
  next => exact within_and

@[simp] theorem within_anyKept {ts : List (Term .bool)} : (anyKept ts).Within P ↔ ∀ t ∈ ts, t.Within P := by
  unfold anyKept
  split <;> simp

end Term

end ControlPlane
