import ControlPlane.Term.Basic

/-!
# The meaning of terms

A valuation gives a value to every variable; a term then has a value of its sort.  A bit vector is the
number it writes, and a variable of some width takes that many low bits of its value.
-/
namespace ControlPlane

structure Valuation where
  bool : String → Bool
  int : String → Int
  bits : String → Nat

/-- The values of a sort. -/
abbrev Ty.Carrier : Ty → Type
  | .bool => Bool
  | .int => Int
  | .bits => Nat

def Ty.equal : (ty : Ty) → ty.Carrier → ty.Carrier → Bool
  | .bool, a, b => a == b
  | .int, a, b => decide (a = b)
  | .bits, a, b => a == b

def Comparison.holds : Comparison → Int → Int → Bool
  | .le, a, b => decide (a ≤ b)
  | .ge, a, b => decide (b ≤ a)
  | .lt, a, b => decide (a < b)
  | .gt, a, b => decide (b < a)

def BitsComparison.holds : BitsComparison → Nat → Nat → Bool
  | .le, a, b => decide (a ≤ b)
  | .ge, a, b => decide (b ≤ a)
  | .lt, a, b => decide (a < b)

namespace Term

mutual
def eval (v : Valuation) {ty : Ty} (t : Term ty) : ty.Carrier :=
  match t with
  | boolVar name => v.bool name
  | intVar name => v.int name
  | bitsVar name width => v.bits name % Nat.pow 2 width
  | boolLit b => b
  | intLit n => n
  | bitsLit value width => value % Nat.pow 2 width
  | and ts => (evalBools v ts).all id
  | or ts => (evalBools v ts).any id
  | not t => Bool.not (eval v t)
  | implies a b => Bool.or (Bool.not (eval v a)) (eval v b)
  | ite c a b => bif eval v c then eval v a else eval v b
  | @eq ty a b => ty.equal (eval v a) (eval v b)
  | compare op a b => op.holds (eval v a) (eval v b)
  | sum ts => (evalInts v ts).foldr Int.add 0
  | sub a b => Int.sub (eval v a) (eval v b)
  | bitsCompare op a b => op.holds (eval v a) (eval v b)
termination_by structural t

def evalBools (v : Valuation) (ts : List (Term .bool)) : List Bool :=
  match ts with
  | [] => []
  | t :: rest => eval v t :: evalBools v rest
termination_by structural ts

def evalInts (v : Valuation) (ts : List (Term .int)) : List Int :=
  match ts with
  | [] => []
  | t :: rest => eval v t :: evalInts v rest
termination_by structural ts
end

end Term

end ControlPlane
