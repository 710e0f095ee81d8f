import ControlPlane.Failure

/-!
# Terms

The formulas of an encoding: booleans, integers and bit vectors, indexed by their sort so that every term
is well sorted.  Terms are kept as they were built, operand for operand; the only builders that drop
anything are `Term.anyOf` and `Term.allOf`, which leave out the operands that decide nothing.
-/
namespace ControlPlane

/-! ## §1. Sorts and terms -/

/-- The sort of a term. -/
inductive Ty where
  | bool
  | int
  | bits
  deriving DecidableEq, Repr

inductive Comparison where
  | le
  | ge
  | lt
  | gt
  deriving DecidableEq, Repr

inductive BitsComparison where
  | le
  | ge
  | lt
  deriving DecidableEq, Repr

/-- A formula of a given sort. -/
inductive Term : Ty → Type where
  | boolVar (name : String) : Term .bool
  | intVar (name : String) : Term .int
  | bitsVar (name : String) (width : Nat) : Term .bits
  | boolLit (value : Bool) : Term .bool
  | intLit (value : Int) : Term .int
  | bitsLit (value width : Nat) : Term .bits
  | and (operands : List (Term .bool)) : Term .bool
  | or (operands : List (Term .bool)) : Term .bool
  | not (operand : Term .bool) : Term .bool
  | implies (premise conclusion : Term .bool) : Term .bool
  | ite {ty : Ty} (condition : Term .bool) (yes no : Term ty) : Term ty
  | eq {ty : Ty} (left right : Term ty) : Term .bool
  | compare (op : Comparison) (left right : Term .int) : Term .bool
  | sum (operands : List (Term .int)) : Term .int
  | sub (left right : Term .int) : Term .int
  | bitsCompare (op : BitsComparison) (left right : Term .bits) : Term .bool

namespace Term

def yes : Term .bool := boolLit true

def no : Term .bool := boolLit false

/-- At most. -/
def le (left right : Term .int) : Term .bool := compare .le left right

/-- At least. -/
def ge (left right : Term .int) : Term .bool := compare .ge left right

/-- Less than. -/
def lt (left right : Term .int) : Term .bool := compare .lt left right

/-- Greater than. -/
def gt (left right : Term .int) : Term .bool := compare .gt left right

def add (left right : Term .int) : Term .int := sum [left, right]

def is (left : Term .int) (value : Int) : Term .bool := eq left (intLit value)

/-! ## §2. Structural equality -/

mutual
def same {a : Ty} (s : Term a) {b : Ty} (t : Term b) : Bool :=
  match s with
  | boolVar x => match t with
    | boolVar y => x == y
    | _ => false
  | intVar x => match t with
    | intVar y => x == y
    | _ => false
  | bitsVar x v => match t with
    | bitsVar y w => x == y && v == w
    | _ => false
  | boolLit x => match t with
    | boolLit y => x == y
    | _ => false
  | intLit x => match t with
    | intLit y => x == y
    | _ => false
  | bitsLit x v => match t with
    | bitsLit y w => x == y && v == w
    | _ => false
  | and xs => match t with
    | and ys => sameBools xs ys
    | _ => false
  | or xs => match t with
    | or ys => sameBools xs ys
    | _ => false
  | not x => match t with
    | not y => same x y
    | _ => false
  | implies x x' => match t with
    | implies y y' => same x y && same x' y'
    | _ => false
  | ite c x x' => match t with
    | ite d y y' => same c d && same x y && same x' y'
    | _ => false
  | eq x x' => match t with
    | eq y y' => same x y && same x' y'
    | _ => false
  | compare o x x' => match t with
    | compare p y y' => o == p && same x y && same x' y'
    | _ => false
  | sum xs => match t with
    | sum ys => sameInts xs ys
    | _ => false
  | sub x x' => match t with
    | sub y y' => same x y && same x' y'
    | _ => false
  | bitsCompare o x x' => match t with
    | bitsCompare p y y' => o == p && same x y && same x' y'
    | _ => false
termination_by structural s

def sameBools (ss ts : List (Term .bool)) : Bool :=
  match ss with
  | [] => ts.isEmpty
  | x :: xs => match ts with
    | [] => false
    | y :: ys => same x y && sameBools xs ys
termination_by structural ss

def sameInts (ss ts : List (Term .int)) : Bool :=
  match ss with
  | [] => ts.isEmpty
  | x :: xs => match ts with
    | [] => false
    | y :: ys => same x y && sameInts xs ys
termination_by structural ss
end

/-! ## §3. Short forms -/

def literal? : Term .bool → Option Bool
  | boolLit b => some b
  | _ => none

def anyOf (operands : List (Term .bool)) : Term .bool :=
  match operands.filter fun t => t.literal? != some false with
  | [] => no
  | [t] => t
  | rest => or rest

def anyKept : List (Term .bool) → Term .bool
  | [] => no
  | [t] => t
  | operands => or operands

/-- Every operand holds.  Operands that literally always hold are left out. -/
def allOf (operands : List (Term .bool)) : Term .bool :=
  match operands.filter fun t => t.literal? != some true with
  | [] => yes
  | [t] => t
  | rest => and rest

end Term

/-! ## §4. Variables -/

inductive VariableSort where
  | bool
  | int
  | bits (width : Nat)
  deriving DecidableEq, Repr

structure Variable where
  name : String
  sort : VariableSort
  deriving DecidableEq, Repr

def Variable.written (v : Variable) : String :=
  v.name ++ ":" ++ match v.sort with
    | .bool => "Bool"
    | .int => "Int"
    | .bits width => "BV" ++ toString width

end ControlPlane
