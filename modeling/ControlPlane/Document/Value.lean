import ControlPlane.Document.Basic

/-!
# Documents as values

What can be asked of a document whatever it holds: whether two are the same value, whether some are in order,
and which integer one writes.

* `Document.same` compares numbers by value, whether they are written with a point or as a truth value, and
  objects by their entries in any order.
* `Document.isScalar` holds of the documents that can be collected in a set or name something.
* `Document.le` orders numbers among each other and texts among each other; nothing else has an order.
-/
namespace ControlPlane.Document

/-! ## §1. Equality -/

/-- The number that a document is, as a mantissa and an exponent of ten; truth values are numbers. -/
def number? : Document → Option (Int × Int)
  | bool b => some (if b then 1 else 0, 0)
  | int n => some (n, 0)
  | real m e => some (m, e)
  | _ => none

/-- A number as a whole number of units of ten to the power `least`. -/
def scaled (n : Int × Int) (least : Int) : Int := n.1 * (Nat.pow 10 (n.2 - least).toNat : Nat)

def numberLe (a b : Int × Int) : Bool :=
  let least := min a.2 b.2
  decide (scaled a least ≤ scaled b least)

def numberEq (a b : Int × Int) : Bool :=
  let least := min a.2 b.2
  scaled a least == scaled b least

mutual
def same : Document → Document → Bool
  | null, null => true
  | text s, text t => s == t
  | list xs, list ys => sameItems xs ys
  | object es, object fs => es.length == fs.length && sameEntries es fs
  | bool b, d => (d.number?.map (numberEq (if b then 1 else 0, 0))).getD false
  | int n, d => (d.number?.map (numberEq (n, 0))).getD false
  | real m e, d => (d.number?.map (numberEq (m, e))).getD false
  | _, _ => false

def sameItems : List Document → List Document → Bool
  | [], [] => true
  | x :: xs, y :: ys => x.same y && sameItems xs ys
  | _, _ => false

def sameEntries : List (String × Document) → List (String × Document) → Bool
  | [], _ => true
  | (name, d) :: rest, fs =>
    (match fs.lookup name with
      | some e => d.same e
      | none => false) && sameEntries rest fs
end

instance : BEq Document where
  beq := same

/-! ## §2. Sets and order -/

def isScalar : Document → Bool
  | list _ => false
  | object _ => false
  | _ => true

def text? : Document → Option String
  | text s => some s
  | _ => none

/-- Whether documents can be put in order: one alone, numbers only, or texts only. -/
def areOrdered (items : List Document) : Bool :=
  items.length ≤ 1 || (items.all fun d => d.number?.isSome) || items.all fun d => d.text?.isSome

def le : Document → Document → Bool
  | text s, text t => decide (s ≤ t)
  | a, b => match a.number?, b.number? with
    | some m, some n => numberLe m n
    | _, _ => true

/-! ## §3. Integers -/

def digitsIn (cs : List Char) : Nat :=
  (cs.filter Char.isDigit).foldl (fun acc c => 10 * acc + (c.toNat - 48)) 0

def isExponentMark (c : Char) : Bool := c == 'e' || c == 'E'

def isNumeralChar (c : Char) : Bool :=
  c.isDigit || isExponentMark c || ['-', '+', ' ', '\n', '.', '/'].contains c

def maxExponent : Nat := 4300

/-- The size of the number that a text writes, as a numerator and a denominator: digits, a point with places or
a bar with a denominator, and an exponent of ten.  Other characters between the digits do not count. -/
def textRatio (cs : List Char) : Nat × Nat :=
  let (mantissa, tail) := cs.span fun c => !isExponentMark c
  let (front, back) := mantissa.span fun c => c != '.' && c != '/'
  let ratio := match back with
    | '.' :: places => (digitsIn (front ++ places), Nat.pow 10 (places.filter Char.isDigit).length)
    | '/' :: below => (digitsIn front, digitsIn below)
    | _ => (digitsIn front, 1)
  let power := Nat.pow 10 (min (digitsIn tail) maxExponent)
  if tail.contains '-' then (ratio.1, ratio.2 * power) else (ratio.1 * power, ratio.2)

/-- The integer that a text writes; a minus at its start makes it negative. -/
def textInteger? (s : String) : Option Int :=
  let cs := s.toList
  let (size, unit) := textRatio cs
  if !cs.all isNumeralChar || unit == 0 || size % unit != 0 then none
  else some (if (cs.dropWhile (· == ' ')).head? == some '-' then -(size / unit : Nat) else (size / unit : Nat))

end ControlPlane.Document
