import ControlPlane.Document.Decode
import ControlPlane.Protocol
import ControlPlane.Term.Ledger

/-!
# Enumerations

A variable over a short list of values, held in the fewest bits that can tell the values apart.  A list of
one value needs no variable at all; a list whose length is not a power of two bounds the bit vector, so
that it always stands for one of the values.
-/
namespace ControlPlane

/-- A variable over a list of values, the first of which is the default. -/
structure Enumeration (α : Type) where
  name : String
  values : List α
  /-- The bit vector that holds the place of the value; none when there is nothing to hold. -/
  bits : Option (Term .bits) := none

namespace Enumeration

/-- How many bits tell a number of values apart. -/
def widthFor (size : Nat) : Nat := if size ≤ 1 then 0 else Nat.log2 (size - 1) + 1

def fillsWidth (size : Nat) : Bool := size == Nat.pow 2 (widthFor size) || size == 0

variable {α : Type}

/-- The number of bits. -/
def width (e : Enumeration α) : Nat := widthFor e.values.length

/-- The constraint that a bit vector stands for one of some number of values. -/
def bound? (size : Nat) (bits : Term .bits) : Option (Term .bool) :=
  if fillsWidth size then none else some (.bitsCompare .le bits (.bitsLit (size - 1) (widthFor size)))

def create (name : String) (values : List α) : Build (Enumeration α) := do
  let size := values.length
  if widthFor size == 0 then return { name, values }
  else
    let bits ← Build.newBits name (widthFor size)
    Build.requireAll (bound? size bits).toList
    return { name, values, bits := some bits }

def withBits (e : Enumeration α) (bits : Term .bits) : Enumeration α := { e with bits := some bits }

def equal {β : Type} (e : Enumeration α) (f : Enumeration β) : Term .bool :=
  match e.bits, f.bits with
  | some a, some b => .eq a b
  | _, _ => .yes

def placeOf? [BEq α] (e : Enumeration α) (x : α) : Option Nat :=
  ((e.values.zipIdx.filter fun v => v.1 == x).getLast?).map (·.2)

def isValue [BEq α] (e : Enumeration α) (x : α) : Term .bool :=
  match e.bits with
  | none => .boolLit (e.values.head? == some x)
  | some bits =>
    if e.width == 0 then .no
    else match e.placeOf? x with
      | some i => .eq bits (.bitsLit i e.width)
      | none => .no

/-- A new enumeration of values of which only some, such as texts and numbers, can be told apart. -/
def createAmong (isScalar : α → Bool) (name : String) (values : List α) : Build (Enumeration α) := do
  if widthFor values.length == 0 || values.all isScalar then create name values else throw .shape

/-- The enumeration stands for a value that may be one that cannot be told apart. -/
def isAmong [BEq α] (isScalar : α → Bool) (e : Enumeration α) (x : α) : Except Failure (Term .bool) :=
  if e.bits.isNone || isScalar x then .ok (e.isValue x) else .error .shape

/-- A new enumeration of documents; where there is something to hold, lists and objects cannot be values. -/
def createOf (name : String) (values : List Document) : Build (Enumeration Document) :=
  createAmong Document.isScalar name values

def isDocument (e : Enumeration Document) (x : Document) : Except Failure (Term .bool) :=
  e.isAmong Document.isScalar x

def defaultLit (e : Enumeration α) : Term .bits := .bitsLit 0 (max e.width 1)

def isDefault (e : Enumeration α) : Term .bool :=
  match e.bits with
  | none => .yes
  | some bits => .eq bits e.defaultLit

def valueAt (e : Enumeration α) (i : Int) : Except Failure α :=
  let place := if i < 0 then i + e.values.length else i
  if place < 0 then .error .outOfRange
  else match e.values[place.toNat]? with
    | some x => .ok x
    | none => .error .outOfRange

/-- The text of an enumeration, values as `shown` tells. -/
def shown (shownValue : α → String) (e : Enumeration α) : String :=
  "SymbolicEnum(" ++ e.name ++ ", [" ++ ", ".intercalate (e.values.map shownValue) ++ "])"

end Enumeration

/-! ## OSPF types -/

namespace OspfType

def literal (t : OspfType) : Term .bits := .bitsLit t.rank 2

end OspfType

namespace Enumeration

def createOspfType (name : String) : Build (Enumeration OspfType) := create name OspfType.all

def ospfBits (e : Enumeration OspfType) : Term .bits := e.bits.getD (OspfType.literal .O)

def isExternal {α : Type} (e : Enumeration α) : Term .bool :=
  match e.bits with
  | none => .no
  | some bits => .bitsCompare .ge bits (.bitsLit 2 2)

def isInternal {α : Type} (e : Enumeration α) : Term .bool :=
  match e.bits with
  | none => .yes
  | some bits => .bitsCompare .le bits (.bitsLit 1 2)

end Enumeration

end ControlPlane
