import ControlPlane.Address.Basic

/-!
# Subnets

A subnet is the set of addresses that share their first `length` bits with `base`.  The remaining bits of
`base` are zero, which the type guarantees, so two subnets are equal exactly when they are the same set at
the same length.

* `Subnet.around` clears the host bits of any address.
* `Subnet.contains` and `Subnet.overlaps` compare through the first and the last address.
-/
namespace ControlPlane

def blockSize (length : Nat) : Nat := Nat.pow 2 (32 - length)

/-- Addresses that agree on their first `length` bits. -/
structure Subnet where
  base : Nat
  length : Nat
  base_lt : base < addressSpace
  length_le : length ≤ 32
  /-- The bits after the first `length` are zero. -/
  aligned : base % blockSize length = 0
  deriving Repr

namespace Subnet

theorem eq_of_base_length : {s t : Subnet} → s.base = t.base → s.length = t.length → s = t
  | ⟨_, _, _, _, _⟩, ⟨_, _, _, _, _⟩, rfl, rfl => rfl

instance : DecidableEq Subnet := fun s t =>
  match decEq s.base t.base, decEq s.length t.length with
  | isTrue hb, isTrue hl => isTrue (eq_of_base_length hb hl)
  | isFalse hb, _ => isFalse fun h => hb (congrArg base h)
  | _, isFalse hl => isFalse fun h => hl (congrArg length h)

/-! ## §1. Building -/

def around (a : Address) (length : Nat) (h : length ≤ 32) : Subnet where
  base := a.value / blockSize length * blockSize length
  length := length
  base_lt := Nat.lt_of_le_of_lt (Nat.div_mul_le_self _ _) a.isLt
  length_le := h
  aligned := Nat.mul_mod_left _ _

def single (a : Address) : Subnet := around a 32 (Nat.le_refl 32)

def ofOctets (a b c d length : Nat) : Subnet := around (.ofOctets a b c d) (min length 32) (Nat.min_le_right _ _)

/-! ## §2. Membership -/

def first (s : Subnet) : Nat := s.base

def last (s : Subnet) : Nat := s.base + blockSize s.length - 1

def contains (s : Subnet) (x : Nat) : Bool := s.first ≤ x && x ≤ s.last

/-- Whether two subnets have an address in common: an end of one lies in the other. -/
def overlaps (s t : Subnet) : Bool :=
  s.contains t.first || s.contains t.last || t.contains s.first || t.contains s.last

/-! ## §3. Written form -/

def written (s : Subnet) : String :=
  (Address.mk s.base s.base_lt).dotted ++ "/" ++ toString s.length

def maskLength? (mask : Nat) : Option Nat :=
  (List.range 33).find? fun n => mask == addressSpace - blockSize n

/-- The length that a mask gives: a number of bits, a netmask or a hostmask. -/
def readMask (mask : String) : Option Nat :=
  let cs := mask.toList
  let asLength := if Text.asciiDigits cs then (Text.decimal? cs).filter (· ≤ 32) else none
  match asLength with
  | some n => some n
  | none =>
    match Address.ofText mask with
    | .error _ => none
    | .ok a => (maskLength? a.value).or (maskLength? (addressSpace - 1 - a.value))

structure Host where
  address : Address
  length : Nat
  length_le : length ≤ 32
  deriving Repr

theorem Host.eq_of_address_length : {g h : Host} → g.address = h.address → g.length = h.length → g = h
  | ⟨_, _, _⟩, ⟨_, _, _⟩, rfl, rfl => rfl

instance : DecidableEq Host := fun g h =>
  match decEq g.address h.address, decEq g.length h.length with
  | isTrue ha, isTrue hl => isTrue (Host.eq_of_address_length ha hl)
  | isFalse ha, _ => isFalse fun e => ha (congrArg Host.address e)
  | _, isFalse hl => isFalse fun e => hl (congrArg Host.length e)

def Host.ofOctets (a b c d length : Nat) : Host := ⟨.ofOctets a b c d, min length 32, Nat.min_le_right _ _⟩

def Host.subnet (h : Host) : Subnet := around h.address h.length h.length_le

def Host.written (h : Host) : String := h.address.dotted ++ "/" ++ toString h.length

/-- An address with an optional mask; without one the length is 32.  The address is read before the
mask. -/
def readHost (s : String) (whole : String) : Except Failure Host :=
  match s.toList.splitOn '/' with
  | [address] => do
    let a ← (Address.ofText (String.ofList address)).mapError Failure.address
    return ⟨a, 32, Nat.le_refl 32⟩
  | [address, mask] => do
    let a ← (Address.ofText (String.ofList address)).mapError Failure.address
    let mask := String.ofList mask
    match readMask mask with
    | none => throw (.netmask (Text.quoted mask))
    | some n => if h : n ≤ 32 then return ⟨a, n, h⟩ else throw (.netmask (Text.quoted mask))
  | _ => throw (.address (.slashes whole))

def hostOfDocument (d : Document) : Except Failure Host :=
  match d with
  | .int n => do
    let a ← (Address.ofInt n).mapError Failure.address
    return ⟨a, 32, Nat.le_refl 32⟩
  | .bool b => do
    let a ← (Address.ofInt (if b then 1 else 0)).mapError Failure.address
    return ⟨a, 32, Nat.le_refl 32⟩
  | d => readHost d.shown d.quoted

def ofDocument (d : Document) : Except Failure Subnet := (hostOfDocument d).map Host.subnet

def ofText (s : String) : Except Failure Subnet := ofDocument (.text s)

/-- The subnet around an address given by numbers, both of which may be out of range. -/
def ofInts (address length : Int) : Except Failure Subnet := do
  let a ← (Address.ofInt address).mapError Failure.address
  if length < 0 then throw (.netmask (toString length))
  else if h : length.toNat ≤ 32 then return around a length.toNat h
  else throw (.netmask (toString length))

end Subnet

end ControlPlane
