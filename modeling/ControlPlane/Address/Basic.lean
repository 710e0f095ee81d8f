import ControlPlane.Failure

/-!
# IPv4 addresses

An address is a number below 2^32, written as four octets.  The written form is strict: decimal digits of
ASCII, at most three of them, no leading zero, at most 255.
-/
namespace ControlPlane

abbrev addressSpace : Nat := 4294967296

structure Address where
  value : Nat
  isLt : value < addressSpace
  deriving DecidableEq, Repr

namespace Address

/-! ## §1. Writing -/

/-- Octet `i` of an address, the most significant being octet 3. -/
def octet (a : Address) (i : Nat) : Nat := a.value / Nat.pow 256 i % 256

def dotted (a : Address) : String :=
  toString (a.octet 3) ++ "." ++ toString (a.octet 2) ++ "." ++ toString (a.octet 1) ++ "." ++
    toString (a.octet 0)

/-! ## §2. Reading -/

def readOctet (cs : List Char) : Except OctetFault Nat :=
  let s := String.ofList cs
  if cs.isEmpty then .error .empty
  else if !Text.asciiDigits cs then .error (.notDecimal s)
  else if 3 < cs.length then .error (.tooLong s)
  else if 1 < cs.length && cs.head? == some '0' then .error (.leadingZero s)
  else
    let n := (Text.decimal? cs).getD 0
    if 255 < n then .error (.tooLarge n) else .ok n

def ofOctets (a b c d : Nat) : Address :=
  ⟨16777216 * (a % 256) + 65536 * (b % 256) + 256 * (c % 256) + d % 256, by
    have := Nat.mod_lt a (by decide : 256 > 0)
    have := Nat.mod_lt b (by decide : 256 > 0)
    have := Nat.mod_lt c (by decide : 256 > 0)
    have := Nat.mod_lt d (by decide : 256 > 0)
    show _ < 4294967296
    omega⟩

def ofText (s : String) : Except AddressFault Address :=
  if s.isEmpty then .error .empty
  else
    match s.toList.splitOn '.' with
    | [a, b, c, d] =>
      match [a, b, c, d].mapM readOctet with
      | .ok [a, b, c, d] => .ok (ofOctets a b c d)
      | .ok _ => .error (.octetCount s)
      | .error fault => .error (.octet fault s)
    | _ => .error (.octetCount s)

def ofInt (n : Int) : Except AddressFault Address :=
  if n < 0 then .error (.negative n)
  else if h : n.toNat < addressSpace then .ok ⟨n.toNat, h⟩
  else .error (.tooLarge n)

def ofDocument (d : Document) : Except Failure Address :=
  match d with
  | .int n => (ofInt n).mapError Failure.address
  | .bool b => (ofInt (if b then 1 else 0)).mapError Failure.address
  | d =>
    let s := d.shown
    if s.toList.contains '/' then .error (.address (.slash d.quoted))
    else (ofText s).mapError Failure.address

end Address

end ControlPlane
