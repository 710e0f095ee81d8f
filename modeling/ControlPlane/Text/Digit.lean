/-!
# Digits of every script

A decimal digit is a character of one of the ten-element runs that start at a zero; besides those there
are characters, such as superscripts and circled numbers, that count as digits but have no place in a
numeral.  `decimalValue?` reads the first kind, `isDigit` recognises both.
-/
namespace ControlPlane.Text

/-! ## §1. Tables -/

/-- The code points of the zeros: each starts a run of the ten decimal digits of one script. -/
def decimalZeros : List Nat :=
  [0x30, 0x660, 0x6F0, 0x7C0, 0x966, 0x9E6, 0xA66, 0xAE6, 0xB66, 0xBE6, 0xC66, 0xCE6, 0xD66, 0xDE6,
   0xE50, 0xED0, 0xF20, 0x1040, 0x1090, 0x17E0, 0x1810, 0x1946, 0x19D0, 0x1A80, 0x1A90, 0x1B50,
   0x1BB0, 0x1C40, 0x1C50, 0xA620, 0xA8D0, 0xA900, 0xA9D0, 0xA9F0, 0xAA50, 0xABF0, 0xFF10, 0x104A0,
   0x10D30, 0x11066, 0x110F0, 0x11136, 0x111D0, 0x112F0, 0x11450, 0x114D0, 0x11650, 0x116C0, 0x11730,
   0x118E0, 0x11950, 0x11C50, 0x11D50, 0x11DA0, 0x16A60, 0x16AC0, 0x16B50, 0x1D7CE, 0x1D7D8, 0x1D7E2,
   0x1D7EC, 0x1D7F6, 0x1E140, 0x1E2F0, 0x1E950, 0x1FBF0]

/-- A class of numbers is written as the lengths of the stretches outside of and inside it, in turn. -/
def inRuns : List Nat → Nat → Bool
  | gap :: run :: rest, n => gap ≤ n && (n < gap + run || inRuns rest (n - gap - run))
  | _, _ => false

/-- The digits that stand outside of every ten: superscripts, subscripts, circled and otherwise
decorated digits, as `inRuns` reads them. -/
def decoratedDigits : List Nat :=
  [178, 2, 5, 1, 4783, 9, 1640, 1, 1685, 1, 3, 6, 6, 10, 982, 9, 11, 9, 11, 9, 89, 1, 10, 9, 1, 1,
   630, 9, 1, 9, 1, 9, 58029, 4, 1052, 9, 489, 9, 57509, 11]

/-! ## §2. Reading -/

def decimalValue? (c : Char) : Option Nat :=
  (decimalZeros.find? fun z => z ≤ c.toNat && c.toNat < z + 10).map (c.toNat - ·)

def isDigit (c : Char) : Bool :=
  (decimalValue? c).isSome || inRuns decoratedDigits c.toNat

def maxDigits : Nat := 4300

/-- Why a text writes no number. -/
inductive NumeralFault where
  /-- Something in it is no decimal digit. -/
  | notDecimal
  | tooLong (digits : Nat)
  deriving DecidableEq, Repr

/-- The number that a non-empty run of decimal digits writes, most significant first. -/
def numeral (digits : List Char) : Except NumeralFault Nat :=
  match digits with
  | [] => .error .notDecimal
  | _ =>
    match go 0 digits with
    | none => .error .notDecimal
    | some n => if digits.length ≤ maxDigits then .ok n else .error (.tooLong digits.length)
where
  /-- `acc` is the number written so far. -/
  go (acc : Nat) : List Char → Option Nat
    | [] => some acc
    | c :: rest => (decimalValue? c).bind fun d => go (10 * acc + d) rest

def decimal? (digits : List Char) : Option Nat := (numeral digits).toOption

def asciiDigits (s : List Char) : Bool :=
  !s.isEmpty && s.all fun c => '0' ≤ c && c ≤ '9'

def isBlank (c : Char) : Bool :=
  c == ' ' || ('\t' ≤ c && c ≤ '\r') || (0x1C ≤ c.toNat && c.toNat ≤ 0x1F) || c.toNat == 0x85 ||
  c.toNat == 0xA0 || c.toNat == 0x1680 || (0x2000 ≤ c.toNat && c.toNat ≤ 0x200A) ||
  c.toNat == 0x2028 || c.toNat == 0x2029 || c.toNat == 0x202F || c.toNat == 0x205F || c.toNat == 0x3000

/-- Removes single underscores that stand between two digits; any other underscore is refused. -/
def joinDigits? : List Char → Option (List Char)
  | [] => some []
  | c :: '_' :: d :: rest =>
    if c == '_' || d == '_' then none else (joinDigits? (d :: rest)).map (c :: ·)
  | c :: rest => if c == '_' then none else (joinDigits? rest).map (c :: ·)

/-- An integer as it is given on a command line: blanks around it, an optional sign, decimal digits
that may be grouped by single underscores. -/
def integer? (s : String) : Option Int :=
  let core := ((s.toList.dropWhile isBlank).reverse.dropWhile isBlank).reverse
  match core with
  | '-' :: rest => (magnitude rest).map fun n => -(n : Int)
  | '+' :: rest => (magnitude rest).map fun n => (n : Int)
  | rest => (magnitude rest).map fun n => (n : Int)
where
  /-- The unsigned part. -/
  magnitude (s : List Char) : Option Nat := (joinDigits? s).bind decimal?

end ControlPlane.Text
