import ControlPlane.Document.Basic

/-!
# Reading documents from JSON text

A recursive descent over the characters.  A value or an item consumes at least one character and two steps
of fuel at most, so `parse?` starts with two steps for every character; what is left is always enough for the
characters that are left.
-/
namespace ControlPlane.Document

/-! ## §1. Tokens -/

def skipBlanks (cs : List Char) : List Char :=
  cs.dropWhile fun c => c == ' ' || c == '\n' || c == '\r' || c == '\t'

def hexValue? (c : Char) : Option Nat :=
  if '0' ≤ c && c ≤ '9' then some (c.toNat - 48)
  else if 'a' ≤ c && c ≤ 'f' then some (c.toNat - 87)
  else if 'A' ≤ c && c ≤ 'F' then some (c.toNat - 55)
  else none

def hexQuad? : List Char → Option (Nat × List Char)
  | a :: b :: c :: d :: rest => do
    let a ← hexValue? a
    let b ← hexValue? b
    let c ← hexValue? c
    let d ← hexValue? d
    return (4096 * a + 256 * b + 16 * c + d, rest)
  | _ => none

/-- The character of a code point; an unpaired surrogate becomes the replacement character. -/
def codeChar (n : Nat) : Char :=
  if 0xD800 ≤ n && n ≤ 0xDFFF then Char.ofNat 0xFFFD else Char.ofNat n

def escapeChar? (c : Char) : Option Char :=
  if c == 'n' then some '\n'
  else if c == 't' then some '\t'
  else if c == 'r' then some '\r'
  else if c == 'b' then some (Char.ofNat 8)
  else if c == 'f' then some (Char.ofNat 12)
  else if c == '/' || c == Text.doubleQuote || c == Text.backslash then some c
  else none

/-- The rest of a text after its opening quote, `acc` being the characters read so far in reverse. -/
def readText (fuel : Nat) (acc : List Char) (cs : List Char) : Option (String × List Char) :=
  match fuel, cs with
  | 0, _ => none
  | _, [] => none
  | fuel + 1, c :: rest =>
    if c == Text.doubleQuote then some (String.ofList acc.reverse, rest)
    else if c == Text.backslash then
      match rest with
      | 'u' :: rest => do
        let (high, rest) ← hexQuad? rest
        if 0xD800 ≤ high && high ≤ 0xDBFF then
          match rest with
          | b :: 'u' :: after =>
            if b == Text.backslash then
              let (low, after) ← hexQuad? after
              if 0xDC00 ≤ low && low ≤ 0xDFFF then
                readText fuel (Char.ofNat (0x10000 + (high - 0xD800) * 1024 + (low - 0xDC00)) :: acc) after
              else readText fuel (codeChar high :: acc) rest
            else readText fuel (codeChar high :: acc) rest
          | _ => readText fuel (codeChar high :: acc) rest
        else readText fuel (codeChar high :: acc) rest
      | e :: rest => do readText fuel ((← escapeChar? e) :: acc) rest
      | [] => none
    else if c.toNat < 0x20 then none
    else readText fuel (c :: acc) rest

def spanDigits (cs : List Char) : List Char × List Char := cs.span Char.isDigit

def digitsValue (ds : List Char) : Nat :=
  ds.foldl (fun acc c => 10 * acc + (c.toNat - 48)) 0

/-- No number of double precision is as great as ten to this power, and none but zero as small as one over it. -/
def maxPower : Nat := 400

/-- The number `mantissa * 10 ^ exponent`, where `mantissa` has some number of digits.  An exponent that makes it
greater than all numbers of double precision, or smaller, is cut off. -/
def realOf (mantissa exponent : Int) (digits : Nat) : Document :=
  real mantissa (max (-(maxPower + digits : Nat)) (min exponent maxPower))

/-- A number: sign, whole part without leading zeros, optional fraction and exponent. -/
def readNumber (cs : List Char) : Option (Document × List Char) :=
  let (negative, cs) := match cs with
    | '-' :: rest => (true, rest)
    | _ => (false, cs)
  let (whole, cs) := match cs with
    | '0' :: rest => (['0'], rest)
    | _ => spanDigits cs
  if whole.isEmpty then none
  else
    let (fraction, cs) := match cs with
      | '.' :: rest =>
        let (ds, after) := spanDigits rest
        if ds.isEmpty then ([], cs) else (ds, after)
      | _ => ([], cs)
    let (power, cs) := match cs with
      | e :: rest =>
        if e == 'e' || e == 'E' then
          let (minus, rest) := match rest with
            | '-' :: r => (true, r)
            | '+' :: r => (false, r)
            | _ => (false, rest)
          let (ds, after) := spanDigits rest
          if ds.isEmpty then (none, cs)
          else (some (if minus then -(digitsValue ds : Int) else digitsValue ds), after)
        else (none, cs)
      | _ => (none, cs)
    let magnitude : Int := digitsValue (whole ++ fraction)
    let mantissa := if negative then -magnitude else magnitude
    if fraction.isEmpty && power.isNone then some (int mantissa, cs)
    else some (realOf mantissa (power.getD 0 - fraction.length) (whole.length + fraction.length), cs)

def dropWord? (word : String) (cs : List Char) : Option (List Char) :=
  if word.toList.isPrefixOf cs then some (cs.drop word.length) else none

/-- A number beyond all others, which is read as one that no number of double precision reaches. -/
def readUnbounded (cs : List Char) : Option (Document × List Char) :=
  ((dropWord? "Infinity" cs).map fun after => (real 1 maxPower, after)).or
    ((dropWord? "-Infinity" cs).map fun after => (real (-1) maxPower, after))

/-! ## §2. Values -/

mutual
def readValue (fuel : Nat) (cs : List Char) : Option (Document × List Char) :=
  match fuel with
  | 0 => none
  | fuel + 1 =>
    match skipBlanks cs with
    | [] => none
    | '[' :: rest =>
      match skipBlanks rest with
      | ']' :: after => some (list [], after)
      | start => (readItems fuel start).map fun (items, after) => (list items, after)
    | '\x7b' :: rest =>
      match skipBlanks rest with
      | '\x7d' :: after => some (object [], after)
      | start => (readEntries fuel [] start).map fun (entries, after) => (object entries, after)
    | c :: rest =>
      if c == Text.doubleQuote then
        (readText fuel [] rest).map fun (s, after) => (text s, after)
      else if c == 'n' then (dropWord? "null" (c :: rest)).map fun after => (null, after)
      else if c == 't' then (dropWord? "true" (c :: rest)).map fun after => (bool true, after)
      else if c == 'f' then (dropWord? "false" (c :: rest)).map fun after => (bool false, after)
      else (readUnbounded (c :: rest)).or (readNumber (c :: rest))

/-- The items of a list up to its closing bracket; at least one is expected. -/
def readItems (fuel : Nat) (cs : List Char) : Option (List Document × List Char) :=
  match fuel with
  | 0 => none
  | fuel + 1 =>
    match readValue fuel cs with
    | none => none
    | some (item, rest) =>
      match skipBlanks rest with
      | ',' :: more => (readItems fuel more).map fun (items, after) => (item :: items, after)
      | ']' :: after => some ([item], after)
      | _ => none

/-- The entries of an object up to its closing brace; at least one is expected. -/
def readEntries (fuel : Nat) (done : List (String × Document)) (cs : List Char) :
    Option (List (String × Document) × List Char) :=
  match fuel with
  | 0 => none
  | fuel + 1 =>
    match skipBlanks cs with
    | q :: rest =>
      if q == Text.doubleQuote then
        match readText fuel [] rest with
        | none => none
        | some (name, rest) =>
          match skipBlanks rest with
          | ':' :: rest =>
            match readValue fuel rest with
            | none => none
            | some (value, rest) =>
              let done := setEntry name value done
              match skipBlanks rest with
              | ',' :: more => readEntries fuel done more
              | '\x7d' :: after => some (done, after)
              | _ => none
          | _ => none
      else none
    | [] => none
end

def parse? (s : String) : Option Document :=
  let cs := s.toList
  match readValue (2 * cs.length + 2) cs with
  | some (d, rest) => if (skipBlanks rest).isEmpty then some d else none
  | none => none

end ControlPlane.Document
