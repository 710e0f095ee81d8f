import ControlPlane.Text.Printed

/-!
# Quoted text

How a text is shown inside a message: between apostrophes, or between double quotes when it holds an
apostrophe and no double quote.  The quote and the backslash are escaped, and so is every character that
has no printed form.
-/
namespace ControlPlane.Text

def apostrophe : Char := Char.ofNat 39

def doubleQuote : Char := Char.ofNat 34

def backslash : Char := Char.ofNat 92

/-- `n` in base sixteen with lower case digits, padded with zeros to `width`. -/
def hex (width n : Nat) : String :=
  let digits := Nat.toDigits 16 n
  String.ofList (List.replicate (width - digits.length) '0' ++ digits)

def escapeChar (quote c : Char) : String :=
  if c == quote || c == backslash then String.ofList [backslash, c]
  else if c == '\n' then String.ofList [backslash, 'n']
  else if c == '\r' then String.ofList [backslash, 'r']
  else if c == '\t' then String.ofList [backslash, 't']
  else if isPrinted c then String.ofList [c]
  else if c.toNat < 0x100 then String.ofList [backslash, 'x'] ++ hex 2 c.toNat
  else if c.toNat < 0x10000 then String.ofList [backslash, 'u'] ++ hex 4 c.toNat
  else String.ofList [backslash, 'U'] ++ hex 8 c.toNat

def quoted (s : String) : String :=
  let cs := s.toList
  let quote := if cs.contains apostrophe && !cs.contains doubleQuote then doubleQuote else apostrophe
  String.ofList [quote] ++ String.join (cs.map (escapeChar quote)) ++ String.ofList [quote]

def quotedList (items : List String) : String :=
  "[" ++ ", ".intercalate (items.map quoted) ++ "]"

end ControlPlane.Text
