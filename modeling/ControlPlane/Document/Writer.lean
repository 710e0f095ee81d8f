import ControlPlane.Document.Basic

/-!
# Writing documents as JSON text

Two layouts: `compact`, on one line in entry order, and `pretty`, indented with the entries of every
object sorted by name.
-/
namespace ControlPlane.Document

def writeChar (c : Char) : String :=
  if c == Text.doubleQuote || c == Text.backslash then String.ofList [Text.backslash, c]
  else if c == '\n' then String.ofList [Text.backslash, 'n']
  else if c == '\r' then String.ofList [Text.backslash, 'r']
  else if c == '\t' then String.ofList [Text.backslash, 't']
  else if c.toNat < 0x20 then String.ofList [Text.backslash, 'u'] ++ Text.hex 4 c.toNat
  else String.ofList [c]

def writeText (s : String) : String :=
  let q := String.ofList [Text.doubleQuote]
  q ++ String.join (s.toList.map writeChar) ++ q

mutual
def compact : Document → String
  | null => "null"
  | bool true => "true"
  | bool false => "false"
  | int n => toString n
  | real m e => realText m e
  | text s => writeText s
  | list items => "[" ++ ",".intercalate (compactItems items) ++ "]"
  | object entries => "\x7b" ++ ",".intercalate (compactEntries entries) ++ "\x7d"

def compactItems : List Document → List String
  | [] => []
  | d :: rest => d.compact :: compactItems rest

def compactEntries : List (String × Document) → List String
  | [] => []
  | (name, d) :: rest => (writeText name ++ ":" ++ d.compact) :: compactEntries rest
end

/-- A new line followed by `depth` levels of two blanks. -/
def newLine (depth : Nat) : String := "\n" ++ String.ofList (List.replicate (2 * depth) ' ')

mutual
def pretty (depth : Nat) : Document → String
  | list items =>
    if items.isEmpty then "[]"
    else "[" ++ newLine (depth + 1) ++
      ("," ++ newLine (depth + 1)).intercalate (prettyItems (depth + 1) items) ++ newLine depth ++ "]"
  | object entries =>
    if entries.isEmpty then "\x7b\x7d"
    else "\x7b" ++ newLine (depth + 1) ++
      ("," ++ newLine (depth + 1)).intercalate
        ((prettyEntries (depth + 1) entries).mergeSort (fun a b => decide (a.1 ≤ b.1)) |>.map (·.2)) ++
      newLine depth ++ "\x7d"
  | d => d.compact

def prettyItems (depth : Nat) : List Document → List String
  | [] => []
  | d :: rest => d.pretty depth :: prettyItems depth rest

/-- The entries of an object over several lines, each with its name. -/
def prettyEntries (depth : Nat) : List (String × Document) → List (String × String)
  | [] => []
  | (name, d) :: rest => (name, writeText name ++ ": " ++ d.pretty depth) :: prettyEntries depth rest
end

end ControlPlane.Document
