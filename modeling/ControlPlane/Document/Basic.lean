import ControlPlane.Text.Quoted

/-!
# Documents

Values of a description language: null, truth values, numbers, texts, lists and objects whose entries
keep the order in which they were written.  A document has two texts: `shown` is how it reads on its own,
`quoted` how it reads inside a list or an object, where a text stands between quotes.
-/
namespace ControlPlane

inductive Document where
  | null
  | bool (value : Bool)
  | int (value : Int)
  /-- A number written with a point or an exponent: `mantissa` times ten to the `exponent`. -/
  | real (mantissa exponent : Int)
  | text (value : String)
  | list (items : List Document)
  /-- Entries in the order written; a name occurs once. -/
  | object (entries : List (String × Document))
  deriving Inhabited

namespace Document

/-! ## §1. Texts -/

/-- A number with a decimal point. -/
def realText (mantissa exponent : Int) : String :=
  let sign := if mantissa < 0 then "-" else ""
  let digits := toString mantissa.natAbs
  if 0 ≤ exponent then sign ++ digits ++ String.ofList (List.replicate exponent.toNat '0') ++ ".0"
  else
    let places := exponent.natAbs
    let padded := String.ofList (List.replicate (places + 1 - digits.length) '0') ++ digits
    let cs := padded.toList
    sign ++ String.ofList (cs.take (cs.length - places)) ++ "." ++
      String.ofList (cs.drop (cs.length - places))

mutual
/-- The text inside a list or an object. -/
def quoted : Document → String
  | null => "None"
  | bool true => "True"
  | bool false => "False"
  | int n => toString n
  | real m e => realText m e
  | text s => Text.quoted s
  | list items => "[" ++ ", ".intercalate (quotedItems items) ++ "]"
  | object entries => "\x7b" ++ ", ".intercalate (quotedEntries entries) ++ "\x7d"

def quotedItems : List Document → List String
  | [] => []
  | d :: rest => d.quoted :: quotedItems rest

def quotedEntries : List (String × Document) → List String
  | [] => []
  | (name, d) :: rest => (Text.quoted name ++ ": " ++ d.quoted) :: quotedEntries rest
end

def shown : Document → String
  | text s => s
  | d => d.quoted

/-! ## §2. Views -/

/-- Everything but null, false, zero and the empty texts, lists and objects. -/
def truthy : Document → Bool
  | null => false
  | bool b => b
  | int n => n != 0
  | real m _ => m != 0
  | text s => !s.isEmpty
  | list items => !items.isEmpty
  | object entries => !entries.isEmpty

/-- The second document when the first one is true, and the first one otherwise. -/
def both (a b : Document) : Document := if a.truthy then b else a

def entry? (name : String) : Document → Option Document
  | object entries => entries.lookup name
  | _ => none

/-- What iterating over a document yields: the items of a list, the characters of a text, the names of
an object.  Nothing else can be iterated. -/
def elements? : Document → Option (List Document)
  | list items => some items
  | text s => some (s.toList.map fun c => text (String.ofList [c]))
  | object entries => some (entries.map fun e => text e.1)
  | _ => none

/-- Sets an entry: a name that is there keeps its place and takes the new value. -/
def setEntry (name : String) (value : Document) : List (String × Document) → List (String × Document)
  | [] => [(name, value)]
  | (n, v) :: rest => if n == name then (n, value) :: rest else (n, v) :: setEntry name value rest

end Document

end ControlPlane
