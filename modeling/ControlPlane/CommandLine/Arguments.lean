import ControlPlane.Document.Basic
import ControlPlane.Text.Search

/-!
# Command line arguments

Options and positional arguments.  An option may be shortened to any start that only it has, its value may
follow in the same argument, and flags of one letter can be written together.  An option that takes several
values takes all that follow.  Everything behind the first double dash is positional, and so are negative
numbers.

* `Spec.read` goes through the arguments from left to right, taking positional arguments where one is waited
  for.  A double dash belongs to the positional argument next to it; one that is left over is a fault.
* A double dash among the values of an argument does not count, so that a value which is nothing else leaves an
  empty list.
-/
namespace ControlPlane.CommandLine

/-! ## §1. Descriptions -/

/-- How many values an option takes. -/
inductive Arity where
  | none
  | one
  | many
  deriving DecidableEq, Repr

structure OptionSpec where
  /-- The spellings, with their dashes. -/
  names : List String
  arity : Arity
  isNumber : Bool := false
  deriving DecidableEq, Repr

def OptionSpec.key (o : OptionSpec) : String := o.names.getLast?.getD ""

def OptionSpec.accepts (o : OptionSpec) (values : List String) : Bool :=
  !o.isNumber || values.all fun v => (Text.integer? v).isSome

def helpOption : OptionSpec := { names := ["-h", "--help"], arity := .none }

/-- A command line. -/
structure Spec where
  options : List OptionSpec
  positionals : List (String → Bool)

structure Arguments where
  positionals : List (List String) := []
  /-- The values of every option that was given, the last ones first. -/
  options : List (String × List String) := []
  deriving DecidableEq, Repr

namespace Arguments

def values? (a : Arguments) (key : String) : Option (List String) := a.options.lookup key

/-- What a single value stands for: a text, or an empty list when only a double dash was given. -/
def single : List String → Document
  | [v] => .text v
  | values => .list (values.map .text)

def value (a : Arguments) (key : String) : Document := ((a.values? key).map single).getD .null

def number (a : Arguments) (key : String) (default : Int) : Document :=
  match a.values? key with
  | none => .int default
  | some [v] => ((Text.integer? v).map Document.int).getD .null
  | some values => single values

end Arguments

/-! ## §2. Tokens -/

inductive Token where
  | option (spec : OptionSpec) (spelled : String) (value : Option String)
  | unknown
  /-- Something that may be short for several options. -/
  | ambiguous
  | value
  | dashes
  deriving DecidableEq, Repr

def Token.isOption : Token → Bool
  | option _ _ _ => true
  | unknown => true
  | ambiguous => true
  | _ => false

/-- An argument and what it is. -/
structure Item where
  text : String
  token : Token
  deriving DecidableEq, Repr

namespace Spec

def find? (s : Spec) (name : String) : Option OptionSpec := s.options.find? fun o => o.names.contains name

def splitEquals? (arg : String) : Option (String × String) :=
  match arg.toList.span (· != '=') with
  | (_, []) => none
  | (before, _ :: after) => some (String.ofList before, String.ofList after)

def candidates (s : Spec) (arg : String) : List Token :=
  let (start, value) := match splitEquals? arg with
    | some (before, after) => (before, some after)
    | none => (arg, none)
  let spelled := s.options.flatMap fun o => o.names.map fun n => (o, n)
  match arg.toList with
  | '-' :: '-' :: _ =>
    (spelled.filter fun e => Text.startsWith start e.2).map fun e => .option e.1 e.2 value
  | '-' :: c :: rest =>
    spelled.filterMap fun e =>
      if e.2 == String.ofList ['-', c] then some (.option e.1 e.2 (some (String.ofList rest)))
      else if Text.startsWith arg e.2 then some (.option e.1 e.2 none)
      else none
  | _ => []

def isDecimal (c : Char) : Bool := (Text.decimalValue? c).isSome

/-- Whether a text writes a negative number; a line break may follow. -/
def isNegativeNumber (arg : String) : Bool :=
  let cs := arg.toList
  let cs := if cs.getLast? == some '\n' then cs.dropLast else cs
  match cs with
  | '-' :: digits =>
    match digits.dropWhile isDecimal with
    | [] => !digits.isEmpty
    | '.' :: places => !places.isEmpty && places.all isDecimal
    | _ => false
  | _ => false

def token (s : Spec) (arg : String) : Token :=
  if !Text.startsWith "-" arg then .value
  else match s.find? arg with
    | some o => .option o arg none
    | none =>
      if arg == "-" then .value
      else match (splitEquals? arg).bind fun e => (s.find? e.1).map fun o => (o, e) with
        | some (o, before, after) => .option o before (some after)
        | none => match s.candidates arg with
          | [t] => t
          | [] => if isNegativeNumber arg || arg.toList.contains ' ' then .value else .unknown
          | _ => .ambiguous

/-- What the arguments are. -/
def items (s : Spec) : List String → List Item
  | [] => []
  | "--" :: rest => ⟨"--", .dashes⟩ :: rest.map fun v => ⟨v, .value⟩
  | arg :: rest => ⟨arg, s.token arg⟩ :: items s rest

/-! ## §3. Positional arguments -/

/-- The values among some arguments: all but the first double dash. -/
def valuesOf (texts : List String) : List String := texts.erase "--"

def takePositional? (items : List Item) : Option (List String × List Item) :=
  let isDashes := fun (i : Item) => i.token == .dashes
  let before := items.takeWhile isDashes
  match items.dropWhile isDashes with
  | [] => none
  | i :: rest =>
    if i.token == .value then
      let after := rest.takeWhile isDashes
      some (valuesOf ((before ++ i :: after).map Item.text), rest.dropWhile isDashes)
    else none

structure Progress where
  waiting : List (String → Bool)
  arguments : Arguments := {}
  /-- Whether there were arguments that nothing takes. -/
  hasExtras : Bool := false

/-- Takes as many positional arguments as are waited for and there; none when one is not as it may be. -/
def takePositionals? : List (String → Bool) → List Item → Arguments →
    Option (List (String → Bool) × List Item × Arguments)
  | [], items, a => some ([], items, a)
  | test :: waiting, items, a => match takePositional? items with
    | none => some (test :: waiting, items, a)
    | some (values, rest) =>
      if values.all test then
        takePositionals? waiting rest { a with positionals := a.positionals ++ [values] }
      else none

/-! ## §4. Options -/

def isShort (spelled : String) : Bool := !Text.startsWith "--" spelled

/-- An option with a value in the same argument.  A flag of one letter may be followed by others, the last of
which may take the rest as its value or the arguments that follow: it is returned apart then. -/
def unpack? (s : Spec) (short : Bool) (o : OptionSpec) :
    List Char → Option (List (OptionSpec × List String) × Option OptionSpec)
  | [] => if o.arity == .none then none else some ([(o, [""])], none)
  | c :: rest =>
    if o.arity != .none then some ([(o, [String.ofList (c :: rest)])], none)
    else if !short then none
    else match s.find? (String.ofList ['-', c]), rest with
      | none, _ => none
      | some next, [] => some ([(o, [])], some next)
      | some next, _ => (s.unpack? true next rest).map fun (given, last) => ((o, []) :: given, last)

def takeValues? (o : OptionSpec) (rest : List Item) : Option (List String × List Item) :=
  let isValue := fun (i : Item) => i.token == .value
  match o.arity with
  | .none => some ([], rest)
  | .one => match rest with
    | i :: rest => if isValue i then some ([i.text], rest) else none
    | [] => none
  | .many => some ((rest.takeWhile isValue).map Item.text, rest.dropWhile isValue)

/-- The options that an argument gives, with their values, and the arguments behind them. -/
def takeOption? (s : Spec) (o : OptionSpec) (spelled : String) (value : Option String) (rest : List Item) :
    Option (List (OptionSpec × List String) × List Item) := do
  let (given, last) ← match value with
    | some v => s.unpack? (isShort spelled) o v.toList
    | none => some ([], some o)
  match last with
  | none => return (given, rest)
  | some o =>
    let (values, rest) ← takeValues? o rest
    return (given ++ [(o, values)], rest)

/-! ## §5. Reading -/

inductive Reading where
  | given (arguments : Arguments)
  | help
  /-- The arguments do not fit the description. -/
  | fault
  deriving DecidableEq, Repr

def record : List (OptionSpec × List String) → Arguments → Reading
  | [], a => .given a
  | (o, values) :: rest, a =>
    if o.key == helpOption.key then .help
    else
      let values := valuesOf values
      if o.accepts values then record rest { a with options := (o.key, values) :: a.options } else .fault

/-- The end of the arguments: positional ones may follow, and all have to be there. -/
def finish (items : List Item) (p : Progress) : Reading :=
  match takePositionals? p.waiting items p.arguments with
  | some ([], [], a) => if p.hasExtras then .fault else .given a
  | _ => .fault

/-- Goes through the arguments; `fuel` is one more than their number. -/
def readItems (s : Spec) : Nat → List Item → Progress → Reading
  | 0, _, _ => .fault
  | fuel + 1, items, p =>
    if !items.any fun i => i.token.isOption then finish items p
    else match items with
      | [] => finish [] p
      | ⟨_, .option o spelled value⟩ :: rest => match s.takeOption? o spelled value rest with
        | none => .fault
        | some (given, rest) => match record given p.arguments with
          | .given a => s.readItems fuel rest { p with arguments := a }
          | r => r
      | ⟨_, .unknown⟩ :: rest => s.readItems fuel rest { p with hasExtras := true }
      | i :: rest => match takePositionals? p.waiting (i :: rest) p.arguments with
        | none => .fault
        | some (waiting, after, a) =>
          if after.length ≤ rest.length then s.readItems fuel after { p with waiting, arguments := a }
          else s.readItems fuel ((i :: rest).dropWhile fun i => !i.token.isOption) { p with hasExtras := true }

def read (s : Spec) (args : List String) : Reading :=
  let items := s.items args
  if items.any fun i => i.token == .ambiguous then .fault
  else s.readItems (items.length + 1) items { waiting := s.positionals }

end Spec

end ControlPlane.CommandLine
