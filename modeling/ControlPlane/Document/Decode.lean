import ControlPlane.Failure
import ControlPlane.Order
import ControlPlane.Text.Search

/-!
# Taking documents apart

How a reader of descriptions looks into a document, and which failure a missing or misplaced part gives:
a field that must be there is `missing`, a document of the wrong kind has the wrong `shape`, and asking
something other than an object for an optional field finds the operation `absent`.
-/
namespace ControlPlane.Document

/-! ## §1. Fields and elements -/

def field (d : Document) (name : String) : Except Failure Document :=
  match d with
  | object entries => match entries.lookup name with
    | some v => .ok v
    | none => .error (.missing (.text name))
  | _ => .error .shape

/-- A field that may be left out, `null` standing for it then. -/
def fieldD (d : Document) (name : String) (default : Document := null) : Except Failure Document :=
  match d with
  | object entries => .ok ((entries.lookup name).getD default)
  | _ => .error .absent

def elements (d : Document) : Except Failure (List Document) :=
  match d.elements? with
  | some items => .ok items
  | none => .error .shape

/-! ## §2. Names and sets -/

/-- A name, which may be neither a list nor an object. -/
def asName (d : Document) : Except Failure Name :=
  match Name.ofDocument? d with
  | some n => .ok n
  | none => .error .shape

/-- A document that is put into a set, for which it may be neither a list nor an object. -/
def scalar (d : Document) : Except Failure Document :=
  if d.isScalar then .ok d else .error .shape

/-- The different values among some documents, each where it first occurs. -/
def distinct (items : List Document) : Except Failure (List Document) := do
  return (← items.mapM scalar).eraseDups

def sorted (items : List Document) : Except Failure (List Document) :=
  if areOrdered items then .ok (sortWith le items) else .error .shape

/-- Whether a document contains another: as an item of a list, a part of a text or the name of an entry. -/
def holds (d x : Document) : Except Failure Bool :=
  match d with
  | list items => .ok (items.any x.same)
  | text s => match x with
    | text t => .ok (Text.occursIn t s)
    | _ => .error .shape
  | object entries => match x with
    | text t => .ok (entries.any fun e => e.1 == t)
    | x => if x.isScalar then .ok false else .error .shape
  | _ => .error .shape

/-! ## §3. Integers -/

def integer (d : Document) : Except Failure Int :=
  match d with
  | int n => .ok n
  | bool b => .ok (if b then 1 else 0)
  | text s => match textInteger? s with
    | some n => .ok n
    | none => .error .numeral
  | _ => .error .numeral

def isPositive (d : Document) : Except Failure Bool :=
  match d.number? with
  | some n => .ok !(numberLe n (0, 0))
  | none => .error .shape

def asInt : Document → Except Failure Int
  | int n => .ok n
  | bool b => .ok (if b then 1 else 0)
  | _ => .error .shape

end ControlPlane.Document
