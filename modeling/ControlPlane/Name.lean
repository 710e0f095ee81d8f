import ControlPlane.Document.Value

/-!
# Names

What routers, interfaces and named lists are called.  A name is mostly a text, but any document that is
neither a list nor an object serves.  Names of different kinds are different, and only names of one kind are
in order.
-/
namespace ControlPlane

inductive Name where
  | text (value : String)
  | number (value : Int)
  | truth (value : Bool)
  | real (mantissa exponent : Int)
  /-- Nothing given. -/
  | absent
  deriving DecidableEq, Repr, Inhabited

namespace Name

def document : Name → Document
  | text s => .text s
  | number n => .int n
  | truth b => .bool b
  | real m e => .real m e
  | absent => .null

def ofDocument? : Document → Option Name
  | .text s => some (text s)
  | .int n => some (number n)
  | .bool b => some (truth b)
  | .real m e => some (real m e)
  | .null => some absent
  | .list _ => none
  | .object _ => none

theorem ofDocument?_document (n : Name) : ofDocument? n.document = some n := by
  cases n <;> rfl

def shown (n : Name) : String := n.document.shown

def quoted (n : Name) : String := n.document.quoted

/-- The text that stands for a name where only texts may, as for the entries of an object. -/
def key : Name → String
  | text s => s
  | truth true => "true"
  | truth false => "false"
  | absent => "null"
  | n => n.shown

def text? : Name → Option String
  | text s => some s
  | _ => none

/-! ## Order -/

/-- The order of numbers and the order of texts. -/
def le (a b : Name) : Bool := a.document.le b.document

/-- Whether names can be put in order: one alone, numbers only, or texts only. -/
def areOrdered (names : List Name) : Bool := Document.areOrdered (names.map document)

end Name

end ControlPlane
