import ControlPlane.Header.Space

/-!
# Constructs

The open form of policy syntax: a tree of named nodes with named fields, in which anything may stand
anywhere.  Policies proper are typed (`ControlPlane.Policy.Basic`); a construct is what they are listed
as, and what is shown when something stands where it has no meaning.
-/
namespace ControlPlane

inductive Construct where
  | node (kind : String) (fields : List (String × Construct))
  | list (items : List Construct)
  | member (family name : String) (value : Document)
  | subnet (value : Subnet)
  | document (value : Document)
  deriving Inhabited

namespace Construct

mutual
def quoted : Construct → String
  | node kind fields => kind ++ "(" ++ ", ".intercalate (quotedFields fields) ++ ")"
  | list items => "[" ++ ", ".intercalate (quotedItems items) ++ "]"
  | member family name value => "<" ++ family ++ "." ++ name ++ ": " ++ value.quoted ++ ">"
  | subnet s => "IPv4Network('" ++ s.written ++ "')"
  | document d => d.quoted

def quotedItems : List Construct → List String
  | [] => []
  | c :: rest => c.quoted :: quotedItems rest

def quotedFields : List (String × Construct) → List String
  | [] => []
  | (name, c) :: rest => (name ++ "=" ++ c.quoted) :: quotedFields rest
end

def shown : Construct → String
  | member family name _ => if family == "Protocol" then name else family ++ "." ++ name
  | subnet s => s.written
  | document d => d.shown
  | c => c.quoted

def ofText (s : String) : Construct := document (.text s)

def ofProtocol (p : Protocol) : Construct := member "Protocol" p.label (.text p.key)

def ofOspfType (t : OspfType) : Construct := member "OspfType" t.label (.int t.rank)

def ofRange (r : Range) : Construct :=
  node "SubRange" [("start", document r.start), ("end", document r.stop)]

/-! ## Constructs as values -/

/-- Everything but an empty list, a node without fields and a document that is false. -/
def truthy : Construct → Bool
  | node _ fields => !fields.isEmpty
  | list items => !items.isEmpty
  | member _ _ _ => true
  | subnet _ => true
  | document d => d.truthy

/-- What iterating over a construct yields: the fields of a node, the items of a list. -/
def elements? : Construct → Option (List Construct)
  | node _ fields => some (fields.map (·.2))
  | list items => some items
  | document d => d.elements?.map fun items => items.map document
  | _ => none

mutual
def isScalar : Construct → Bool
  | node _ fields => areScalar fields
  | list _ => false
  | document d => d.isScalar
  | _ => true

def areScalar : List (String × Construct) → Bool
  | [] => true
  | (_, c) :: rest => c.isScalar && areScalar rest
end

mutual
/-- A construct as a document; a node or a member is its text, unless there are lists in it. -/
def toDocument : Construct → Document
  | document d => d
  | list items => .list (toDocuments items)
  | node kind fields =>
    if areScalar fields then .text (node kind fields).quoted else .list []
  | member family name value => .text (member family name value).shown
  | subnet s => .text s.written

def toDocuments : List Construct → List Document
  | [] => []
  | c :: rest => c.toDocument :: toDocuments rest
end

end Construct

end ControlPlane
