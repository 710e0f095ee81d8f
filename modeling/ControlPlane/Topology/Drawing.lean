import ControlPlane.Topology.Basic

/-!
# Drawings

A directed graph with attributes, in the order in which nodes and edges were added, and its text in the
DOT language.  Only the attributes that a drawing shows are written.
-/
namespace ControlPlane

/-! ## §1. Directed graphs -/

abbrev Attributes := List (String × Document)

def Attributes.update (old new : Attributes) : Attributes :=
  new.foldl (fun acc a => Document.setEntry a.1 a.2 acc) old

/-- A directed graph with at most one edge from a node to another. -/
structure Digraph where
  nodes : List (Name × Attributes) := []
  edges : List ((Name × Name) × Attributes) := []

namespace Digraph

def addNode (g : Digraph) (name : Name) (attributes : Attributes := []) : Digraph :=
  { g with nodes := go g.nodes }
where
  /-- Updates in place, or adds at the end. -/
  go : List (Name × Attributes) → List (Name × Attributes)
    | [] => [(name, attributes)]
    | (n, a) :: rest => if n == name then (n, Attributes.update a attributes) :: rest else (n, a) :: go rest

/-- Adds an edge and its ends, or updates the attributes of one that is there. -/
def addEdge (g : Digraph) (source target : Name) (attributes : Attributes := []) : Digraph :=
  let g := (g.addNode source).addNode target
  { g with edges := go g.edges }
where
  /-- Updates in place, or adds at the end. -/
  go : List ((Name × Name) × Attributes) → List ((Name × Name) × Attributes)
    | [] => [((source, target), attributes)]
    | (e, a) :: rest =>
      if e == (source, target) then (e, Attributes.update a attributes) :: rest else (e, a) :: go rest

def hasEdge (g : Digraph) (source target : Name) : Bool :=
  (g.edges.lookup (source, target)).isSome

def groupedEdges (g : Digraph) : List ((Name × Name) × Attributes) :=
  g.nodes.flatMap fun n => g.edges.filter fun e => e.1.1 == n.1

/-! ## §2. Names in DOT text -/

/-- Words that mean something in DOT, in any case. -/
def keywords : List String := ["graph", "subgraph", "digraph", "node", "edge", "strict"]

def nodeKeywords : List String := ["graph", "node", "edge"]

/-- Whether a test holds of a text, or of a text without the line break at its end. -/
def upToNewline (test : List Char → Bool) (cs : List Char) : Bool :=
  test cs || (cs.getLast? == some '\n' && test cs.dropLast)

/-- Texts between two marks. -/
def isBetween (first last : Char) (cs : List Char) : Bool :=
  2 ≤ cs.length && cs.head? == some first && cs.getLast? == some last

def isDelimited (cs : List Char) : Bool :=
  upToNewline (isBetween Text.doubleQuote Text.doubleQuote) cs || upToNewline (isBetween '<' '>') cs

def isNumber (cs : List Char) : Bool :=
  cs.any Char.isDigit && cs.all (fun c => c.isDigit || c == '.') && cs.count '.' ≤ 1

/-- Letters, digits and underscores with no digit at the start. -/
def isIdentifier : List Char → Bool
  | [] => false
  | c :: rest => (c.isAlpha || c == '_') && rest.all fun d => d.isAlphanum || d == '_'

/-- Identifiers that may also hold colons and double quotes, but do not end with a colon. -/
def isPorted : List Char → Bool
  | [] => false
  | c :: rest => (c.isAlpha || c == '_') && !rest.isEmpty && rest.getLast? != some ':' &&
    rest.all fun d => d.isAlphanum || d == '_' || d == ':' || d == Text.doubleQuote

/-- Whether a text has to stand between quotes, as far as its characters tell. -/
def needsQuotes? (cs : List Char) : Option Bool :=
  if !cs.isEmpty && cs.all Text.isDigit then some false
  else if !cs.isEmpty && cs.all Text.isAlphanumeric then some (cs.head?.any Text.isDigit)
  else if cs.any (fun c => 0x7F < c.toNat || c.toNat == 0) && !isDelimited cs then some true
  else if upToNewline isNumber cs || isDelimited cs then some false
  else none

/-- Whether a text without a port is a name as it stands. -/
def isBare (cs : List Char) : Bool :=
  match needsQuotes? cs with
  | some needed => !needed
  | none => upToNewline isIdentifier cs || upToNewline isPorted cs

/-- Whether a text is a name as it stands: it has no port or both parts are names. -/
def isPlain (cs : List Char) : Bool :=
  match needsQuotes? cs with
  | some needed => !needed
  | none => isBare cs || match cs.splitOn ':' with
    | [name, port] => isBare name && isBare port
    | _ => false

def dotQuoted (s : String) : String :=
  let q := String.ofList [Text.doubleQuote]
  q ++ String.join (s.toList.map fun c =>
    if c == Text.doubleQuote then String.ofList [Text.backslash, c]
    else if c == '\n' then String.ofList [Text.backslash, 'n']
    else if c == '\r' then String.ofList [Text.backslash, 'r']
    else String.ofList [c]) ++ q

/-- A name, between quotes when it needs them or is a keyword other than the allowed ones. -/
def dotName (s : String) (allowed : List String := []) : String :=
  let lowered := String.ofList (s.toList.map Char.toLower)
  if s.isEmpty then s
  else if keywords.contains lowered && !allowed.contains lowered then dotQuoted s
  else if isPlain s.toList then s
  else dotQuoted s

/-- An attribute's value, between quotes unless its characters show that it needs none. -/
def dotValue (s : String) : String :=
  let lowered := String.ofList (s.toList.map Char.toLower)
  if keywords.contains lowered then dotQuoted s
  else if needsQuotes? s.toList == some false then s
  else dotQuoted s

/-- The name of a node without its port, which is what follows the first colon. -/
def withoutPort (s : String) : String :=
  let cs := s.toList
  let name := cs.takeWhile (· != ':')
  if cs.head? == some Text.doubleQuote || name.isEmpty || cs.length ≤ name.length + 1 then s
  else String.ofList name

def dotNode (s : String) : String := dotName (withoutPort s) nodeKeywords

/-- A node's name at an end of an edge, its port being what follows the last colon. -/
def dotEnd (s : String) : String :=
  let cs := s.toList
  let port := (cs.reverse.takeWhile (· != ':')).reverse
  let name := cs.take (cs.length - port.length - 1)
  let starts := cs.head? == some Text.doubleQuote
  if starts && cs.getLast? == some Text.doubleQuote then s
  else if port.length == cs.length || name.isEmpty then dotName s
  else if starts && name.getLast? == some Text.doubleQuote then s
  else dotName (String.ofList name) ++ ":" ++ dotName (String.ofList port)

/-! ## §3. DOT text -/

/-- The attributes that a drawing shows: shape and style when there is something in them, and the label,
which may be empty. -/
def shownAttributes (a : Attributes) : List (String × String) :=
  let pick := fun name => match a.lookup name with
    | some d => if d.truthy then [(name, dotValue d.shown)] else []
    | none => []
  let label := match a.lookup "label" with
    | some .null => []
    | some d =>
      let q := String.ofList [Text.doubleQuote]
      [("label", q ++ d.shown ++ q)]
    | none => []
  pick "shape" ++ pick "style" ++ label

def attributeText (a : Attributes) : String :=
  match shownAttributes a with
  | [] => ""
  | shown => " [" ++ ", ".intercalate (shown.map fun e => e.1 ++ "=" ++ e.2) ++ "]"

/-- The line of a node.  A keyword without attributes would say something about all nodes and is left out. -/
def nodeLine (n : Name × Attributes) : String :=
  let name := dotNode n.1.shown
  let attributes := attributeText n.2
  if nodeKeywords.contains name && attributes.isEmpty then "\n" else name ++ attributes ++ ";\n"

def edgeLine (e : (Name × Name) × Attributes) : String :=
  dotEnd e.1.1.shown ++ " -> " ++ dotEnd e.1.2.shown ++ attributeText e.2 ++ ";\n"

/-- The drawing in the DOT language; a graph with an edge from a node to itself is not strict. -/
def dot (g : Digraph) : String :=
  let strict := if g.edges.any fun e => e.1.1 == e.1.2 then "" else "strict "
  strict ++ "digraph \x7b\n" ++ String.join (g.nodes.map nodeLine) ++
    String.join (g.groupedEdges.map edgeLine) ++ "\x7d\n"

end Digraph

/-! ## §4. Drawing a topology -/

namespace Topology

def routerNode : Document := .text "\"node\""

def environmentKind : Document := .text "\"environment\""

def internalKind : Document := .text "\"internal\""

/-- The node that an edge leads to; edges to the environment have a node of their own. -/
def drawnTarget (e : Edge) : Name :=
  e.peer?.getD (.text ("env_" ++ e.router.shown ++ "_" ++ e.interface.shown))

def drawEdge (g : Digraph) (e : Edge) : Digraph :=
  let target := drawnTarget e
  let label := (e.start.subnet?.map Subnet.written).getD "None"
  let (g, kind) := match e.peer? with
    | some _ => (g, internalKind)
    | none => (g.addNode target
        [("vertex_type", environmentKind), ("shape", .text "box"), ("label", .text label)], environmentKind)
  if g.hasEdge e.router target then g
  else g.addEdge e.router target [("edge_type", kind), ("label", e.interface.document)]

/-- The topology as a directed graph, in which every router has to have a name. -/
def digraph (t : Topology) : Except Failure Digraph := do
  if t.names.contains .absent then throw (.value "None cannot be a node")
  let nodes := t.names.foldl (fun g name =>
    g.addNode name [("vertex_type", routerNode), ("label", name.document)]) ({} : Digraph)
  return t.sites.foldl (fun g s => s.edges.foldl drawEdge g) nodes

def drawnEdges (t : Topology) (source target : Name) : List Edge :=
  (t.edges source).filter fun e => drawnTarget e == target

end Topology

end ControlPlane
