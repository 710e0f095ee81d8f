import ControlPlane.Topology.Basic

/-!
# Selections

Regular expressions that select the destinations and the sources of a question.  A name is selected when
the whole of it matches the expression for it and does not match the excluding one, if there is one.
-/
namespace ControlPlane

/-- Which destination routers, destination interfaces and source routers a question is about.  Expressions are
kept as they are written; an excluding one may be null. -/
structure Selection where
  dst : Document := .text ".*"
  notDst : Document := .null
  interface : Document := .text ".*"
  notInterface : Document := .null
  src : Document := .text ".*"
  notSrc : Document := .null

namespace Selection

/-- Whether a name matches an expression as a whole; both have to be texts. -/
def matchesWhole (pattern name : Document) : Except Failure Bool :=
  match pattern with
  | .text s => match Text.Pattern.parse s, name with
    | .error fault, _ => .error (.ofPattern fault)
    | .ok p, .text t => .ok (p.matchesAll t)
    | .ok _, _ => .error .shape
  | _ => .error .shape

def selects (pattern excluded name : Document) : Except Failure Bool := do
  if ← matchesWhole pattern name then
    match excluded with
    | .null => return true
    | e => return !(← matchesWhole e name)
  else return false

def selectsDst (s : Selection) (router : Document) : Except Failure Bool := selects s.dst s.notDst router

def selectsInterface (s : Selection) (interface : Document) : Except Failure Bool :=
  selects s.interface s.notInterface interface

def selectsSrc (s : Selection) (router : Document) : Except Failure Bool := selects s.src s.notSrc router

def shown (s : Selection) : String :=
  "PathRegexes(dst=" ++ s.dst.shown ++ ", iface=" ++ s.interface.shown ++ ", src=" ++ s.src.shown ++ ")"

def sources (s : Selection) (t : Topology) : Except Failure (List Name) :=
  t.names.filterM fun name => s.selectsSrc name.document

/-- The destination routers. -/
def targets (s : Selection) (t : Topology) : Except Failure (List Name) :=
  t.names.filterM fun name => s.selectsDst name.document

def destinations (s : Selection) (t : Topology) : Except Failure (List Edge) := do
  let found ← t.sites.mapM fun site => do
    if ← s.selectsDst site.router.name.document then
      (site.edges.filter fun e => e.start.subnet?.isSome).filterM fun e =>
        s.selectsInterface e.interface.document
    else return []
  return found.flatten

/-! ## Reading selections -/

/-- The names that a selection is described by. -/
def keys : List String := ["dst", "not_dst", "iface", "not_iface", "src", "not_src"]

/-- An expression, or the one for every name when there is nothing in it. -/
def orAll (d : Document) : Document := if d.truthy then d else .text ".*"

/-- Reads a selection.  An empty expression stands for every name. -/
def ofDocument (d : Document) : Except Failure Selection := do
  match d with
  | .null => return {}
  | .object entries =>
    if entries.all fun e => keys.contains e.1 then
      return {
        dst := orAll (← d.fieldD "dst"), notDst := ← d.fieldD "not_dst"
        interface := orAll (← d.fieldD "iface"), notInterface := ← d.fieldD "not_iface"
        src := orAll (← d.fieldD "src"), notSrc := ← d.fieldD "not_src" }
    else throw .shape
  | _ => throw .shape

end Selection

end ControlPlane
