import ControlPlane.Route.Record

/-!
# The state of an interpretation

Interpreting a policy carries two values along: the parameters, with the working version of the route, and
the result, with the verdict so far and the attributes that were modified.
-/
namespace ControlPlane

/-- How a policy was entered. -/
inductive CallContext where
  | none
  | exprCall
  | statementCall
  deriving DecidableEq, Repr

def CallContext.label : CallContext → String
  | none => "NONE"
  | exprCall => "EXPR_CALL"
  | statementCall => "STMT_CALL"

inductive ChainContext where
  | none
  | conjunction
  | disjunction
  deriving DecidableEq, Repr

def ChainContext.label : ChainContext → String
  | none => "NONE"
  | conjunction => "CONJUNCTION"
  | disjunction => "DISJUNCTION"

namespace Transfer

/-! ## §1. Parameters -/

/-- What statements read besides the verdict so far. -/
structure Param where
  /-- The working version of the route. -/
  route : Record
  callContext : CallContext := .none
  chainContext : ChainContext := .none
  /-- The verdict when a policy ends without one. -/
  defaultAccept : Bool := false
  defaultAcceptLocal : Bool := false
  defaultPolicy : Option Document := none
  isOutermost : Bool := true
  /-- Modifications are void once this holds. -/
  returned : Term .bool := .no

namespace Param

def enterScope (p : Param) (returned : Term .bool) : Param := { p with isOutermost := false, returned }

def setRoute (p : Param) (r : Record) : Param := { p with route := r }

end Param

/-! ## §2. Results -/

/-- Something that a policy modified. -/
inductive Change where
  | attribute (name : String)
  | community (value : Community)
  deriving DecidableEq, Repr

/-- The outcome of statements or of an expression. -/
structure Result where
  /-- The verdict. -/
  value : Term .bool := .no
  /-- Whether there is a verdict. -/
  assigned : Term .bool := .no
  /-- What was modified, each once. -/
  changed : List Change := []

namespace Result

def ofExpr (value : Term .bool) : Result := { value, assigned := .yes }

def addChange (r : Result) (c : Change) : Result := { r with changed := addOnce c r.changed }

def addChanges (r s : Result) : Result :=
  { r with changed := s.changed.foldl (fun acc c => addOnce c acc) r.changed }

def isChanged (r : Result) (name : String) : Bool := r.changed.contains (.attribute name)

end Result

end Transfer

end ControlPlane
