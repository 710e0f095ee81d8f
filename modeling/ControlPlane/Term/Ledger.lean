import ControlPlane.Term.Basic

/-!
# Ledgers

Building an encoding declares variables, draws fresh numbers and requires terms.  The ledger keeps all of
it in order; it also keeps what was added before a failure, so `Build` is a state under which failures
happen and not the other way around.
-/
namespace ControlPlane

/-- What an encoding consists of so far. -/
structure Ledger where
  declared : Array Variable := #[]
  constraints : Array (Term .bool) := #[]
  lastId : Nat := 0
  deriving Inhabited

abbrev Build := ExceptT Failure (StateM Ledger)

namespace Build

def declare (v : Variable) : Build Unit :=
  modify fun l => { l with declared := l.declared.push v }

def declareAll (vs : List Variable) : Build Unit :=
  modify fun l => { l with declared := vs.foldl Array.push l.declared }

def newBool (name : String) : Build (Term .bool) := do
  declare ⟨name, .bool⟩
  return .boolVar name

def newInt (name : String) : Build (Term .int) := do
  declare ⟨name, .int⟩
  return .intVar name

def newBits (name : String) (width : Nat) : Build (Term .bits) := do
  declare ⟨name, .bits width⟩
  return .bitsVar name width

def require (t : Term .bool) : Build Unit :=
  modify fun l => { l with constraints := l.constraints.push t }

def requireAll (ts : List (Term .bool)) : Build Unit :=
  modify fun l => { l with constraints := ts.foldl Array.push l.constraints }

/-- A number that was not drawn before. -/
def freshId : Build Nat := do
  let l ← get
  set { l with lastId := l.lastId + 1 }
  return l.lastId + 1

def runOn {α : Type} (b : Build α) (l : Ledger) : Except Failure α × Ledger :=
  let (result, l) := (ExceptT.run b).run l
  (result, l)

end Build

end ControlPlane
