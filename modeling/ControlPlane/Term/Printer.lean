import ControlPlane.Term.Basic

/-!
# Terms as text

Terms are written in front of their operands, `(op arg arg)`, with single blanks.  A comparison or an
equality of a numeral with something that is none is written with the numeral on the right.
-/
namespace ControlPlane.Term

def comparisonName : Comparison → String
  | .le => "<="
  | .ge => ">="
  | .lt => "<"
  | .gt => ">"

/-- The comparison of swapped operands. -/
def flipComparison : Comparison → Comparison
  | .le => .ge
  | .ge => .le
  | .lt => .gt
  | .gt => .lt

def bitsComparisonName : BitsComparison → String
  | .le => "bvule"
  | .ge => "bvuge"
  | .lt => "bvult"

/-- Whether a term is a literal number. -/
def isNumeral : {ty : Ty} → Term ty → Bool
  | _, intLit _ => true
  | _, bitsLit _ _ => true
  | _, _ => false

mutual
/-- Writes a term behind what is already written. -/
def writeAfter {ty : Ty} (t : Term ty) (done : String) : String :=
  match t with
  | boolVar name => done ++ name
  | intVar name => done ++ name
  | bitsVar name _ => done ++ name
  | boolLit b => done ++ (if b then "true" else "false")
  | intLit n => done ++ toString n
  | bitsLit value width => done ++ "bv" ++ toString value ++ ":" ++ toString width
  | and ts => writeBools ts (done ++ "(and") ++ ")"
  | or ts => writeBools ts (done ++ "(or") ++ ")"
  | not t => writeAfter t (done ++ "(not ") ++ ")"
  | implies a b => writeAfter b (writeAfter a (done ++ "(=> ") ++ " ") ++ ")"
  | ite c a b => writeAfter b (writeAfter a (writeAfter c (done ++ "(ite ") ++ " ") ++ " ") ++ ")"
  | eq a b =>
    if isNumeral a && !isNumeral b then writeAfter a (writeAfter b (done ++ "(= ") ++ " ") ++ ")"
    else writeAfter b (writeAfter a (done ++ "(= ") ++ " ") ++ ")"
  | compare op a b =>
    if isNumeral a && !isNumeral b then
      writeAfter a (writeAfter b (done ++ "(" ++ comparisonName (flipComparison op) ++ " ") ++ " ") ++ ")"
    else writeAfter b (writeAfter a (done ++ "(" ++ comparisonName op ++ " ") ++ " ") ++ ")"
  | sum ts => writeInts ts (done ++ "(+") ++ ")"
  | sub a b => writeAfter b (writeAfter a (done ++ "(- ") ++ " ") ++ ")"
  | bitsCompare op a b =>
    writeAfter b (writeAfter a (done ++ "(" ++ bitsComparisonName op ++ " ") ++ " ") ++ ")"
termination_by structural t

def writeBools (ts : List (Term .bool)) (done : String) : String :=
  match ts with
  | [] => done
  | t :: rest => writeBools rest (writeAfter t (done ++ " "))
termination_by structural ts

def writeInts (ts : List (Term .int)) (done : String) : String :=
  match ts with
  | [] => done
  | t :: rest => writeInts rest (writeAfter t (done ++ " "))
termination_by structural ts
end

/-- The text of a term. -/
def written {ty : Ty} (t : Term ty) : String := writeAfter t ""

end ControlPlane.Term
