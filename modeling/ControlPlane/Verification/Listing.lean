import ControlPlane.Config.Listing
import ControlPlane.Verification.Report

/-!
# Outcomes and reports as documents
-/
namespace ControlPlane

/-! ## §1. Outcomes -/

def Value.maxWidth : Nat := 4096

/-- A value in a model: a flag, a number, or a list of a bit vector's value and width. -/
def Value.ofDocument? : Document → Option Value
  | .bool b => some (.bool b)
  | .int n => some (.int n)
  | .list [.int n, .int width] =>
    if width ≤ Value.maxWidth then some (.bits (n % (Nat.pow 2 width.toNat : Nat)).toNat width.toNat) else none
  | _ => none

def Model.ofDocument : Document → Model
  | .object entries => { entries := entries.filterMap fun e => (Value.ofDocument? e.2).map fun v => (e.1, v) }
  | _ => {}

/-- An outcome; a formula is unsatisfiable unless something else is said. -/
def Outcome.ofDocument (d : Document) : Except Failure Outcome := do
  let model := Model.ofDocument (← d.fieldD "model")
  let reason ← d.fieldD "reason" (.text "")
  let core ← match ← d.fieldD "core" with
    | .null => pure []
    | c => pure ((← c.elements).map Document.shown)
  let answer := match ← d.fieldD "result" with
    | .text "sat" => Answer.sat model
    | .text "unknown" => .unknown reason
    | _ => .unsat
  return { answer, core }

/-! ## §2. Reports -/

/-- A report as a document; of the model only the values that are not zero or false. -/
def Report.listing (r : Report) : Document :=
  .object [("verdict", .text r.verdict.label), ("verified", .bool r.isVerified),
    ("label", r.label), ("reason", r.reason), ("packet", .object r.packet),
    ("environment", .object (r.environment.map fun e => (e.1, .object e.2))),
    ("forwarding", .ofTexts r.forwarding), ("failed", .ofTexts r.failed),
    ("model_size", .int r.model.length),
    ("model", .object ((r.model.filter fun e => e.2 != "0" && e.2 != "False").map fun e => (e.1, .text e.2))),
    ("describe", .text r.describe), ("repr", .text r.shown)]

def Stats.sizeOfDocument : Document → Except Failure Int
  | .int n => .ok n
  | .bool b => .ok (if b then 1 else 0)
  | .real mantissa exponent =>
    .ok (if 0 ≤ exponent then mantissa * (Nat.pow 10 exponent.toNat : Nat)
      else mantissa.tdiv (Nat.pow 10 (-exponent).toNat : Nat))
  | _ => .error .shape

/-- The greatest number of sizes. -/
def Stats.fieldCount : Nat := 5

def Stats.ofItems (items : List Document) : Except Failure Stats := do
  let numbers ← (items.take 4).mapM Stats.sizeOfDocument
  let number := fun (i : Nat) => (numbers[i]?).getD 0
  let seconds ← Bandwidth.ofDocument ((items[4]?).getD (.int 0))
  return { nodes := number 0, edges := number 1, variableCount := number 2, constraintCount := number 3
           seconds := ← seconds.magnitude, isNegative := seconds.isNegative }

def Document.entriesOf (d : Document) : Except Failure (List (String × Document)) :=
  match d with
  | .object entries => .ok entries
  | d => if d.truthy then .error .absent else .ok []

def Document.entries (d : Document) : Except Failure (List (String × Document)) :=
  match d with
  | .object entries => .ok entries
  | _ => .error .absent

def Document.textsOf (d : Document) : Except Failure (List String) := do
  if d.truthy then return (← d.elements).map Document.shown else return []

def Report.keys : List String :=
  ["verdict", "model", "packet_model", "environment_model", "forwarding_model", "failure_model", "stats",
   "reason", "label"]

def Report.readCounterexample (r : Report) (d : Document) : Except Failure Report := do
  let packet ← (← d.fieldD "packet_model").entriesOf
  let environment ← (← (← d.fieldD "environment_model").entriesOf).mapM fun e => do
    return (e.1, ← e.2.entries)
  let failed ← (← d.fieldD "failure_model").textsOf
  let forwarding ← (← d.fieldD "forwarding_model").textsOf
  return { r with packet, environment, failed, forwarding }

/-- Reads a report; a counterexample counts only when the property is violated. -/
def Report.ofDocument (d : Document) : Except Failure Report := do
  let name ← d.field "verdict"
  let verdict ← match name.text?.bind Verdict.ofLabel? with
    | some v => pure v
    | none => throw (.value (name.quoted ++ " is not a valid Verdict"))
  let items ← match ← d.fieldD "stats" with
    | .null => pure none
    | s => some <$> s.elements
  if items.any fun items => Stats.fieldCount < items.length then throw .shape
  match d with
  | .object entries => if !entries.all fun e => Report.keys.contains e.1 then throw .shape
  | _ => pure ()
  let r : Report := { verdict, label := ← d.fieldD "label", reason := ← d.fieldD "reason" }
  let r ← if verdict == .violated then r.readCounterexample d else pure r
  return { r with stats := ← items.mapM Stats.ofItems }

end ControlPlane
