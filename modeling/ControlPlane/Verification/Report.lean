import ControlPlane.Slice.Encoding
import ControlPlane.Term.Eval

/-!
# Reports

The answer of a solver to an encoding, and what is reported about it.  A formula states that a property is
violated, so an unsatisfiable one verifies the property; a model is decoded into the packet, the routes
announced from outside, the edges that forward the packet and the failed links.
-/
namespace ControlPlane

/-! ## §1. Answers of a solver -/

inductive Value where
  | bool (value : Bool)
  | int (value : Int)
  | bits (value width : Nat)
  deriving DecidableEq, Repr

/-- Values of variables by name.  Variables that are not given are false or zero. -/
structure Model where
  entries : List (String × Value) := []

namespace Model

def bool (m : Model) (name : String) : Bool :=
  match m.entries.lookup name with
  | some (.bool b) => b
  | _ => false

def int (m : Model) (name : String) : Int :=
  match m.entries.lookup name with
  | some (.int n) => n
  | _ => 0

def bits (m : Model) (name : String) (width : Nat) : Nat :=
  match m.entries.lookup name with
  | some (.bits value w) => if w == width then value % Nat.pow 2 width else 0
  | _ => 0

def valuation (m : Model) : Valuation where
  bool := m.bool
  int := m.int
  bits name := match m.entries.lookup name with
    | some (.bits value _) => value
    | _ => 0

def shown (m : Model) (v : Variable) : String :=
  match v.sort with
  | .bool => if m.bool v.name then "True" else "False"
  | .int => toString (m.int v.name)
  | .bits width => toString (m.bits v.name width)

end Model

/-- What a solver says about a formula. -/
inductive Answer where
  | unsat
  | sat (model : Model)
  | unknown (reason : Document)

structure Outcome where
  answer : Answer := .unsat
  /-- The names of the constraints that an unsatisfiable formula needs. -/
  core : List String := []

/-! ## §2. Reports -/

/-- What is known about a property. -/
inductive Verdict where
  | verified
  | violated
  | unknown
  | incomparable
  deriving DecidableEq, Repr

namespace Verdict

def label : Verdict → String
  | verified => "verified"
  | violated => "violated"
  | unknown => "unknown"
  | incomparable => "incomparable"

def all : List Verdict := [verified, violated, unknown, incomparable]

def ofLabel? (s : String) : Option Verdict := all.find? fun v => v.label == s

end Verdict

/-- The size of a formula, and the time that a check took. -/
structure Stats where
  nodes : Int := 0
  edges : Int := 0
  variableCount : Int := 0
  constraintCount : Int := 0
  seconds : Magnitude := .finite ⟨0, 1⟩
  /-- Whether the time is below zero. -/
  isNegative : Bool := false
  deriving DecidableEq, Repr

def Stats.secondsText : Magnitude → String
  | .infinite => "inf"
  | .finite r =>
    let thousandths := ({ r with numerator := r.numerator * 1000 } : Ratio).nearest
    let fraction := toString (thousandths % 1000)
    toString (thousandths / 1000) ++ "." ++
      String.ofList (List.replicate (3 - fraction.length) '0') ++ fraction

def Stats.shown (s : Stats) : String :=
  "nodes: " ++ toString s.nodes ++ ", edges: " ++ toString s.edges ++ ", variables: " ++
    toString s.variableCount ++ ", constraints: " ++ toString s.constraintCount ++ ", time: " ++
    (if s.isNegative then "-" else "") ++ Stats.secondsText s.seconds ++ "s"

/-- The result of a question. -/
structure Report where
  verdict : Verdict
  label : Document := .null
  /-- Why there is no answer, null when none is given. -/
  reason : Document := .null
  /-- Every variable and its value. -/
  model : List (String × String) := []
  packet : List (String × Document) := []
  /-- The routes announced from outside, by record. -/
  environment : List (String × List (String × Document)) := []
  /-- The edges that forward the packet. -/
  forwarding : List String := []
  failed : List String := []
  stats : Option Stats := none

namespace Report

/-- Whether the property holds. -/
def isVerified (r : Report) : Bool := r.verdict == .verified

/-- A short text. -/
def shown (r : Report) : String := "VerificationResult(" ++ r.verdict.label ++ ")"

def counterexampleLines (r : Report) : List String :=
  ["Packet:"] ++
  ((sortByText (·.1) r.packet).map fun e => "  " ++ e.1 ++ ": " ++ e.2.shown) ++
  (if r.environment.isEmpty then [] else
    "Environment messages:" :: (sortByText (·.1) r.environment).flatMap fun e =>
      ("  " ++ e.1) :: (sortByText (·.1) e.2).map fun a => "    " ++ a.1 ++ ": " ++ a.2.shown) ++
  (if r.failed.isEmpty then [] else "Failed links:" :: r.failed.map fun name => "  " ++ name) ++
  "Forwarding:" :: r.forwarding.map fun e => "  " ++ e

def describe (r : Report) : String :=
  let head := (if r.label.truthy then r.label.shown else "Result") ++ ": " ++ r.verdict.label
  "\n".intercalate (
    [head] ++
    (if r.reason.truthy then ["Reason: " ++ r.reason.shown] else []) ++
    (if r.verdict == .violated then r.counterexampleLines else []) ++
    (r.stats.map fun s => "Stats: " ++ s.shown).toList)

end Report

/-! ## §3. Decoding models -/

namespace Encoding

def stats (e : Encoding) : Stats where
  nodes := e.slice.topology.sites.length
  edges := (e.slice.topology.names.flatMap e.slice.topology.neighbors).length
  variableCount := e.ledger.declared.size
  constraintCount := e.ledger.constraints.size

def decodeVariables (e : Encoding) (m : Model) : List (String × String) :=
  lastOfEach (sortByText (·.1) (e.ledger.declared.toList.map fun v => (v.name, m.shown v)))
where
  lastOfEach : List (String × String) → List (String × String)
    | [] => []
    | [v] => [v]
    | v :: w :: rest => if v.1 == w.1 then lastOfEach (w :: rest) else v :: lastOfEach (w :: rest)

def fieldOf (e : Encoding) (m : Model) (f : PacketField) : Int := m.int (e.slice.name ++ f.suffix)

/-- The header fields of the packet; apart from the destination, those that are not zero. -/
def decodePacket (e : Encoding) (m : Model) : Except Failure (List (String × Document)) := do
  let address := fun (n : Int) => match Address.ofInt n with
    | .ok a => Except.ok (Document.text a.dotted)
    | .error f => .error (Failure.address f)
  let destination ← address (e.fieldOf m .dstIp)
  let srcIp := e.fieldOf m .srcIp
  let source ← if srcIp == 0 then pure [] else do pure [("srcIp", ← address srcIp)]
  let numbers := [PacketField.dstPort, .srcPort, .icmpCode, .icmpType, .ipProtocol].filterMap fun f =>
    let n := e.fieldOf m f
    if n == 0 then none else some (f.key, Document.int n)
  let flags := TcpFlag.all.filterMap fun f =>
    if m.bool (e.slice.name ++ "tcp-" ++ f.label) then some ("tcp" ++ f.title, Document.bool true) else none
  return ("dstIp", destination) :: source ++ numbers ++ flags

def announcedNumbers : List (IntAttribute × String) :=
  [(.adminDist, "administrative distance"), (.localPref, "local preference"),
   (.metric, "protocol metric"), (.med, "med")]

def decodeAnnouncement (e : Encoding) (m : Model) (r : Record) :
    Except Failure (List (String × Document)) := do
  let number := fun (a : IntAttribute) => m.int (r.name ++ "_" ++ a.suffix)
  let subnet ← Subnet.ofInts (e.fieldOf m .dstIp) (number .prefixLength)
  let numbers := announcedNumbers.filterMap fun (a, name) =>
    (r.int? a).map fun _ => (name, Document.int (number a))
  let carried := (r.communities.filter fun c =>
    c.1.kind == .exact && m.bool (r.name ++ Record.communitySuffix c.1)).map fun c => c.1.value
  let communities := if carried.isEmpty then []
    else [("communities", Document.text (" ".intercalate (sortTexts carried)))]
  return ("prefix", .text subnet.written) :: numbers ++ communities

/-- The routes announced from outside. -/
def decodeEnvironment (e : Encoding) (m : Model) :
    Except Failure (List (String × List (String × Document))) := do
  let announced := (e.slice.environment.map (·.2)).filter fun r => m.bool (r.name ++ "_permitted")
  let decoded ← announced.mapM fun r => do return (r.name, ← e.decodeAnnouncement m r)
  return collect (·.1) decoded

def decodeForwarding (e : Encoding) (m : Model) : List String :=
  sortTexts ((e.slice.topology.sites.flatMap Site.edges).filterMap fun d =>
    if m.bool (e.slice.name ++ "data-forwarding_" ++ d.router.shown ++ "_" ++ d.interface.shown) then some d.shown
    else none)

def decodeFailures (e : Encoding) (m : Model) : List String :=
  (e.slice.topology.sortedLinks.map (Frame.failureName e.slice.tag)).filter fun name => m.int name == 1

def report (e : Encoding) (outcome : Outcome) (label : Document) : Except Failure Report := do
  let stats := some e.stats
  match outcome.answer with
  | .unsat => return { verdict := .verified, stats, label }
  | .unknown reason => return { verdict := .unknown, stats, reason, label }
  | .sat m =>
    let packet ← e.decodePacket m
    let environment ← e.decodeEnvironment m
    return {
      verdict := .violated
      model := e.decodeVariables m
      packet, environment
      forwarding := e.decodeForwarding m
      failed := e.decodeFailures m
      stats, label }

def outcomeWarnings (outcome : Outcome) : List String :=
  match outcome.answer with
  | .unknown reason => ["Solver returned unknown: " ++ reason.shown]
  | _ => []

/-- The constraints that make an unsatisfiable formula so, when they are tracked.  A name that is not
tracked stands for itself. -/
def unsatCore (e : Encoding) (tracked : Bool) (outcome : Outcome) : Except Failure (List (Term .bool)) :=
  if tracked then
    let names := e.trackingNames.zip e.ledger.constraints.toList
    .ok (outcome.core.map fun name => (names.lookup name).getD (.boolVar name))
  else .error .untracked

end Encoding

end ControlPlane
