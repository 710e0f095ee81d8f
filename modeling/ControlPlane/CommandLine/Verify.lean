import ControlPlane.CommandLine.Arguments
import ControlPlane.Config.Reader
import ControlPlane.Document.Writer
import ControlPlane.Grid
import ControlPlane.Topology.Drawing
import ControlPlane.Verification.Question

/-!
# The commands

`Verify.run` reads the arguments of the verifying command and answers the question that they ask;
`Generate.run` writes the description of a grid.  Neither touches a file: descriptions come from a function,
and what is to be written is part of the outcome.
-/
namespace ControlPlane.CommandLine

/-- What a command leaves behind. -/
structure Effects where
  exitCode : Nat := 0
  stdout : String := ""
  stderr : String := ""
  files : List (String × String) := []

/-- The outcome of arguments that do not fit. -/
def usageFault : Effects := { exitCode := 2 }

def usageHelp : Effects := {}

def isReported : Failure → Bool
  | .unsupported _ => true
  | .configuration _ => true
  | .missing _ => true
  | .missingEdge _ => true
  | .address _ => true
  | .netmask _ => true
  | .value _ => true
  | .untracked => true
  | _ => false

/-! ## §1. Verifying -/

namespace Verify

def questionNames : List String :=
  ["forwarding", "reachability", "router-reachability", "blackhole", "bounded-length", "equal-length",
   "load-balance", "multipath", "loop", "local-consistency"]

/-- The questions by name; `bound` and `threshold` are for those that need them. -/
def question? (name : String) (bound threshold : Document) : Option Question :=
  match name with
  | "forwarding" => some .forwarding
  | "reachability" => some .reachability
  | "router-reachability" => some .routerReachability
  | "blackhole" => some .noBlackHole
  | "bounded-length" => some (.boundedLength bound)
  | "equal-length" => some .equalLength
  | "load-balance" => some (.loadBalance threshold)
  | "multipath" => some .multipathConsistency
  | "loop" => some .noRoutingLoop
  | "local-consistency" => some .localConsistency
  | _ => none

/-- The options of the command. -/
def spec : Spec where
  positionals := [questionNames.contains]
  options := [
    helpOption, ⟨["-n"], .one, false⟩, ⟨["--dst-ips"], .many, false⟩,
    ⟨["--ingress-node"], .one, false⟩, ⟨["--not-ingress-node"], .one, false⟩,
    ⟨["--final-node"], .one, false⟩, ⟨["--not-final-node"], .one, false⟩,
    ⟨["--final-iface"], .one, false⟩, ⟨["--not-final-iface"], .one, false⟩,
    ⟨["-f", "--failures"], .one, true⟩, ⟨["-b", "--bound"], .one, true⟩, ⟨["-t", "--threshold"], .one, true⟩,
    ⟨["--draw"], .one, false⟩, ⟨["-v"], .none, false⟩, ⟨["--debug"], .none, false⟩]

structure Task where
  /-- The file of the network; a text, if the command line names a file. -/
  network : Document
  question : Question
  dstIps : List String
  selection : Selection
  failures : Document
  draw : Document

def taskOf? (a : Arguments) : Option Task := do
  let _ ← a.values? "-n"
  let name ← a.positionals.flatten.head?
  let question ← question? name (a.number "--bound" 5) (a.number "--threshold" 0)
  return {
    question
    network := a.value "-n"
    failures := a.number "--failures" 0
    dstIps := (a.values? "--dst-ips").getD []
    draw := a.value "--draw"
    selection := {
      dst := Selection.orAll (a.value "--final-node"), notDst := a.value "--not-final-node"
      interface := Selection.orAll (a.value "--final-iface"), notInterface := a.value "--not-final-iface"
      src := Selection.orAll (a.value "--ingress-node"), notSrc := a.value "--not-ingress-node" } }

def task (args : List String) : Except Effects Task :=
  match spec.read args with
  | .given a => match taskOf? a with
    | some t => .ok t
    | none => .error usageFault
  | .help => .error usageHelp
  | .fault => .error usageFault

def reports (t : Task) (n : Network) (outcomes : List Outcome) : Except Failure (List Report) := do
  let dstIps ← t.dstIps.mapM Subnet.ofText
  let scope : Scope := { space := { dstIps }, selection := t.selection, failures := t.failures }
  let (result, _) := ((t.question.ask scope).run).run { network := n, outcomes }
  return (sortByText (·.1) (← result)).map (·.2)

def drawing (t : Task) (n : Network) : Except Failure (List (String × String)) :=
  if t.draw.truthy then do return [(t.draw.shown, (← (← Topology.build n).digraph).dot)] else .ok []

def conclude (files : List (String × String)) : Except Failure Effects → Except Failure Effects
  | .ok e => .ok e
  | .error f =>
    if isReported f then .ok { exitCode := 1, stderr := "Error: " ++ f.message ++ "\n", files }
    else .error f

/-- Runs the command.  `read` gives the description in a file, or why there is none. -/
def run (args : List String) (read : String → Except String Document) (outcomes : List Outcome) :
    Except Failure Effects :=
  match task args with
  | .error e => .ok e
  | .ok t => match t.network.text?.map read with
    | none => .error .shape
    | some (.error why) => .ok { exitCode := 1, stderr := "Error: " ++ why ++ "\n" }
    | some (.ok d) => match (do
        let n ← Network.ofDocument d
        return (n, ← drawing t n) : Except Failure (Network × List (String × String))) with
      | .error f => conclude [] (.error f)
      | .ok (n, files) => conclude files do
        let texts := (← reports t n outcomes).map fun r => r.describe ++ "\n\n"
        return { stdout := String.join texts, files }

end Verify

/-! ## §2. Generating -/

namespace Generate

/-- The options of the command. -/
def spec : Spec where
  positionals := [fun size => (Text.integer? size).isSome, fun mode => Grid.Mode.ofLabel mode != .plain]
  options := [helpOption, ⟨["-o"], .one, false⟩]

def run (args : List String) : Effects :=
  match spec.read args with
  | .fault => usageFault
  | .help => usageHelp
  | .given a => match a.positionals.flatten with
    | [size, name] =>
      let n := (Text.integer? size).getD 0
      let mode := Grid.Mode.ofLabel name
      let file := if (a.value "-o").truthy then (a.value "-o").shown
        else "grid" ++ toString n ++ "-" ++ mode.label ++ ".json"
      { stdout := "Generating network for grid of size " ++ toString n ++ " in mode " ++ mode.label ++ "\n"
        files := [(file, (Grid.describe n mode).pretty 0)] }
    | _ => usageFault

end Generate

end ControlPlane.CommandLine
