import ControlPlane.CommandLine.Verify
import ControlPlane.Document.Reader

/-!
# The program

`grid` as the first argument writes the description of a grid; otherwise the arguments ask a question about
a network.  No solver is attached, so every check is left open.
-/
namespace ControlPlane.CommandLine

def openOutcomes : List Outcome := [{ answer := .unknown (.text "no solver is attached") }]

def readDescription (file : String) : IO (Except String Document) := do
  try
    let text ← IO.FS.readFile file
    match Document.parse? text with
    | some d => return .ok d
    | none => return .error "Expecting value"
  catch _ => return .error ("[Errno 2] No such file or directory: " ++ Text.quoted file)

/-- Carries out what a command leaves behind. -/
def perform (e : Effects) : IO UInt32 := do
  IO.print e.stdout
  IO.eprint e.stderr
  for (file, text) in e.files do
    IO.FS.writeFile file text
  return e.exitCode.toUInt32

def verify (args : List String) : IO UInt32 := do
  let description ← match Verify.task args with
    | .ok t => readDescription t.network.shown
    | .error _ => pure (.error "")
  match Verify.run args (fun _ => description) openOutcomes with
  | .ok e => perform e
  | .error f =>
    IO.eprintln f.message
    return 1

end ControlPlane.CommandLine

/-- Runs the program. -/
def main (args : List String) : IO UInt32 :=
  match args with
  | "grid" :: rest => ControlPlane.CommandLine.perform (ControlPlane.CommandLine.Generate.run rest)
  | _ => ControlPlane.CommandLine.verify args
