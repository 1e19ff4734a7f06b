/-
The program: from a command line and an input to what is written to the output and told about it.
-/
import Gleaner.Command.Basic
import Gleaner.Text.Literal

namespace Gleaner

structure ProgramResult where
  status : Nat
  output : String
  /-- lines for the user -/
  messages : List String := []
  warnings : List String := []
  /-- what has been measured, a line for each key -/
  measured : List String := []

def programVersion : String := "0.1.0"

namespace ProgramResult

/-- lines with a line feed behind each of them -/
def lineText (lines : List String) : String := String.join (lines.map (· ++ "\n"))

def ofFailure (output : String) (failure : Option CommandFailure) : ProgramResult :=
  match failure with
  | none => { status := 0, output := output }
  | some f => { status := 1, output := output, messages := f.report.lines }

def ofUsage : UsageError → ProgramResult
  | .help => { status := 0, output := "" }
  | .version => { status := 0, output := "grdep " ++ programVersion ++ "\n" }
  | _ => { status := 2, output := "" }

/-- the line that tells the number of samples of a key -/
def measuredLine (key : String) (a : Aggregate) : String :=
  "key=" ++ Text.literal key ++ " count=" ++ toString a.count

end ProgramResult

namespace Command

/-- carries out a command -/
def perform (c : Command) (input : Source) : Act ProgramResult := do
  match c with
  | .skeleton => return .ofFailure Gleaner.skeleton none
  | .configCheck sources json =>
    match checkConfig (← get) sources json with
    | .ok text => return .ofFailure text none
    | .error f => return .ofFailure "" (some f)
  | .re regex template =>
    let (lines, failure) ← tryPattern regex template input
    return .ofFailure (ProgramResult.lineText lines) failure
  | .run sources categoryOnly =>
    let r ← runSources sources categoryOnly input
    let failure := match r.outcome with
      | .ok _ => none
      | .error f => some f
    return .ofFailure r.output.text failure

end Command

/-- the program -/
def program (args : List String) (input : Source) (w : World) : ProgramResult × World :=
  match Options.parse args with
  | .error e => (.ofUsage e, w)
  | .ok options =>
    let (r, w) := options.command.perform input w
    let measured := if options.metrics then w.table.map fun (key, a) => ProgramResult.measuredLine key a else []
    ({ r with warnings := w.warnings.reverse, measured := measured }, w)

end Gleaner
