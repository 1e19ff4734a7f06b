/-
The commands. Each works on the world and either ends well or fails with texts around its failure.
-/
import Gleaner.Command.Arguments
import Gleaner.Command.Skeleton
import Gleaner.Config.Sources
import Gleaner.Pipeline

namespace Gleaner

/-- a failure and the texts around it, the outermost first -/
structure CommandFailure where
  contexts : List String := []
  failure : Failure

def CommandFailure.report (f : CommandFailure) : Report := Report.of f.contexts f.failure

namespace Command

/-- a text put around what fails for a configuration -/
def during {α : Type} (text : String) (r : Except ConfigError α) : Except CommandFailure α :=
  r.mapError fun e => ⟨[text], .config e⟩

/-- loads and compiles configurations -/
def prepare (w : World) (sources : List String) : Except CommandFailure (Config × Pipeline) := do
  let config ← during "failed to load configuration" (Config.load w.files sources)
  let pipeline ← during "failed to compile configuration" (Pipeline.build w.env config)
  return (config, pipeline)

/-- the text of checked configurations put together -/
def checkConfig (w : World) (sources : List String) (json : Bool) : Except CommandFailure String := do
  let (config, _) ← prepare w sources
  return if json then config.json ++ "\n" else config.yaml

/-! ## Trying a pattern -/

/-- what a line shows of its matches: the groups of each, or a template filled in from all -/
def foundJson (template : Option String) (found : List Regex.Match) : Json :=
  match template with
  | some t => .string (String.join (found.map (·.expand t)))
  | none => .array (found.map fun m => .ofStrings m.texts)

/-- the object written for a line that has matches -/
def matchedJson? (p : Regex.Pattern) (template : Option String) (line : ReadLine) : Option Json :=
  match p.findAll line.text with
  | [] => none
  | found =>
    some (.object [("linum", .ofNat line.number), ("text", .string line.text), ("matches", foundJson template found)])

/-- the lines written for the lines of an input, and the failure it ended with -/
def tryLines (p : Regex.Pattern) (template : Option String) : List ReadLine → List String × Option CommandFailure
  | [] => ([], none)
  | line :: rest =>
    match line.error with
    | some e => ([], some { failure := .run (.ofStream ("stdin line " ++ toString line.number) e) })
    | none =>
      let (lines, failure) := tryLines p template rest
      match matchedJson? p template line with
      | some json => (json.render :: lines, failure)
      | none => (lines, failure)

/-- tries a pattern on the lines of an input -/
def tryPattern (regex : String) (template : Option String) (input : Source) :
    Act (List String × Option CommandFailure) := do
  match Regex.Pattern.compile regex with
  | .error _ => return ([], some { failure := .config (.invalidPattern regex none) })
  | .ok p => return tryLines p template (← Act.readLines input)

/-! ## Running -/

/-- what a run has written, and how it ended -/
structure RunResult where
  output : Output
  outcome : Except CommandFailure Summary

/-- runs a pipeline on an input -/
def runPipeline (p : Pipeline) (input : Source) (output : Output) : StateM Workspace RunResult :=
  fun workspace =>
    let (outcome, s) := (p.run input).run { workspace := workspace, output := output }
    (⟨s.output, outcome.mapError fun e => { failure := .run e }⟩, s.workspace)

/-- runs configurations on an input -/
def runSources (sources : List String) (categoryOnly : Bool) (input : Source) : Act RunResult := do
  let w ← get
  match prepare w sources with
  | .error f => return ⟨{}, .error f⟩
  | .ok (_, p) =>
    let (result, workspace) := runPipeline { p with categoryOnly := categoryOnly } input {} { world := w }
    set (workspace.world.endSessions fun _ => true)
    return result

end Command

end Gleaner
