/-
Stages: single operations from a text to texts.

Texts that are blank do not count: a stage all of whose outputs are blank has no match. A pattern without values gives
its matches in the last stage of a chain, and before that lets the input pass.
-/
import Gleaner.Config.Validate
import Gleaner.Glob
import Gleaner.Match.Script

namespace Gleaner

inductive Stage where
  /-- every match of a pattern, or constant values if there are any -/
  | regex (p : Regex.Pattern) (values : List String)
  /-- the input, or constant values if there are any, unless a pattern matches -/
  | negated (p : Regex.Pattern) (values : List String)
  /-- a template filled in from every match, all in one text -/
  | template (p : Regex.Pattern) (template : String)
  | values (values : List String)
  | shell (script : Shell.Script)
  /-- the input if a glob matches it -/
  | glob (g : Glob)
  | lua (script : Lua.Script)

namespace Stage

def kind : Stage → String
  | .regex _ _ => "regex"
  | .negated _ _ => "not"
  | .template _ _ => "template"
  | .values _ => "value"
  | .shell _ => "sh"
  | .glob _ => "glob"
  | .lua _ => "lua"

/-! ## From specifications -/

/-- the script a specification means; variables in the path of a file are replaced -/
def luaScript (env : Environment) (spec : LuaSpec) : Except ConfigError Lua.Script :=
  match spec.source, spec.file with
  | some code, _ => .ok { source := .inline code, entry := spec.entry }
  | none, some file =>
    match Expand.path env file with
    | .ok path => .ok { source := .file path, entry := spec.entry }
    | .error name =>
      .error (.invalidMatcher ("cannot expand lua file path " ++ file ++ ": error looking key '" ++ name ++
        "' up: environment variable not found"))
  | none, none => .error (.invalidMatcher "lua requires src or file")

/-- the stage of a specification. If several fields are set, the first of `lua`, `sh`, `glob` and `not` wins. -/
def ofSpec (env : Environment) (spec : StageSpec) : Except ConfigError Stage :=
  match spec.lua, spec.shell, spec.glob, spec.negated with
  | some script, _, _, _ => (luaScript env script).map Stage.lua
  | none, some body, _, _ => .ok (.shell { body := body })
  | none, none, some pattern, _ =>
    match Glob.compile pattern with
    | .ok g => .ok (.glob g)
    | .error e => .error (.invalidPattern pattern (some (e.describe pattern)))
  | none, none, none, some p => .ok (.negated p spec.values)
  | none, none, none, none =>
    match spec.regex, spec.template with
    | some p, some text => .ok (.template p text)
    | some p, none => .ok (.regex p spec.values)
    | none, some _ => .error (.invalidMatcher "tmpl requires r")
    | none, none => if spec.values.isEmpty then .error (.invalidMatcher "empty matcher") else .ok (.values spec.values)

/-! ## Matching -/

/-- constant values, or what there is without them -/
def valuesOr (constants found : List String) : List String :=
  if constants.isEmpty then found else constants

def whenMatched (matched : Bool) (what : String) (found : List String) : MatchResult :=
  if matched then .ok found else .error (.unmatched what)

/-- the outputs of a stage that stands last, blank ones included -/
def outputs (place : Place) (input : String) : Stage → Act MatchResult
  | .regex p constants =>
    let found := p.findAll input
    return whenMatched (!found.isEmpty) "regex" (valuesOr constants (found.map (·.whole)))
  | .negated p constants => return whenMatched (!p.isMatch input) "not" (valuesOr constants [input])
  | .template p text =>
    let filled := String.join ((p.findAll input).map (·.expand text))
    return whenMatched (!filled.isEmpty) "template" [filled]
  | .values constants => return .ok constants
  | .shell script => Act.call place script.turn input
  | .glob g => return whenMatched (g.isMatch input) "glob" [input]
  | .lua script => Act.call place script.turn input

/-- the outputs of a stage before the last one, blank ones included -/
def gated (place : Place) (input : String) : Stage → Act MatchResult
  | .regex p [] => return whenMatched (p.isMatch input) "regex" [input]
  | s => s.outputs place input

/-- the outputs of a stage, blank ones included -/
def found (s : Stage) (place : Place) (last : Bool) (input : String) : Act MatchResult :=
  if last then s.outputs place input else s.gated place input

/-- drops blank outputs; there is no match if none is left -/
def dropBlank (kind : String) (found : List String) : MatchResult :=
  match found.filter fun s => !Text.isBlank s with
  | [] => .error (.unmatched (kind ++ " produced only blank output"))
  | kept => .ok kept

/-- applies a stage to a text -/
def apply (s : Stage) (place : Place) (last : Bool) (input : String) : Act MatchResult := do
  return (← s.found place last input) >>= dropBlank s.kind

end Stage

end Gleaner
