/-
Errors as they are told to the user.

A run ends with a `RunError`. What reaches the user may be any failure with texts put around it on the way; `Report.of`
keeps the failure itself, tells all texts around it as details, and suggests what to do about it where it can.
-/
import Gleaner.Config.Error
import Gleaner.Lines

namespace Gleaner

/-- why a run ended early -/
inductive RunError where
  | config (e : ConfigError)
  | lineRead (location : String) (cause : StreamError)
  | selection (stage location reason : String)
  | output (e : IoError)
  | encode (reason : String)
  | cancelled
  | other (text : String)
  deriving DecidableEq, Repr

namespace RunError

def message : RunError → String
  | .config e => e.message
  | .lineRead location cause => "failed to read " ++ location ++ ": " ++ cause.message
  | .selection stage location reason => stage ++ " failed " ++ location ++ ": " ++ reason
  | .output e => "failed to write output: " ++ e.message
  | .encode reason => "failed to encode output record: " ++ reason
  | .cancelled => "run cancelled"
  | .other text => text

/-- the text of the failure behind an error -/
def cause? : RunError → Option String
  | .lineRead _ cause => some cause.message
  | .output e => some e.message
  | .encode reason => some reason
  | _ => none

/-- the error of a stream of lines read at a location -/
def ofStream (location : String) : StreamError → RunError
  | .cancelled => .cancelled
  | .ignore path message => .selection "ignore" ("at " ++ path) message
  | .read e => .lineRead location (.read e)

end RunError

/-- a failure before it is told -/
inductive Failure where
  | run (e : RunError)
  | config (e : ConfigError)
  | io (e : IoError)
  | text (s : String)

/-- the texts of a failure, from the failure to its causes -/
def Failure.texts : Failure → List String
  | .run e => e.message :: e.cause?.toList
  | .config e => [e.message]
  | .io e => [e.message]
  | .text s => [s]

structure Report where
  error : RunError
  details : Option String := none
  suggestion : Option String := none

namespace Report

/-- the lines that tell the report on a terminal -/
def lines (r : Report) : List String :=
  ("error: " ++ r.error.message) :: (r.details.map ("details: " ++ ·)).toList ++
    (r.suggestion.map ("suggestion: " ++ ·)).toList

/-- whether a text occurs in another -/
def mentions (text word : String) : Bool := (text.splitOn word).length > 1

/-- what can be said about an error from its kind -/
def basic (e : RunError) : Report :=
  match e with
  | .config _ =>
    { error := e,
      suggestion := some "Validate the configuration with 'grdep configcheck' or start from 'grdep skeleton'" }
  | .lineRead _ _ => { error := e, suggestion := some "Check that the files under the given roots are readable" }
  | .selection _ _ reason =>
    if mentions reason "lua" then
      { error := e, suggestion := some "Check that the lua entry point exists and returns a string" }
    else { error := e }
  | .output (.brokenPipe _) => { error := e, details := some "the output reader went away" }
  | .cancelled => { error := e, details := some "interrupted before all roots were processed" }
  | _ => { error := e }

/-- adds the texts around an error unless there are details or they say nothing new -/
def withChain (r : Report) (chain : String) : Report :=
  if r.details.isNone && chain != r.error.message then { r with details := some chain } else r

/-- the report of a failure with texts around it, the outermost first -/
def of (contexts : List String) (f : Failure) : Report :=
  let chain := String.intercalate ": " (contexts ++ f.texts)
  match f with
  | .run e => (basic e).withChain chain
  | .config e => (basic (.config e)).withChain chain
  | .io e => (basic (.output e)).withChain chain
  | .text _ => { error := .other chain }

end Report

end Gleaner
