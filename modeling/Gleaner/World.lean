/-
What stages of chains work on: files and variables, the cancellation signal, what scripts keep from one call to the
next, and what has been measured and complained about so far.

What a script keeps belongs to the place of its stage, so that every stage has its own. The signal is a function of the
number of looks taken at it: nothing is assumed about when it goes up.
-/
import Gleaner.Counters
import Gleaner.Lua.Session
import Gleaner.Match.Error
import Gleaner.Shell.Script

namespace Gleaner

/-- the part of a configuration a chain belongs to -/
inductive Part where
  | alone
  | ignore
  | category
  | node
  | categoryNormalizer
  | nodeNormalizer
  deriving DecidableEq, Repr

/-- where a stage stands -/
structure Place where
  part : Part := .alone
  rule : Nat := 0
  stage : Nat := 0
  deriving DecidableEq, Repr

/-- what a script keeps from one call to the next: the file that it was put into, or the session of its program -/
inductive Kept where
  | shell (file : Shell.ScriptFile)
  | lua (session : Lua.Session)

structure World where
  files : FileNode := .emptyDir
  env : Environment := ⟨[]⟩
  /-- whether the signal is up at each look -/
  signal : Nat → Bool := fun _ => false
  looks : Nat := 0
  sessions : List (Place × Kept) := []
  /-- the newest first -/
  samples : List Sample := []
  /-- the newest first -/
  warnings : List String := []

/-- what is done in the world -/
abbrev Act := StateM World

abbrev MatchResult := Except MatchError (List String)

/-- what comes of a call of a script -/
structure Turn where
  result : MatchResult
  /-- what is kept for the next call -/
  kept : Option Kept
  /-- the files that there are then -/
  files : FileNode

/-- how a script is called with a text, what is kept from the calls before, and the files and variables -/
abbrev Callable := String → Option Kept → Lua.Host → Turn

namespace World

def host (w : World) : Lua.Host := { files := w.files, env := w.env }

/-- what is kept at a place -/
def held (w : World) (place : Place) : Option Kept := (w.sessions.find? (·.1 == place)).map (·.2)

/-- the world with something else kept at a place, or nothing -/
def keep (w : World) (place : Place) (kept : Option Kept) : World :=
  { w with sessions := (kept.map fun k => (place, k)).toList ++ w.sessions.filter (·.1 != place) }

/-- the table of what has been measured -/
def table (w : World) : List (String × Aggregate) := tally w.samples.reverse

/-- ends what is kept at the places that satisfy `p` -/
def endSessions (w : World) (p : Place → Bool) : World :=
  { w with sessions := w.sessions.filter fun (place, _) => !p place }

end World

namespace Act

def warn (text : String) : Act Unit := modify fun w => { w with warnings := text :: w.warnings }

/-- one look at the signal -/
def cancelled : Act Bool := modifyGet fun w => (w.signal w.looks, { w with looks := w.looks + 1 })

/-- the items of a reader; the reader looks at the signal before each line and before its end -/
def readLines (s : Source) : Act (List ReadLine) :=
  modifyGet fun w =>
    let items := Gleaner.readLines s fun n => w.signal (w.looks + n)
    (items, { w with looks := w.looks + items.countP (·.error.isNone) + 1 })

/-- takes a sample of an action -/
def measure {ε α : Type} (key : String) (act : Act (Except ε α)) : Act (Except ε α) := do
  let r ← act
  let outcome := match r with
    | .ok _ => CallEnd.success
    | .error _ => .failure
  modify fun w => { w with samples := ⟨key, outcome, 0⟩ :: w.samples }
  return r

/-- calls a script with what is kept at its place, and keeps there what the call leaves -/
def call (place : Place) (script : Callable) (text : String) : Act MatchResult :=
  modifyGet fun w =>
    let turn := script text (w.held place) w.host
    (turn.result, { w with files := turn.files }.keep place turn.kept)

end Act

end Gleaner
