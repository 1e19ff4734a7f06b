/-
Scripts as stages. A script gets the input and gives lines: a shell script writes them, a function of a Lua program
returns them in one text.

A shell script that cannot be run, fails or takes too long has no match; its file is made before its first run and
stays. A Lua program is loaded at the first call and stays loaded; one that fails to load, raises an error or returns no
text is a failure. Where making the file or loading the program fails nothing stays, and the next call tries again.
-/
import Gleaner.World

namespace Gleaner

/-- the lines of a text, of which there is always one -/
def splitLines (bytes : Utf8.Bytes) : List String := ((Utf8.decode bytes).toList.splitOn '\n').map String.ofList

/-- what the end of a shell script means for a stage -/
def Shell.Script.answer : Except Shell.Refusal Utf8.Bytes → MatchResult
  | .ok output => .ok (splitLines output)
  | .error refusal => .error (.unmatched ("shell script: " ++ refusal.message))

/-- the file that is kept, or a new one -/
def Shell.Script.file (s : Shell.Script) (kept : Option Kept) (host : Lua.Host) :
    Except Shell.Refusal Shell.ScriptFile :=
  match kept with
  | some (.shell file) => .ok file
  | _ => s.prepare host.files host.env

/-- a call of a shell script -/
def Shell.Script.turn (s : Shell.Script) : Callable := fun input kept host =>
  match s.file kept host with
  | .error refusal => { result := answer (.error refusal), kept := none, files := host.files }
  | .ok file =>
    let (outcome, file, files) := s.run file (Utf8.encode input) host.files host.env
    { result := answer outcome, kept := some (.shell file), files := files }

namespace Lua

inductive ScriptSource where
  | inline (code : String)
  | file (path : String)
  deriving DecidableEq

structure Script where
  source : ScriptSource
  entry : String
  deriving DecidableEq

namespace Script

/-- the program and its name in messages, or why there is none -/
def program (s : Script) (files : FileNode) : Except String (String × String) :=
  match s.source with
  | .inline code => .ok (code, "inline")
  | .file path =>
    match files.readText path with
    | .ok code => .ok (code, path)
    | .error e => .error (path ++ ": " ++ e.message)

/-- the session of a program that has been run, if that went well, and the files it has left -/
def start (s : Script) (host : Host) : Except String Session × FileNode :=
  match s.program host.files with
  | .error reason => (.error reason, host.files)
  | .ok (code, chunk) =>
    let (session, host) := Session.start code chunk host
    (session, host.files)

/-- what the end of a call means for a stage -/
def answer (s : Script) : Outcome → MatchResult
  | .text bytes => .ok (splitLines bytes.toList)
  | .other kind => .error (.invalidReturn s.entry kind)
  | .failed reason => .error (.scriptCall s.entry reason)

/-- the session that is kept, or a new one, and the files that there are then -/
def session (s : Script) (kept : Option Kept) (host : Host) : Except String Session × FileNode :=
  match kept with
  | some (.lua session) => (.ok session, host.files)
  | _ => s.start host

/-- a call of the entry of a program -/
def turn (s : Script) : Callable := fun input kept host =>
  match s.session kept host with
  | (.error reason, files) => { result := .error (.scriptLoad reason), kept := none, files := files }
  | (.ok session, files) =>
    let (outcome, session, host) := session.call s.entry input { host with files := files }
    { result := s.answer outcome, kept := some (.lua session), files := host.files }

end Script

end Lua

end Gleaner
