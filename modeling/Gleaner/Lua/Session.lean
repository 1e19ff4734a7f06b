/-
Sessions: a Lua program that has been run once and whose functions can be called as often as wanted. What a call leaves
in the heap is there for the next one, whether the call ended well or not.
-/
import Gleaner.Lua.Run

namespace Gleaner.Lua

/-- what a call gives -/
inductive Outcome where
  | text (s : Bytes)
  /-- a first result that is no text -/
  | other (kind : String)
  | failed (reason : String)
  deriving DecidableEq

structure Session where
  machine : Machine

namespace Session

/-- a session for another call, with what is outside as it is now -/
def within (s : Session) (host : Host) : Machine := { s.machine with host := host }

/-- what an error says, without the calls that it came through -/
def complaint (e : Value) (m : Machine) : String :=
  "runtime error: " ++ Utf8.decode (Library.basicText e m).toList

/-- runs a program under a name, and what it fails with -/
def runChunk (code : Bytes) (label : String) (m : Machine) : Option String × Machine :=
  match Library.compileChunk code label none m with
  | .error e => (some ("syntax error: " ++ e), m)
  | .ok (f, m) =>
    let (result, m) := m.runCall f []
    match result with
    | .ok _ => (none, m)
    | .error e => (some (complaint e m), m)

/-- runs a program; there is no session if it fails -/
def start (code chunk : String) (host : Host) : Except String Session × Host :=
  match runChunk (ofText code) chunk (Library.freshMachine host) with
  | (none, m) => (.ok ⟨m⟩, m.host)
  | (some reason, m) => (.error reason, m.host)

/-- looks a global function up -/
def entry (name : String) (m : Machine) : Except String Value × Machine :=
  let m := { m with frames := [], current := 0, depth := 0, native := 0 }
  match Machine.run Machine.maxSteps (m.index none (fun _ => "") (.table m.globals) (.ofString name)) with
  | (.ok found, m) =>
    let v := found.headD .nil
    (if v.isFunction then .ok v else .error ("error converting Lua " ++ v.kindName ++ " to function"), m)
  | (.error e, m) => (.error (complaint e m), m)

/-- calls a function of a session with a text -/
def call (s : Session) (name input : String) (host : Host) : Outcome × Session × Host :=
  match entry name (s.within host) with
  | (.error reason, m) => (.failed reason, ⟨m⟩, m.host)
  | (.ok f, m) =>
    let (result, m) := m.runCall f [.ofString input]
    let outcome := match result with
      | .error e => Outcome.failed (complaint e m)
      | .ok vs =>
        match vs.headD .nil with
        | .text s => .text s
        | v => .other v.kindName
    (outcome, ⟨m⟩, m.host)

end Session

end Gleaner.Lua
