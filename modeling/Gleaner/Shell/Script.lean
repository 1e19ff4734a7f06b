/-
Shell scripts as filters. Before its first run the interpreter is looked up and the script is put into a temporary
file; that is given to the interpreter in each run. What a run writes within its time is the answer, unless it ends with
a failure. A run may do to the file what it likes, and the next one finds it so.
-/
import Gleaner.Shell.Interpret

namespace Gleaner.Shell

structure Script where
  body : String
  /-- in milliseconds -/
  timeout : Nat := 3000
  deriving BEq

/-- why a script gives no output -/
inductive Refusal where
  | noInterpreter
  | noScriptFile
  | exited (status : Nat)
  | killed (signal : Nat)
  | timedOut (timeout : Nat)

/-- a number of milliseconds in seconds -/
def secondsText (milliseconds : Nat) : String :=
  let part := milliseconds % 1000
  let digits := (toString (1000 + part)).toList.drop 1
  let digits := (digits.reverse.dropWhile (· = '0')).reverse
  toString (milliseconds / 1000) ++ if digits.isEmpty then "" else "." ++ String.ofList digits

/-- a signal by its number and name -/
def signalText (n : Nat) : String :=
  let name := ((Builtins.signalNames.find? (·.2 = n)).map (·.1)).getD ""
  toString n ++ if name.isEmpty then "" else " (SIG" ++ name ++ ")"

def Refusal.message : Refusal → String
  | .noInterpreter => "bash not found in PATH"
  | .noScriptFile => "Failed to create script file"
  | .exited status => "exited with exit status: " ++ toString status
  | .killed signal => "exited with signal: " ++ signalText signal
  | .timedOut timeout => "timed out after " ++ secondsText timeout ++ "s"

/-- whether the interpreter is in one of the directories that are searched -/
def hasInterpreter (env : Environment) : Bool :=
  (((env.get? "PATH").getD "").toList.splitOn ':').any fun d =>
    toolDirs.contains (Tools.dropTrailingSlashes (String.ofList d))

/-- directories outside of the tree in which files can be made -/
def temporaryDirs : List String := ["/", "/tmp", "/var/tmp", "/dev/shm", "/root"]

/-- whether a temporary file can be made -/
def hasTemporary (files : FileNode) (env : Environment) : Bool :=
  match env.get? "TMPDIR" with
  | none => true
  | some d =>
    if d.isEmpty then true
    else if d.startsWith "/" then temporaryDirs.contains (Tools.dropTrailingSlashes d)
    else
      match files.lookup d with
      | .ok n => n.isDir
      | .error _ => false

/-- commands that a script may run -/
def maxSteps : Nat := 200000

/-- the file of a script, outside of the tree: what stands there, if anything does -/
structure ScriptFile where
  node : Option FileNode

/-- looks the interpreter up and puts the script into a file -/
def Script.prepare (s : Script) (files : FileNode) (env : Environment) : Except Refusal ScriptFile :=
  if !hasInterpreter env then .error .noInterpreter
  else if !hasTemporary files env then .error .noScriptFile
  else .ok ⟨some (.file (Utf8.encode s.body))⟩

namespace ScriptFile

/-- the directories outside of the tree, with the file in one of them -/
def outside (f : ScriptFile) : FileNode :=
  .dir (["bin", "dev", "etc", "home", "root", "tmp", "usr", "var", "work"].map fun n =>
    (n, .dir (if n = "tmp" then (f.node.map fun node => ("script.sh", node)).toList else [])))

/-- the file that a run has left among the directories outside of the tree -/
def left (outside : FileNode) : ScriptFile := ⟨outside.at? ["tmp", "script.sh"]⟩

/-- the program that the interpreter finds in the file, or the status that it ends with. The bytes of a program are its
text, but for those that cannot be part of one; a program that starts with such a byte in its first line is refused. -/
def program (f : ScriptFile) : Except Nat (List Char) :=
  match f.node with
  | some (.file content none) =>
    let cs := (ofBytes content).toList
    let nul := Char.ofNat 0
    if ((cs.take 80).takeWhile (· ≠ '\n')).contains nul then .error 126 else .ok (cs.filter (· ≠ nul))
  | some (.file _ (some _)) | some (.dir _) => .error 126
  | some (.link _) | none => .error 127

end ScriptFile

/-- the state that a script starts with -/
def Script.initial (s : Script) (f : ScriptFile) (input : Utf8.Bytes) (files : FileNode) (env : Environment) : State :=
  let vars := env.vars.map fun (n, v) => (ofText n, { value := .text (ofText v), exported := true : Variable })
  let own (name value : String) (exported : Bool) : List (String × Variable) :=
    if vars.any (·.1 == name) && name ≠ "PWD" then [] else [(name, { value := .text value, exported := exported })]
  let basics := own "PWD" "/work" true ++ own "IFS" " \t\n" false ++ own "OPTIND" "1" false ++
    own "BASH_VERSION" "5.2.15(1)-release" false ++ own "SHLVL" "1" true ++ own "PS4" "+ " false ++
    own "HOSTNAME" "localhost" false ++ own "BASH" "/usr/bin/bash" false ++ own "OSTYPE" "linux-gnu" false
  { scope := { vars := basics ++ vars.filter (·.1 != "PWD"), name := "/tmp/script.sh", fds := [(0, 0), (1, 1), (2, 2)] }
    files := files, outside := f.outside
    channels := #[.source (ofBytes input).toList false, .sink [], .null]
    limit := s.timeout, steps := maxSteps }

/-- how deep commands may be nested, those of loops counted one by one -/
def maxDepth : Nat := 10000000

/-- what the end of a run means -/
def Script.outcome (s : Script) (result : Except Leave Unit) (state : State) : Except Refusal Utf8.Bytes :=
  let finish (status : Nat) : Except Refusal Utf8.Bytes :=
    if state.jobs.any fun (t, holds) => holds && t > state.limit then .error (.timedOut s.timeout)
    else if status ≠ 0 then .error (.exited status)
    else
      match state.channels[Run.callerOutput]? with
      | some (.sink pieces) => .ok (toBytes (Run.collected pieces))
      | _ => .ok []
  match result with
  | .ok () => finish state.status
  | .error (.exit n) => finish n
  | .error (.return_ n) => finish n
  | .error (.break_ _) => finish state.status
  | .error (.continue_ _) => finish state.status
  | .error (.killed n) => .error (.killed n)
  | .error .forever => .error (.timedOut s.timeout)
  | .error .late => .error (.timedOut s.timeout)

/-- runs a script whose file has been made: what it gives, its file then, and the files that it leaves -/
def Script.run (s : Script) (f : ScriptFile) (input : Utf8.Bytes) (files : FileNode) (env : Environment) :
    Except Refusal Utf8.Bytes × ScriptFile × FileNode :=
  match f.program with
  | .error status => (.error (.exited status), f, files)
  | .ok program =>
    let (result, state) := (withExit maxDepth (runText maxDepth program)).run (s.initial f input files env)
    (s.outcome result state, .left state.outside, state.files)

end Gleaner.Shell
