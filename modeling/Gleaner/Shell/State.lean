/-
What a shell script works on: variables, files, the channels its output and input go through, and a clock.

Time only passes where a script waits. Parts of a script that run side by side start at the same time, one after the
other is run, and what they write is put in the order of time at the end.
-/
import Gleaner.Files.Expand
import Gleaner.Files.Tree
import Gleaner.Shell.Parser

namespace Gleaner.Shell

/-! ## Variables -/

inductive VarValue where
  | unset
  | text (s : String)
  | list (items : List (Nat × String))
  | table (items : List (String × String))
  deriving Inhabited

structure Variable where
  value : VarValue := .unset
  exported : Bool := false
  fixed : Bool := false
  integer : Bool := false
  /-- texts are kept in upper or in lower case -/
  upper : Option Bool := none
  deriving Inhabited

namespace VarValue

/-- the text of a variable, that of the first item for a list -/
def text? : VarValue → Option String
  | .unset => none
  | .text s => some s
  | .list items => (items.find? (·.1 = 0)).map (·.2)
  | .table items => (items.find? (·.1 == "0")).map (·.2)

/-- all texts of a variable -/
def texts : VarValue → List String
  | .unset => []
  | .text s => [s]
  | .list items => items.map (·.2)
  | .table items => items.map (·.2)

def keys : VarValue → List String
  | .unset => []
  | .text _ => ["0"]
  | .list items => items.map fun (i, _) => toString i
  | .table items => items.map (·.1)

end VarValue

/-- puts an item into a list in the order of places -/
def putItem (i : Nat) (v : String) : List (Nat × String) → List (Nat × String)
  | [] => [(i, v)]
  | (j, w) :: rest =>
    if i < j then (i, v) :: (j, w) :: rest
    else if i = j then (i, v) :: rest
    else (j, w) :: putItem i v rest

def putPair (k v : String) (items : List (String × String)) : List (String × String) :=
  if items.any (·.1 == k) then items.map fun (n, w) => if n == k then (n, v) else (n, w) else items ++ [(k, v)]

/-! ## Channels -/

/-- a place of a file: within the tree, or outside of it in a tree of its own -/
structure FilePlace where
  outside : Bool
  path : String
  deriving DecidableEq

inductive Channel where
  | source (rest : List Char) (endless : Bool)
  /-- pieces of output with the time they were written at, the latest first -/
  | sink (pieces : List (Nat × String))
  | file (place : FilePlace) (position : Nat) (appends : Bool)
  | null
  deriving Inhabited

/-! ## The state -/

structure Settings where
  errexit : Bool := false
  nounset : Bool := false
  pipefail : Bool := false
  noglob : Bool := false
  noclobber : Bool := false
  nullglob : Bool := false
  dotglob : Bool := false
  extglob : Bool := false
  nocasematch : Bool := false
  nocaseglob : Bool := false
  lastpipe : Bool := false

/-- what is different in every part that runs by itself -/
structure Scope where
  vars : List (String × Variable) := []
  functions : List (String × Command) := []
  args : List String := []
  name : String := "bash"
  settings : Settings := {}
  fds : List (Nat × Nat) := []
  /-- the working directory, as names from where the script was started -/
  dir : List String := []
  dirOutside : Bool := false
  /-- variables that go back to what they were at the end of each function that runs -/
  saved : List (List (String × Option Variable)) := []
  /-- what is run at the end -/
  atExit : Option String := none
  loops : Nat := 0
  functionDepth : Nat := 0
  sourceDepth : Nat := 0
  aliases : List (String × String) := []

structure State where
  scope : Scope := {}
  files : FileNode
  outside : FileNode
  channels : Array Channel := #[]
  status : Nat := 0
  /-- the status of each stage of the latest pipeline -/
  stages : List Nat := [0]
  /-- in milliseconds -/
  clock : Nat := 0
  limit : Nat
  /-- the times that commands in the background end at, and whether they hold the output -/
  jobs : List (Nat × Bool) := []
  /-- whether a failure is looked at by what is around -/
  guarded : Bool := false
  /-- commands that may still be run -/
  steps : Nat
  /-- the length of what has been written to the caller -/
  written : Nat := 0
  seed : UInt64 := 42
  /-- the place of `getopts` within an argument -/
  optionPlace : Nat := 0

/-- why a script or a part of it ends -/
inductive Leave where
  | exit (status : Nat)
  | killed (signal : Nat)
  /-- goes on for ever -/
  | forever
  /-- goes on for longer than allowed -/
  | late
  | break_ (n : Nat)
  | continue_ (n : Nat)
  | return_ (status : Nat)
  deriving DecidableEq

abbrev Run := ExceptT Leave (StateM State)

namespace Run

def scope : Run Scope := return (← get).scope

def modifyScope (f : Scope → Scope) : Run Unit := modify fun s => { s with scope := f s.scope }

def setStatus (n : Nat) : Run Unit := modify fun s => { s with status := n }

/-- counts a step; a script that takes too many goes on for ever -/
def tick : Run Unit := do
  let s ← get
  if s.steps = 0 then throw .forever
  set { s with steps := s.steps - 1 }

/-- lets time pass -/
def wait (milliseconds : Nat) : Run Unit := do
  let s ← get
  set { s with clock := s.clock + milliseconds }
  if s.clock + milliseconds > s.limit then throw .late

/-! ## Variables -/

def stored? (name : String) : Run (Option Variable) := do
  return ((← scope).vars.find? (·.1 == name)).map (·.2)

def text? (name : String) : Run (Option String) := do
  return (← stored? name).bind fun v => v.value.text?

def textOr (name default : String) : Run String := return (← text? name).getD default

def putVariable (name : String) (v : Variable) : Run Unit :=
  modifyScope fun s =>
    if s.vars.any (·.1 == name) then
      { s with vars := s.vars.map fun (n, w) => if n == name then (n, v) else (n, w) }
    else { s with vars := (name, v) :: s.vars }

def removeVariable (name : String) : Run Unit :=
  modifyScope fun s => { s with vars := s.vars.filter (·.1 != name) }

/-- the environment of the commands that are called -/
def environment : Run (List (String × String)) := do
  return (← scope).vars.filterMap fun (n, v) =>
    if v.exported then v.value.text?.map fun s => (n, s) else none

def separators : Run String := return (← textOr "IFS" " \t\n")

/-! ## Files -/

/-- the directory that scripts are started in, as an absolute path -/
def home : List String := ["work"]

/-- names without those that stand still or go back -/
def normal (names : List String) : List String :=
  (names.foldl (fun (acc : List String) n =>
    if n.isEmpty || n = "." then acc
    else if n = ".." then acc.drop 1
    else n :: acc) []).reverse

/-- where a path leads -/
def placeOf (path : String) : Run FilePlace := do
  let s ← scope
  if path.startsWith "/" then
    let names := normal (FileNode.names path)
    if names.take home.length = home then
      let inner := names.drop home.length
      return { outside := false, path := if inner.isEmpty then "." else String.intercalate "/" inner }
    else return { outside := true, path := String.intercalate "/" names }
  else if s.dirOutside then
    return { outside := true, path := String.intercalate "/" (normal (s.dir ++ FileNode.names path)) }
  else
    return { outside := false, path := if s.dir.isEmpty then path else String.intercalate "/" s.dir ++ "/" ++ path }

def tree (place : FilePlace) : Run FileNode := do
  let s ← get
  return if place.outside then s.outside else s.files

def setTree (place : FilePlace) (n : FileNode) : Run Unit :=
  modify fun s => if place.outside then { s with outside := n } else { s with files := n }

/-- what a path leads to -/
def lookup (place : FilePlace) : Run (Except IoError FileNode) := do
  let t ← tree place
  if place.outside && place.path.isEmpty then return .ok t
  if place.path.endsWith "/" && place.path.length > 1 then
    match t.lookup (String.ofList (place.path.toList.dropLast)) with
    | .ok (.file _ _) => return .error .notDirectory
    | r => return r
  return t.lookup place.path

/-- the texts of failures as tools give them -/
def failureText : IoError → String
  | .notFound => "No such file or directory"
  | .notDirectory => "Not a directory"
  | .isDirectory => "Is a directory"
  | .tooManyLinks => "Too many levels of symbolic links"
  | .nameTooLong => "File name too long"
  | e => e.message

/-- the text of a file; one that cannot be read to its end is not read at all -/
def readFile (path : String) : Run (Except String String) := do
  if path.isEmpty then return .error "No such file or directory"
  if path == "/dev/null" then return .ok ""
  match ← lookup (← placeOf (ofText (toText path))) with
  | .ok (.file b none) => return .ok (ofBytes b)
  | .ok (.file _ (some fault)) => return .error (failureText fault.error)
  | .ok (.dir _) => return .error "Is a directory"
  | .ok (.link _) => return .error "No such file or directory"
  | .error e => return .error (failureText e)

/-- the directory that a path is in -/
def parentOf (place : FilePlace) : FilePlace :=
  { place with path := match (FileNode.names place.path).dropLast with
      | [] => if place.outside then "" else "."
      | names => String.intercalate "/" names }

/-- writes a file anew or at its end; an error if there is no place for it -/
def writeFile (place : FilePlace) (content : String) : Run (Except String Unit) := do
  if place.path.isEmpty then return .error "No such file or directory"
  match ← lookup place with
  | .ok (.dir _) => return .error "Is a directory"
  | .ok (.file _ (some (.refused e))) => return .error (failureText e)
  | .error .notDirectory => return .error "Not a directory"
  | r =>
    let missing := match r with
      | .ok _ => false
      | .error _ => true
    if missing then
      match ← lookup (parentOf place) with
      | .ok (.dir _) => pure ()
      | .ok _ => return .error "Not a directory"
      | .error e => return .error (failureText e)
    setTree place ((← tree place).write place.path (.file (toBytes content)))
    return .ok ()

def fileText (place : FilePlace) : Run String := do
  match ← lookup place with
  | .ok (.file b _) => return ofBytes b
  | _ => return ""

/-! ## Channels -/

def newChannel (c : Channel) : Run Nat :=
  modifyGet fun s => (s.channels.size, { s with channels := s.channels.push c })

def setChannel (i : Nat) (c : Channel) : Run Unit :=
  modify fun s => { s with channels := s.channels.setIfInBounds i c }

/-- the channel behind a number -/
def channelOf (fd : Nat) : Run (Option Nat) := return ((← scope).fds.find? (·.1 = fd)).map (·.2)

def bindFd (fd channel : Nat) : Run Unit :=
  modifyScope fun s => { s with fds := (fd, channel) :: s.fds.filter (·.1 ≠ fd) }

def closeFd (fd : Nat) : Run Unit := modifyScope fun s => { s with fds := s.fds.filter (·.1 ≠ fd) }

/-- the numbers of the channels that lead to the caller -/
def callerInput : Nat := 0
def callerOutput : Nat := 1
def nowhere : Nat := 2

/-- how much a pipe holds -/
def pipeSize : Nat := 65536

/-- how much of the input of the caller has not been read -/
def unread : Run Nat := do
  match (← get).channels[callerInput]? with
  | some (.source rest _) => return rest.length
  | _ => return 0

/-- writes a text; whether there is a channel for it. A caller that is still writing does not read. -/
def emit (fd : Nat) (text : String) : Run Bool := do
  match ← channelOf fd with
  | none => return text.isEmpty
  | some i =>
    if text.isEmpty then return true
    match (← get).channels[i]? with
    | some (.sink pieces) =>
      setChannel i (.sink (((← get).clock, text) :: pieces))
      if i = callerOutput then
        modify fun s => { s with written := s.written + text.length }
        if (← get).written > pipeSize && (← unread) > pipeSize then throw .late
      return true
    | some (.file place position appends) =>
      let old ← fileText place
      let at_ := if appends then old.length else position
      let cs := old.toList
      let before := cs.take at_ ++ List.replicate (at_ - cs.length) (Char.ofNat 0)
      let _ ← writeFile place (String.ofList (before ++ text.toList ++ cs.drop (at_ + text.length)))
      setChannel i (.file place (at_ + text.length) appends)
      return true
    | some .null => return true
    | _ => return false

/-- what can be read, and whether it goes on for ever -/
def available (fd : Nat) : Run (Option (List Char × Bool)) := do
  match ← channelOf fd with
  | none => return none
  | some i =>
    match (← get).channels[i]? with
    | some (.source rest endless) => return some (rest, endless)
    | some .null => return some ([], false)
    | some (.file place position _) => return some ((← fileText place).toList.drop position, false)
    | _ => return none

/-- goes over what has been read -/
def consume (fd n : Nat) : Run Unit := do
  match ← channelOf fd with
  | none => return
  | some i =>
    match (← get).channels[i]? with
    | some (.source rest endless) => setChannel i (.source (rest.drop n) endless)
    | some (.file place position appends) => setChannel i (.file place (position + n) appends)
    | _ => return

/-- what has been written into a sink, in the order of time -/
def collected (pieces : List (Nat × String)) : String :=
  String.join ((pieces.reverse.mergeSort fun a b => a.1 ≤ b.1).map (·.2))

/-- writes a message for the user -/
def complain (message : String) : Run Unit := do
  let _ ← emit 2 message

/-- the message of a command that is part of the shell, and a status -/
def refuse (status : Nat) (message : String) : Run Unit := do
  complain ((← scope).name ++ ": " ++ message ++ "\n")
  setStatus status

/-! ## Parts that run by themselves -/

/-- runs something whose changes to variables and the like are forgotten. What ends it, ends it only. -/
def isolated (act : Run Unit) : Run Unit := do
  let outer := (← get).scope
  modifyScope fun s => { s with atExit := none, loops := 0 }
  let result : Except Leave Unit ← fun s =>
    let (r, s) := act s
    (.ok r, s)
  modify fun s => { s with scope := outer }
  match result with
  | .ok () => return
  | .error (.exit n) => setStatus n
  | .error (.return_ n) => setStatus n
  | .error (.break_ _) => return
  | .error (.continue_ _) => return
  | .error e => throw e

/-- runs something with its output going into a channel, and gives what it wrote -/
def captured (act : Run Unit) : Run String := do
  let i ← newChannel (.sink [])
  isolated do
    bindFd 1 i
    act
  match (← get).channels[i]? with
  | some (.sink pieces) =>
    setChannel i .null
    return collected pieces
  | _ => return ""

/-- runs something whose failures are looked at by what is around -/
def guarding (act : Run Unit) : Run Unit := do
  let before := (← get).guarded
  modify fun s => { s with guarded := true }
  let result : Except Leave Unit ← fun s =>
    let (r, s) := act s
    (.ok r, s)
  modify fun s => { s with guarded := before }
  match result with
  | .ok () => return
  | .error e => throw e

/-- ends the script if a command that must not fail has failed -/
def checkStatus : Run Unit := do
  let s ← get
  if s.scope.settings.errexit && !s.guarded && s.status ≠ 0 then throw (.exit s.status)

end Run

end Gleaner.Shell
