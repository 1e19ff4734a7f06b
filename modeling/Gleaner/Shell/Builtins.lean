/-
Commands that are part of the shell and need nothing run for them: they read input, set options and variables, and look
at the state.
-/
import Gleaner.Shell.Tools.Files

namespace Gleaner.Shell.Builtins

/-- a command of the shell: from arguments to a change of the state -/
abbrev Builtin := List String → Run Unit

/-- writes to the output of the command; a missing one is a failure -/
def put (text : String) : Run Unit := do
  if !(← Run.emit 1 text) then Run.refuse 1 "write error: Bad file descriptor"

def succeed : Run Unit := Run.setStatus 0

/-! ## Variables -/

/-- stores a text in a variable, as its marks want it -/
def storeText (name value : String) : Run Unit := do
  let old := ((← Run.stored? name)).getD {}
  if old.fixed then
    Run.complain ((← Run.scope).name ++ ": " ++ name ++ ": readonly variable\n")
    throw (.exit 1)
  let value := Expand.toCase old.upper value
  match old.value with
  | .list items => Run.putVariable name { old with value := .list (putItem 0 value items) }
  | .table items => Run.putVariable name { old with value := .table (putPair "0" value items) }
  | _ => Run.putVariable name { old with value := .text value }

def unset : Builtin := fun args => do
  let onlyFunctions := args.head? = some "-f"
  for a in args.filter fun a => !a.startsWith "-" do
    match a.splitOn "[" with
    | [name, index] =>
      let index := String.ofList (index.toList.takeWhile (· ≠ ']'))
      match ← Run.stored? name with
      | some v =>
        match v.value with
        | .list items =>
          Run.putVariable name { v with value := .list (items.filter fun (i, _) => toString i != index) }
        | .table items =>
          let key := index.replace "\"" "" |>.replace "'" ""
          Run.putVariable name { v with value := .table (items.filter fun (k, _) => k != key) }
        | _ => Run.removeVariable name
      | none => pure ()
    | _ =>
      if !onlyFunctions && (← Run.stored? a).isSome then Run.removeVariable a
      else Run.modifyScope fun s => { s with functions := s.functions.filter (·.1 != a) }
  succeed

/-- keeps what a variable is so that it comes back at the end of the function -/
def saveLocal (name : String) : Run Unit := do
  let old ← Run.stored? name
  Run.modifyScope fun s =>
    match s.saved with
    | frame :: rest =>
      if frame.any (·.1 == name) then s else { s with saved := ((name, old) :: frame) :: rest }
    | [] => s

/-- brings variables back that a function has had for itself -/
def restoreLocals (frame : List (String × Option Variable)) : Run Unit := do
  for (name, old) in frame do
    match old with
    | some v => Run.putVariable name v
    | none => Run.removeVariable name

def shift : Builtin := fun args => do
  let n := ((args.head?.bind String.toNat?).getD 1)
  let count := (← Run.scope).args.length
  if n > count then Run.setStatus 1
  else
    Run.modifyScope fun s => { s with args := s.args.drop n }
    succeed

/-! ## Options -/

def setLetter (on : Bool) (c : Char) (s : Settings) : Settings :=
  match c with
  | 'e' => { s with errexit := on }
  | 'u' => { s with nounset := on }
  | 'f' => { s with noglob := on }
  | 'C' => { s with noclobber := on }
  | _ => s

def setNamed (on : Bool) (name : String) (s : Settings) : Settings :=
  match name with
  | "errexit" => { s with errexit := on }
  | "nounset" => { s with nounset := on }
  | "noglob" => { s with noglob := on }
  | "noclobber" => { s with noclobber := on }
  | "pipefail" => { s with pipefail := on }
  | "nullglob" => { s with nullglob := on }
  | "dotglob" => { s with dotglob := on }
  | "extglob" => { s with extglob := on }
  | "nocasematch" => { s with nocasematch := on }
  | "nocaseglob" => { s with nocaseglob := on }
  | "lastpipe" => { s with lastpipe := on }
  | _ => s

def settingNames : List String :=
  ["allexport", "braceexpand", "emacs", "errexit", "errtrace", "functrace", "hashall", "histexpand", "history",
   "ignoreeof", "keyword", "monitor", "noclobber", "noexec", "noglob", "nolog", "notify", "nounset", "onecmd",
   "physical", "pipefail", "posix", "privileged", "verbose", "vi", "xtrace"]

def change (f : Settings → Settings) : Run Unit := Run.modifyScope fun s => { s with settings := f s.settings }

def setArgs : Nat → List String → Run Unit
  | 0, _ => return
  | _, [] => succeed
  | fuel + 1, a :: rest => do
    match a.toList with
    | ['-', '-'] =>
      Run.modifyScope fun s => { s with args := rest }
      succeed
    | ['-'] =>
      Run.modifyScope fun s => { s with args := rest }
      succeed
    | sign :: letters =>
      if (sign = '-' || sign = '+') && !letters.isEmpty then
        let on : Bool := sign = '-'
        let bad := letters.find? fun c => !"abefhkmnoptuvxBCEHPT".toList.contains c
        match bad with
        | some c => Run.refuse 2 ("set: " ++ String.ofList [sign, c] ++ ": invalid option")
        | none =>
          for c in letters do change (setLetter on c)
          if letters.contains 'o' then
            match rest with
            | name :: rest =>
              if settingNames.contains name then
                change (setNamed on name)
                setArgs fuel rest
              else Run.refuse 1 ("set: " ++ name ++ ": invalid option name")
            | [] => succeed
          else setArgs fuel rest
      else
        Run.modifyScope fun s => { s with args := a :: rest }
        succeed
    | [] =>
      Run.modifyScope fun s => { s with args := a :: rest }
      succeed

def shopt : Builtin := fun args => do
  let flags := args.filter (·.startsWith "-")
  let names := args.filter fun a => !a.startsWith "-"
  if flags.contains "-s" then for n in names do change (setNamed true n)
  if flags.contains "-u" then for n in names do change (setNamed false n)
  succeed

/-! ## Reading -/

structure ReadPlan where
  raw : Bool := false
  array : Option String := none
  stop : Char := '\n'
  most : Option Nat := none
  exact : Bool := false
  fd : Nat := 0
  names : List String := []

def readPlan : Nat → List String → ReadPlan → ReadPlan
  | 0, _, p => p
  | _, [], p => p
  | fuel + 1, a :: rest, p =>
    match a.toList with
    | ['-', '-'] => { p with names := rest }
    | '-' :: letters =>
      if letters.isEmpty then { p with names := a :: rest }
      else
        let (flags, rest) := splitLetters "adnNptuie".toList letters rest
        readPlan fuel rest (flags.foldl (fun p (f, v) =>
          match f with
          | "r" => { p with raw := true }
          | "a" => { p with array := some v }
          | "d" => { p with stop := v.toList.headD (Char.ofNat 0) }
          | "n" => { p with most := v.toNat? }
          | "N" => { p with most := v.toNat?, exact := true }
          | "u" => { p with fd := v.toNat?.getD 0 }
          | _ => p) p)
    | _ => { p with names := a :: rest }

/-- the characters of a line, those behind a backslash marked; how many have been taken, and whether the line ended -/
def takeLine (p : ReadPlan) : Nat → (taken : Nat) → List Marked → List Char → List Marked × Nat × Bool
  | 0, taken, acc, _ => (acc.reverse, taken, false)
  | fuel + 1, taken, acc, cs =>
    if p.most = some acc.length then (acc.reverse, taken, true)
    else
      match cs with
      | [] => (acc.reverse, taken, false)
      | c :: rest =>
        if c = p.stop && !p.exact then (acc.reverse, taken + 1, true)
        else if c = '\\' && !p.raw then
          match rest with
          | '\n' :: rest => takeLine p fuel (taken + 2) acc rest
          | d :: rest => takeLine p fuel (taken + 2) ((d, true) :: acc) rest
          | [] => (acc.reverse, taken + 1, false)
        else if c = Char.ofNat 0 then takeLine p fuel (taken + 1) acc rest
        else takeLine p fuel (taken + 1) ((c, false) :: acc) rest

/-- splits a line for variables; the last takes the rest of it -/
def splitLine (ifs : List Char) : Nat → List Marked → List String
  | 0, _ => []
  | n + 1, cs =>
    let isBlank (m : Marked) : Bool := !m.2 && ifs.contains m.1 && (m.1 = ' ' || m.1 = '\t' || m.1 = '\n')
    let isSep (m : Marked) : Bool := !m.2 && ifs.contains m.1
    let cs := cs.dropWhile isBlank
    if n = 0 then
      let kept := (cs.reverse.dropWhile isBlank).reverse
      -- a separator that ends the only field left is dropped
      let inner := kept.dropLast
      let kept := match kept.getLast? with
        | some m => if isSep m && !isBlank m && !inner.any isSep then inner else kept
        | none => kept
      [String.ofList (kept.map (·.1))]
    else
      let word := cs.takeWhile (!isSep ·)
      let rest := (cs.drop word.length).dropWhile isBlank
      let rest := match rest with
        | m :: more => if isSep m && !isBlank m then more else rest
        | [] => []
      String.ofList (word.map (·.1)) :: splitLine ifs n rest

def read : Builtin := fun args => do
  let p := readPlan (args.length + 1) args {}
  match ← Run.available p.fd with
  | none => Run.refuse 1 ("read: " ++ toString p.fd ++ ": invalid file descriptor: Bad file descriptor")
  | some (cs, endless) =>
    let (line, taken, ended) := takeLine p (cs.length + 1) 0 [] cs
    if !ended && endless then throw .forever
    Run.consume p.fd taken
    let ifs := (← Run.separators).toList
    let plain := String.ofList (line.map (·.1))
    match p.array with
    | some name =>
      let items := Expand.fields (String.ofList ifs) (line.map fun (c, q) => .char c q (!q))
      let texts := items.map Expand.markedText
      let old := ((← Run.stored? name)).getD {}
      Run.putVariable name { old with value := .list (texts.zipIdx.map fun (t, i) => (i, t)) }
    | none =>
      match p.names with
      | [] => storeText "REPLY" plain
      | names =>
        if p.exact then
          for (n, i) in names.zipIdx do storeText n (if i = 0 then plain else "")
        else
          let values := splitLine ifs names.length line
          for (n, i) in names.zipIdx do storeText n (values.getD i "")
    Run.setStatus (if ended then 0 else 1)

def mapfile : Builtin := fun args => do
  let o := options "dnOsuCc" [] args
  let name := o.operands.headD "MAPFILE"
  match ← Run.available 0 with
  | none => Run.setStatus 1
  | some (cs, endless) =>
    if endless then throw .forever
    Run.consume 0 cs.length
    let stop := (o.value? ["d"]).getD "\n"
    let text := String.ofList cs
    let parts := if text.isEmpty then [] else text.splitOn stop
    let (parts, ended) := if parts.getLast? = some "" then (parts.dropLast, true) else (parts, false)
    let skip := ((o.value? ["s"]).bind String.toNat?).getD 0
    let lines := parts.zipIdx.map fun (l, i) =>
      if o.has ["t"] || (i + 1 = parts.length && !ended) then l else l ++ stop
    let lines := lines.drop skip
    let lines := match (o.value? ["n"]).bind String.toNat? with
      | some n => if n = 0 then lines else lines.take n
      | none => lines
    Run.putVariable name { value := .list (lines.zipIdx.map fun (l, i) => (i, l)) }
    succeed

/-! ## Options of scripts -/

def getopts : Builtin := fun args => do
  match args with
  | spec :: name :: rest =>
    let own := (← Run.scope).args
    let words := if rest.isEmpty then own else rest
    let index := ((← Run.textOr "OPTIND" "1").toNat?).getD 1
    let place := (← get).optionPlace
    let word := (words.getD (index - 1) "").toList
    let setIndex (i p : Nat) : Run Unit := do
      storeText "OPTIND" (toString i)
      modify fun s => { s with optionPlace := p }
    let past : Run Unit := do
      storeText name "?"
      Run.setStatus 1
    match place, word with
    | 0, '-' :: '-' :: [] =>
      setIndex (index + 1) 0
      past
    | _, '-' :: letters =>
      match letters.drop place with
      | [] => past
      | c :: more =>
        let spec := spec.toList
        let silent := spec.head? = some ':'
        let after := (spec.dropWhile (· ≠ c)).drop 1
        let known := spec.contains c && c ≠ ':'
        let next : Nat × Nat := if more.isEmpty then (index + 1, 0) else (index, place + 1)
        if !known then
          setIndex next.1 next.2
          storeText name "?"
          if silent then storeText "OPTARG" (String.singleton c)
          else Run.complain ((← Run.scope).name ++ ": illegal option -- " ++ String.singleton c ++ "\n")
          succeed
        else if after.head? = some ':' then
          if !more.isEmpty then
            setIndex (index + 1) 0
            storeText "OPTARG" (String.ofList more)
            storeText name (String.singleton c)
            succeed
          else
            match words[index]? with
            | some v =>
              setIndex (index + 2) 0
              storeText "OPTARG" v
              storeText name (String.singleton c)
              succeed
            | none =>
              setIndex (index + 1) 0
              storeText name (if silent then ":" else "?")
              if silent then storeText "OPTARG" (String.singleton c)
              succeed
        else
          setIndex next.1 next.2
          storeText name (String.singleton c)
          succeed
    | _, _ => past
  | _ => Run.refuse 2 "getopts: usage: getopts optstring name [arg ...]"

/-! ## Places -/

def workingPath : Run String := do
  let s ← Run.scope
  return "/" ++ String.intercalate "/" (if s.dirOutside then s.dir else Run.home ++ s.dir)

def cd : Builtin := fun args => do
  let args := args.filter fun a => a != "-P" && a != "-L" && a != "--"
  let before ← workingPath
  let target ← match args.head? with
    | none => Run.textOr "HOME" "/root"
    | some "-" => Run.textOr "OLDPWD" "."
    | some p => pure p
  let place ← Run.placeOf (ofText (toText target))
  match ← Run.lookup { place with path := if place.path.isEmpty && !place.outside then "." else place.path } with
  | .ok (.dir _) =>
    Run.modifyScope fun s => { s with dir := Run.normal (FileNode.names place.path), dirOutside := place.outside }
    let old := ((← Run.stored? "OLDPWD")).getD {}
    Run.putVariable "OLDPWD" { old with value := .text before }
    let here ← workingPath
    Run.putVariable "PWD" { ((← Run.stored? "PWD")).getD {} with value := .text here }
    if args.head? = some "-" then put (here ++ "\n")
    succeed
  | .ok _ => Run.refuse 1 ("cd: " ++ target ++ ": Not a directory")
  | .error e => Run.refuse 1 ("cd: " ++ target ++ ": " ++ Run.failureText e)

def pwd : Builtin := fun _ => do
  succeed
  put ((← workingPath) ++ "\n")

/-! ## Conditions -/

/-- the words of a condition that may be paths, looked at once -/
def asked (args : List String) : Run Tools.Asked := do
  let ops := Tools.fileTests.filter args.contains
  let ops := if args.any (["-nt", "-ot", "-ef"].contains ·) then "-e" :: ops else ops
  let known ← ops.mapM fun op => do
    return (← args.mapM fun p => do return ((op, p), ← Tools.fileTest op p))
  let facts := known.flatten
  let vars := (← Run.scope).vars.map (·.1)
  return { file := fun op p => ((facts.find? (·.1 == (op, p))).map (·.2)).getD false,
           hasVariable := vars.contains }

def test (bracket : Bool) : Builtin := fun args => do
  if bracket && args.getLast? ≠ some "]" then Run.refuse 2 "[: missing ']'"
  else
    let args := if bracket then args.dropLast else args
    match Tools.testArgs (← asked args) args with
    | some r => Run.setStatus (if r then 0 else 1)
    | none => Run.refuse 2 "test: syntax error"

/-! ## Signals and time -/

def signalNames : List (String × Nat) :=
  [("HUP", 1), ("INT", 2), ("QUIT", 3), ("ILL", 4), ("TRAP", 5), ("ABRT", 6), ("BUS", 7), ("FPE", 8), ("KILL", 9),
   ("USR1", 10), ("SEGV", 11), ("USR2", 12), ("PIPE", 13), ("ALRM", 14), ("TERM", 15), ("STKFLT", 16), ("CHLD", 17),
   ("CONT", 18), ("STOP", 19), ("TSTP", 20), ("TTIN", 21), ("TTOU", 22), ("URG", 23), ("XCPU", 24), ("XFSZ", 25),
   ("VTALRM", 26), ("PROF", 27), ("WINCH", 28), ("IO", 29), ("PWR", 30), ("SYS", 31)]

def signalNumber? (s : String) : Option Nat :=
  match s.toNat? with
  | some n => some n
  | none =>
    let name := s.map Char.toUpper
    let name := if name.startsWith "SIG" then String.ofList (name.toList.drop 3) else name
    (signalNames.find? (·.1 == name)).map (·.2)

/-- the number that stands for the script itself -/
def ownNumber : Nat := 4242

def sendSignal (signal : Nat) (target : String) : Run Bool := do
  match target.toNat? with
  | none => return target.startsWith "%"
  | some n =>
    if n = ownNumber || target == "0" then
      if signal = 0 || [17, 18, 23, 28].contains signal then return true
      else if [19, 20, 21, 22].contains signal then throw .late
      else throw (.killed signal)
    else
      let jobs := (← get).jobs
      if ownNumber < n && n ≤ ownNumber + jobs.length then
        let now := (← get).clock
        if signal ≠ 0 then
          modify fun s => { s with jobs := s.jobs.zipIdx.map fun ((t, holds), i) =>
            if i + ownNumber + 1 = n then (min t now, holds) else (t, holds) }
        return true
      else return false

def kill : Builtin := fun args => do
  let (signal, targets) := match args with
    | "-s" :: s :: rest => (signalNumber? s, rest)
    | "-n" :: s :: rest => (signalNumber? s, rest)
    | "--" :: rest => (some 15, rest)
    | a :: rest =>
      if a.startsWith "-" then (signalNumber? (String.ofList (a.toList.drop 1)), rest) else (some 15, a :: rest)
    | [] => (some 15, [])
  match signal with
  | none => Run.refuse 1 "kill: invalid signal specification"
  | some signal =>
    if targets.isEmpty then Run.refuse 2 "kill: usage: kill [-s sigspec | -n signum | -sigspec] pid"
    else
      let sent ← targets.mapM (sendSignal signal)
      if sent.all id then succeed else Run.refuse 1 "kill: No such process"

def waitJobs : Builtin := fun _ => do
  let s ← get
  let last := (s.jobs.map (·.1)).foldl max s.clock
  Run.wait (last - s.clock)
  succeed

/-- the milliseconds that a text means -/
def duration? (s : String) : Option Nat :=
  let cs := s.toList
  let (number, unit) := match cs.getLast? with
    | some 's' => (cs.dropLast, 1)
    | some 'm' => (cs.dropLast, 60)
    | some 'h' => (cs.dropLast, 3600)
    | some 'd' => (cs.dropLast, 86400)
    | _ => (cs, 1)
  match Tools.readDecimal? (String.ofList number) with
  | some (n, places) => if n < 0 then none else some ((n.toNat * 1000 * unit) / Nat.pow 10 places)
  | none => none

def sleep : Builtin := fun args => do
  let times := args.map fun a =>
    if a == "infinity" || a == "inf" then some 1000000000 else duration? a
  if args.isEmpty || times.any Option.isNone then Run.refuse 1 "sleep: invalid time interval"
  else
    Run.wait ((times.filterMap id).foldl Nat.add 0)
    succeed

/-! ## The table -/

/-- commands that are part of the shell -/
def table : List (String × Builtin) :=
  [("unset", unset), ("shift", shift), ("shopt", shopt), ("read", read), ("mapfile", mapfile), ("readarray", mapfile),
   ("getopts", getopts), ("cd", cd), ("pwd", pwd), ("test", test false), ("[", test true), ("kill", kill),
   ("wait", waitJobs), ("sleep", sleep), (":", fun _ => succeed), ("true", fun _ => succeed),
   ("false", fun _ => Run.setStatus 1), ("umask", fun _ => succeed), ("ulimit", fun _ => succeed),
   ("hash", fun _ => succeed), ("disown", fun _ => succeed), ("alias", fun _ => succeed),
   ("unalias", fun _ => succeed), ("jobs", fun _ => succeed), ("times", fun _ => succeed), ("bind", fun _ => succeed),
   ("chmod", fun _ => succeed), ("chown", fun _ => succeed), ("sync", fun _ => succeed),
   ("set", fun args => setArgs (args.length + 1) args)]

end Gleaner.Shell.Builtins
