/-
Running shell programs.

The stages of a pipeline are run one after the other, each to its end, and read what the one before has written. A stage
that goes on for ever is stopped when the next one has what it wants of it.
-/
import Gleaner.Shell.Builtins
import Gleaner.Shell.Tools.Awk
import Gleaner.Shell.Tools.Order
import Gleaner.Shell.Tools.Search
import Gleaner.Shell.Tools.Sed

namespace Gleaner.Shell

/-! ## Tools -/

def printEnvironment (g : Given) : Result :=
  match g.args with
  | [] => { out := joinLines (g.vars.map fun (n, v) => n ++ "=" ++ v), used := .nothing }
  | names =>
    let values := names.filterMap fun n => (g.vars.find? (·.1 == n)).map (·.2)
    { out := joinLines values, status := if values.length = names.length then 0 else 1, used := .nothing }

/-- copies blocks of the input -/
def copyBlocks (g : Given) : Result :=
  let value (name : String) : Option String :=
    (g.args.find? (·.startsWith (name ++ "="))).map fun a => String.ofList (a.toList.drop (name.length + 1))
  let size := ((value "bs" <|> value "ibs").bind Tools.readCount?).getD 512
  let text := match (value "if").filter (· != "/dev/stdin") with
    | some f => g.read f
    | none => .ok (String.ofList g.input)
  match text with
  | .error e => g.refuse 1 ("failed to open: " ++ e)
  | .ok text =>
    let skip := ((value "skip").bind String.toNat?).getD 0 * size
    let rest := text.toList.drop skip
    match (value "count").bind String.toNat? with
    | some n =>
      { out := String.ofList (rest.take (n * size)),
        used := if (value "if").isSome then .nothing else .up_to (skip + n * size) }
    | none => { out := String.ofList rest }

/-- compares two files -/
def compareFiles (g : Given) : Result :=
  let o := options "" [] g.args
  let i := inputs g o.operands
  match i.texts with
  | [(a, s), (b, t)] =>
    if s == t then i.result "" 0
    else if g.name == "cmp" then
      let quiet := o.has ["s"]
      i.result (if quiet then "" else a ++ " " ++ b ++ " differ\n") 1
    else i.result (if o.has ["q"] then "Files " ++ a ++ " and " ++ b ++ " differ\n" else "") 1
  | _ => { i.result "" 2 with status := 2 }

def fixedOutput (text : String) : Tool := fun _ => { out := text ++ "\n", used := .nothing }

def identity (g : Given) : Result :=
  let o := options "" [] g.args
  if o.has ["n"] then { out := "root\n", used := .nothing }
  else if o.has ["u", "g", "G"] then { out := "0\n", used := .nothing }
  else { out := "uid=0(root) gid=0(root) groups=0(root)\n", used := .nothing }

open Tools in
def toolTable : List (String × Tool) :=
  [("cat", cat), ("tac", tac), ("rev", rev), ("wc", count), ("head", head), ("tail", tail), ("cut", cut),
   ("paste", paste), ("fold", fold), ("nl", numberLines), ("tr", tr), ("yes", yes), ("seq", seq), ("sort", sort),
   ("uniq", uniq), ("comm", comm), ("grep", grep), ("egrep", grep), ("fgrep", grep), ("sed", sed), ("awk", awk),
   ("gawk", awk), ("mawk", awk), ("nawk", awk), ("basename", basename), ("dirname", dirname), ("expr", expr),
   ("base64", base64), ("od", od), ("echo", echo), ("printf", printf), ("printenv", printEnvironment),
   ("dd", copyBlocks), ("cmp", compareFiles), ("diff", compareFiles), ("whoami", fixedOutput "root"),
   ("uname", fixedOutput "Linux"), ("nproc", fixedOutput "1"), ("hostname", fixedOutput "localhost"), ("id", identity),
   ("tty", fun _ => { out := "not a tty\n", status := 1, used := .nothing })]

/-- commands of the shell that are found outside of it, too -/
def outerBuiltins : List String := ["true", "false", "test", "[", "pwd", "kill", "sleep", "chmod", "chown", "sync"]

/-- commands outside of the shell that run others -/
def callers : List String := ["env", "xargs", "timeout", "nohup", "nice", "bash", "sh", "dash", "which", "stdbuf"]

/-- commands outside of the shell although they are done here -/
def isOutside (name : String) : Bool :=
  (toolTable.any (·.1 == name) || Tools.fileTools.any (·.1 == name) || callers.contains name ||
    outerBuiltins.contains name)

/-- commands of the shell alone -/
def innerCommands : List String :=
  ["eval", "source", ".", "command", "builtin", "exec", "exit", "return", "break", "continue", "local", "declare",
   "typeset", "export", "readonly", "let", "trap", "type", "echo", "printf"]

def isInner (name : String) : Bool :=
  innerCommands.contains name ||
    Builtins.table.any fun (n, _) => n == name && !(["sleep", "chmod", "chown", "sync"].contains n)

/-- directories that have the tools -/
def toolDirs : List String := ["/usr/bin", "/bin"]

/-- the name of a tool that a command names, if it is there -/
def toolName? (command : String) : Run (Option String) := do
  if command.contains '/' then
    match toolDirs.find? fun d => command.startsWith (d ++ "/") with
    | some d =>
      let name := String.ofList (command.toList.drop (d.length + 1))
      return if isOutside name then some name else none
    | none => return none
  else
    let dirs := ((← Run.textOr "PATH" "/usr/bin:/bin").splitOn ":").map Tools.dropTrailingSlashes
    return if isOutside command && dirs.any toolDirs.contains then some command else none

/-- runs a tool on what can be read -/
def runTool (name : String) (tool : Given → Run Result) (args : List String) : Run Unit := do
  let (input, endless) := ((← Run.available 0)).getD ([], false)
  let s ← get
  let read (p : String) : Except String String :=
    let p := if p == "/dev/fd/0" then "/dev/stdin" else p
    let act : Run (Except String String) :=
      if p.startsWith "/dev/fd/" then do
        match ← Run.available ((String.ofList (p.toList.drop 8)).toNat?.getD 99) with
        | some (cs, _) => return .ok (String.ofList cs)
        | none => return .error "No such file or directory"
      else if p == "/dev/zero" then return .ok (String.ofList (List.replicate 262144 (Char.ofNat 0)))
      else Run.readFile p
    match (act.run s).1 with
    | .ok r => r
    | .error _ => .error "Input/output error"
  let r ← tool { name := name, args := args, input := input, read := read, vars := ← Run.environment }
  -- a caller that is still writing does not read, so that a tool that copies comes to a stop
  let copying := !(["sort", "tac", "tail"].contains name)
  if copying && (← Run.channelOf 0) = some Run.callerInput && (← Run.channelOf 1) = some Run.callerOutput then
    if (← get).written + r.out.length > Run.pipeSize && input.length > 3 * Run.pipeSize then throw .late
  match r.used with
  | .all => Run.consume 0 input.length
  | .up_to n => Run.consume 0 n
  | .nothing => pure ()
  let _ ← Run.emit 2 r.messages
  let written ← Run.emit 1 r.out
  if r.endless || (r.used = .all && endless) then throw .forever
  Run.setStatus (if written then r.status else max 1 r.status)

/-! ## Redirections -/

def openForWriting (place : FilePlace) (path : String) (append : Bool) : Run (Option Nat) := do
  let old ← Run.fileText place
  match ← Run.writeFile place (if append then old else "") with
  | .ok () => return some (← Run.newChannel (.file place 0 append))
  | .error why =>
    Run.refuse 1 (path ++ ": " ++ why)
    return none

/-- the channel behind a path that names one, or a new one -/
def openPath (path : String) (write append : Bool) : Run (Option Nat) := do
  let known : Option Nat := match path with
    | "/dev/stdin" => some 0
    | "/dev/stdout" => some 1
    | "/dev/stderr" => some 2
    | p => if p.startsWith "/dev/fd/" then (String.ofList (p.toList.drop 8)).toNat? else none
  match known with
  | some fd =>
    match ← Run.channelOf fd with
    | some c => return some c
    | none =>
      Run.refuse 1 (path ++ ": No such file or directory")
      return none
  | none =>
    if path == "/dev/null" then return some Run.nowhere
    else if path == "/dev/zero" && !write then
      return some (← Run.newChannel (.source (List.replicate 262144 (Char.ofNat 0)) true))
    else if path.isEmpty then
      Run.refuse 1 ": No such file or directory"
      return none
    else if write then openForWriting (← Run.placeOf (ofText (toText path))) path append
    else
      match ← Run.readFile path with
      | .ok t => return some (← Run.newChannel (.source t.toList false))
      | .error "Is a directory" => return some (← Run.newChannel (.source [] false))
      | .error why =>
        Run.refuse 1 (path ++ ": " ++ why)
        return none

/-- carries out a redirection; whether it could be -/
def redirect (run : Runner) (r : Redirect) : Run Bool := do
  let bind (fd : Nat) (channel : Option Nat) : Run Bool := do
    match channel with
    | some c =>
      Run.bindFd fd c
      return true
    | none => return false
  let word : Run String := do
    match ← Expand.wordFields run r.word with
    | [w] => return w
    | _ => return ""
  match r.kind with
  | .read => bind (r.fd.getD 0) (← openPath (← word) false false)
  | .write =>
    let path ← word
    if (← Run.scope).settings.noclobber && (← Tools.fileTest "-f" path) then
      Run.refuse 1 (path ++ ": cannot overwrite existing file")
      return false
    bind (r.fd.getD 1) (← openPath path true false)
  | .append => bind (r.fd.getD 1) (← openPath (← word) true true)
  | .readWrite => bind (r.fd.getD 0) (← openPath (← word) true true)
  | .both append =>
    let channel ← openPath (← word) true append
    if ← bind 1 channel then bind 2 channel else return false
  | .here verbatim =>
    let text ← if verbatim then pure (String.ofList r.word) else Expand.hereText run r.word
    bind (r.fd.getD 0) (some (← Run.newChannel (.source text.toList false)))
  | .hereWord =>
    let text ← Expand.wordText run r.word
    bind (r.fd.getD 0) (some (← Run.newChannel (.source (text ++ "\n").toList false)))
  | kind =>
    let out := kind = .dupOut
    let target ← word
    let fd := r.fd.getD (if out then 1 else 0)
    let moves := target.endsWith "-" && target.length > 1
    let number := if moves then String.ofList target.toList.dropLast else target
    if target == "-" then
      Run.closeFd fd
      return true
    else
      match number.toNat? with
      | some n =>
        match ← Run.channelOf n with
        | some c =>
          Run.bindFd fd c
          if moves then Run.closeFd n
          return true
        | none =>
          Run.refuse 1 (target ++ ": Bad file descriptor")
          return false
      | none =>
        if out && r.fd.isNone then
          let channel ← openPath target true false
          if ← bind 1 channel then bind 2 channel else return false
        else
          Run.refuse 1 (target ++ ": ambiguous redirect")
          return false

/-! ## Assignments -/

structure Assignment where
  name : String
  index : Option (List Char) := none
  append : Bool := false
  value : List Char

def readAssignment (w : Word) : Assignment :=
  let name := w.takeWhile Parse.isNamePart
  let rest := w.drop name.length
  let (index, rest) := match rest with
    | '[' :: inside =>
      match Arith.brackets (inside.length + 1) 0 [] inside with
      | some (i, rest) => (some i, rest)
      | none => (none, rest)
    | rest => (none, rest)
  let (append, value) := match rest with
    | '+' :: '=' :: v => (true, v)
    | _ :: v => (false, v)
    | [] => (false, [])
  { name := String.ofList name, index, append, value }

/-- the words in the parentheses of an array -/
def arrayWords (inside : List Char) : List Word :=
  let rec go : Nat → List Char → List Word
    | 0, _ => []
    | fuel + 1, cs =>
      match (Parse.skipLines *> Parse.anyWord false).run cs with
      | .ok (w, rest) => if w.isEmpty then [] else w :: go fuel rest
      | .error _ => []
  go (inside.length + 1) inside

/-- the items that an array is made of -/
def arrayValue (run : Runner) (old : VarValue) (append table : Bool) (inside : List Char) : Run VarValue := do
  let keyed (w : Word) : Option (List Char × List Char) :=
    match w with
    | '[' :: rest =>
      match Arith.brackets (rest.length + 1) 0 [] rest with
      | some (k, '=' :: v) => some (k, v)
      | _ => none
    | _ => none
  let words := arrayWords inside
  if table then
    let start := match old, append with
      | .table items, true => items
      | _, _ => []
    let items ← words.foldlM (fun items w => do
      match keyed w with
      | some (k, v) => return putPair (← Expand.wordText run k) (← Expand.wordText run v) items
      | none => return items) start
    return .table items
  else
    let start := match old, append with
      | .list items, true => items
      | .text t, true => [(0, t)]
      | _, _ => []
    let next := (start.getLast?.map (·.1 + 1)).getD 0
    let (items, _) ← words.foldlM (fun (items, next) w => do
      match keyed w with
      | some (k, v) =>
        let i := (← Expand.value run k).toInt.toNat
        return (putItem i (← Expand.wordText run v) items, i + 1)
      | none =>
        let texts ← Expand.wordFields run w
        return (texts.foldl (fun (items, n) t => (putItem n t items, n + 1)) (items, next))) (start, next)
    return .list items

/-- the value behind an assignment sign; tildes behind colons stand for directories, too -/
def assignedText (run : Runner) (value : List Char) : Run String := do
  let rec parts : Nat → List Char → List (List Char)
    | 0, cs => [cs]
    | fuel + 1, cs =>
      match Expand.splitOutside ':' (cs.length + 1) [] cs with
      | (a, some rest) => a :: parts fuel rest
      | (a, none) => [a]
  if (value.contains '~') then
    return String.intercalate ":" (← (parts (value.length + 1) value).mapM (Expand.wordText run))
  else Expand.wordText run value

def assign (run : Runner) (w : Word) : Run Unit := do
  let a := readAssignment w
  let old := ((← Run.stored? a.name)).getD {}
  if old.fixed then
    Run.complain ((← Run.scope).name ++ ": " ++ a.name ++ ": readonly variable\n")
    throw (.exit 1)
  let isTable := match old.value with
    | .table _ => true
    | _ => false
  match a.index, a.value with
  | none, '(' :: inside =>
    let v ← arrayValue run old.value a.append isTable (inside.dropLast)
    Run.putVariable a.name { old with value := v }
  | none, value =>
    let text ← assignedText run value
    let text ← if old.integer then do
        let n ← Expand.value run text.toList
        let before ← if a.append then Expand.value run (old.value.text?.getD "0").toList else pure 0
        pure (toString (before + n).toInt)
      else pure (if a.append then old.value.text?.getD "" ++ text else text)
    Builtins.storeText a.name text
  | some index, value =>
    let text ← assignedText run value
    match old.value with
    | .table items =>
      let k ← Expand.wordText run index
      let before := ((items.find? (·.1 == k)).map (·.2)).getD ""
      let text := if a.append then before ++ text else text
      Run.putVariable a.name { old with value := .table (putPair k text items) }
    | v =>
      let items := match v with
        | .list items => items
        | .text t => [(0, t)]
        | _ => []
      let i := (← Expand.value run index).toInt
      let i := if i < 0 then ((items.getLast?.map fun (k, _) => (k : Int) + 1).getD 0) + i else i
      if i < 0 then
        Run.refuse 1 (a.name ++ ": bad array subscript")
        throw (.exit 1)
      let before := ((items.find? fun (k, _) => (k : Int) = i).map (·.2)).getD ""
      let text := if a.append then before ++ text else text
      Run.putVariable a.name { old with value := .list (putItem i.toNat text items) }

/-- marks a variable and gives it a value if one is written -/
def declareOne (run : Runner) (isLocal : Bool) (mark : Variable → Variable) (w : Word) : Run Unit := do
  let name := if Parse.isAssignment w then (readAssignment w).name else String.ofList (w.takeWhile Parse.isNamePart)
  if !Parse.isName name.toList then
    Run.refuse 1 ("`" ++ String.ofList w ++ "': not a valid identifier")
  else
    let fresh := isLocal && (← Run.scope).functionDepth > 0
    if fresh then Builtins.saveLocal name
    let known ← Run.stored? name
    -- a new variable of a function has no value yet
    let old := if fresh then ((known.map fun v => { v with value := .unset })).getD {} else known.getD {}
    let wasFixed := old.fixed
    Run.putVariable name { mark old with fixed := wasFixed }
    if Parse.isAssignment w then assign run w
    else if fresh && (old.value.text?).isNone then pure ()
    let now := ((← Run.stored? name)).getD {}
    Run.putVariable name { now with fixed := (mark now).fixed || wasFixed }

def declarations : List String := ["declare", "typeset", "local", "export", "readonly"]

/-! ## Programs -/

/-- the conditions in double brackets -/
def evalTest (run : Runner) : Test → Run Bool
  | .word w => return !(← Expand.wordText run w).isEmpty
  | .not t => return !(← evalTest run t)
  | .both a b => do if ← evalTest run a then evalTest run b else return false
  | .either a b => do if ← evalTest run a then return true else evalTest run b
  | .unary op w => do
    let s ← Expand.wordText run w
    if op == "-v" then
      match s.splitOn "[" with
      | [name, index] =>
        let f ← Expand.found run Expand.depth name (some (index.toList.takeWhile (· ≠ ']')))
        return f.isSet
      | _ => return ((← Run.text? s)).isSome
    if op == "-o" then return (op == "-o" && s == "errexit" && (← Run.scope).settings.errexit)
    return (Tools.testUnary (← Builtins.asked [op, s]) op s).getD false
  | .binary op a b => do
    let s ← Expand.wordText run a
    let settings := (← Run.scope).settings
    if op == "==" || op == "=" || op == "!=" then
      let p ← Expand.wordPattern run true b
      return wildMatch settings.nocasematch p s.toList != (op == "!=")
    else if op == "=~" then
      let items ← Expand.items run Expand.depth false true b
      -- what is quoted stands for itself
      let source := (Expand.marked items).flatMap fun (c, quoted) =>
        if quoted && ".[]\\*^$+?()\x7b\x7d|".toList.contains c then ['\\', c] else [c]
      match Regex.parse true source with
      | .error _ => return false
      | .ok r =>
        match Regex.find r settings.nocasematch s.toList 0 with
        | none =>
          Run.putVariable "BASH_REMATCH" { value := .list [] }
          return false
        | some groups =>
          let text := s.toList.toArray
          let count := ((source.filter (· = '(')).length) + 1
          let values := (List.range (min count 10)).map fun i => (i, String.ofList (Regex.groupText text groups i))
          Run.putVariable "BASH_REMATCH" { value := .list values }
          return true
    else
      let t ← Expand.wordText run b
      if op == "<" then return s < t
      else if op == ">" then return t < s
      else if ["-nt", "-ot", "-ef"].contains op then
        return (Tools.testBinary (← Builtins.asked [op, s, t]) op s t).getD false
      else
        let x ← Expand.value run s.toList
        let y ← Expand.value run t.toList
        return (Tools.compareInts op (toString x.toInt) (toString y.toInt)).getD false

/-- runs something with a smaller number of steps, those that are left going to what follows -/
def withFewerSteps (act : Run Unit) : Run Unit := do
  let all := (← get).steps
  modify fun s => { s with steps := all / 2 }
  let result : Except Leave Unit ← fun s =>
    let (r, s) := act s
    (.ok r, s)
  modify fun s => { s with steps := all - (all / 2 - s.steps) }
  match result with
  | .ok () => return
  | .error e => throw e

/-- what happened in a part that was run by itself -/
def attempt (act : Run Unit) : Run (Except Leave Unit) := fun s =>
  let (r, s) := act s
  (.ok r, s)

/-- options in front of a command -/
def leadingOptions (valued : List Char) : Nat → List String → Options → Options
  | 0, _, o => o
  | _, [], o => o
  | fuel + 1, a :: rest, o =>
    match a.toList with
    | '-' :: c :: letters =>
      let (flags, rest) := splitLetters valued (c :: letters) rest
      leadingOptions valued fuel rest { o with flags := o.flags ++ flags }
    | _ => { o with operands := a :: rest }

/-- whether a command is run where a word is expanded -/
def runsCommand : Word → Bool
  | '$' :: '(' :: _ => true
  | '`' :: _ => true
  | _ :: rest => runsCommand rest
  | [] => false

/-- the arguments in a text, between blanks, with quotes taken off -/
def argumentWords : Nat → (current : Option (List Char)) → List Char → List String
  | 0, _, _ => []
  | fuel + 1, current, cs =>
    let add (c : Char) : Option (List Char) := some (c :: current.getD [])
    match cs with
    | [] => (current.map fun w => String.ofList w.reverse).toList
    | '\\' :: c :: rest => argumentWords fuel (add c) rest
    | '\'' :: rest =>
      let inside := rest.takeWhile (· ≠ '\'')
      argumentWords fuel (some (inside.reverse ++ current.getD [])) (rest.drop (inside.length + 1))
    | '"' :: rest =>
      let inside := rest.takeWhile (· ≠ '"')
      argumentWords fuel (some (inside.reverse ++ current.getD [])) (rest.drop (inside.length + 1))
    | c :: rest =>
      if c = ' ' || c = '\t' || c = '\n' then
        (current.map fun w => String.ofList w.reverse).toList ++ argumentWords fuel none rest
      else argumentWords fuel (add c) rest

mutual
/-- runs the text of a program, command by command -/
def runText : Nat → List Char → Run Unit
  | 0, _ => throw .forever
  | fuel + 1, text => do
    match readCommand text with
    | .error _ => do
      Run.complain ((← Run.scope).name ++ ": syntax error\n")
      throw (.exit 2)
    | .ok (none, _) => return
    | .ok (some c, rest) =>
      exec fuel c
      runText fuel rest

def exec : Nat → Command → Run Unit
  | 0, _ => throw .forever
  | fuel + 1, c => do
    Run.tick
    match c with
    | .empty => return
    | .simple assigns words => simple fuel assigns words
    | .redirected inner rs => redirected fuel inner rs
    | .pipe stages => pipeline fuel stages
    | .not c =>
      Run.guarding (exec fuel c)
      Run.setStatus (if (← get).status = 0 then 1 else 0)
    | .andThen a b =>
      Run.guarding (exec fuel a)
      if (← get).status = 0 then exec fuel b
    | .orElse a b =>
      Run.guarding (exec fuel a)
      if (← get).status ≠ 0 then exec fuel b
    | .seq a b =>
      exec fuel a
      exec fuel b
    | .background c => background fuel c
    | .subshell c =>
      Run.isolated (withExit fuel (exec fuel c))
      Run.checkStatus
    | .group c => exec fuel c
    | .branch cond yes no =>
      Run.guarding (exec fuel cond)
      if (← get).status = 0 then
        Run.setStatus 0
        exec fuel yes
      else
        Run.setStatus 0
        exec fuel no
    | .loop until_ cond body => loop fuel until_ cond body 0
    | .for_ name words body =>
      let values ← match words with
        | some ws => Expand.allFields (runText fuel) ws
        | none => do pure (← Run.scope).args
      Run.setStatus 0
      each fuel name body values
    | .forArith init cond step body =>
      let _ ← Expand.value (runText fuel) init
      Run.setStatus 0
      count fuel cond step body
    | .case_ word arms =>
      let text ← Expand.wordText (runText fuel) word
      Run.setStatus 0
      caseArms fuel text arms false
    | .func name body =>
      Run.modifyScope fun s => { s with functions := (name, body) :: s.functions.filter (·.1 != name) }
      Run.setStatus 0
    | .test t =>
      let r ← evalTest (runText fuel) t
      Run.setStatus (if r then 0 else 1)
      Run.checkStatus
    | .arith text =>
      let n ← Expand.value (runText fuel) text
      Run.setStatus (if n = 0 then 1 else 0)
      Run.checkStatus

/-- runs a part and then what it has asked to be run at its end -/
def withExit : Nat → Run Unit → Run Unit
  | 0, _ => throw .forever
  | fuel + 1, act => do
    let result ← attempt act
    let status ← match result with
      | .ok () => do pure (← get).status
      | .error (.exit n) => pure n
      | .error e => throw e
    match (← Run.scope).atExit with
    | none => throw (.exit status)
    | some text =>
      Run.modifyScope fun s => { s with atExit := none }
      Run.setStatus status
      runText fuel text.toList
      throw (.exit status)

def redirected : Nat → Command → List Redirect → Run Unit
  | 0, _, _ => throw .forever
  | fuel + 1, c, rs => do
    let before := (← Run.scope).fds
    let lasting : Bool := match c with
      | .simple _ [w] => w = "exec".toList
      | _ => false
    let good ← rs.foldlM (fun good r => if good then redirect (runText fuel) r else return false) true
    if !good then
      Run.modifyScope fun s => { s with fds := before }
      Run.checkStatus
      if lasting then throw (.exit 1)
    else if lasting then Run.setStatus 0
    else
      let result ← attempt (exec fuel c)
      Run.modifyScope fun s => { s with fds := before }
      match result with
      | .ok () => return
      | .error e => throw e

/-- runs the stages of a pipeline, which start at the same time -/
def pipeline : Nat → List Command → Run Unit
  | 0, _ => throw .forever
  | fuel + 1, stages => do
    let start := (← get).clock
    let (statuses, last, hangs) ← stageRuns fuel start stages none [] start false
    modify fun s => { s with clock := last, stages := statuses }
    if hangs then throw .forever
    let pipefail := (← Run.scope).settings.pipefail
    let final := statuses.getLastD 0
    let failed := (statuses.reverse.find? (· ≠ 0)).getD 0
    Run.setStatus (if pipefail then failed else final)
    Run.putVariable "PIPESTATUS" { value := .list (statuses.zipIdx.map fun (n, i) => (i, toString n)) }
    Run.checkStatus

/-- runs the stages from one on: their statuses, the time the latest of them ends, and whether one never does -/
def stageRuns : Nat → (start : Nat) → List Command → (input : Option (String × Bool)) → List Nat → (last : Nat) →
    (hangs : Bool) → Run (List Nat × Nat × Bool)
  | 0, _, _, _, _, _, _ => throw .forever
  | _, _, [], _, statuses, last, hangs => return (statuses, last, hangs)
  | fuel + 1, start, c :: rest, input, statuses, last, hangs => do
    modify fun s => { s with clock := start }
    let feed : Run Unit := do
      match input with
      | some (text, endless) => Run.bindFd 0 (← Run.newChannel (.source text.toList endless))
      | none => pure ()
    if rest.isEmpty then
      Run.isolated do
        feed
        exec fuel c
      let s ← get
      return (statuses ++ [s.status], max last s.clock, hangs)
    else
      let sink ← Run.newChannel (.sink [])
      let result ← attempt (withFewerSteps (Run.isolated do
        feed
        Run.bindFd 1 sink
        exec fuel c))
      let s ← get
      let out := match s.channels[sink]? with
        | some (.sink pieces) => Run.collected pieces
        | _ => ""
      match result with
      | .ok () => stageRuns fuel start rest (some (out, false)) (statuses ++ [s.status]) (max last s.clock) hangs
      | .error .forever =>
        stageRuns fuel start rest (some (out, true)) (statuses ++ [141]) (max last s.clock) (hangs || out.isEmpty)
      | .error e => throw e

/-- starts a command in the background -/
def background : Nat → Command → Run Unit
  | 0, _ => throw .forever
  | fuel + 1, c => do
    let start := (← get).clock
    let holds := match c with
      | .redirected _ rs => !rs.any fun r =>
          match r.kind with
          | .both _ => true
          | .write | .append | .dupOut => r.fd.getD 1 = 1
          | _ => false
      | _ => true
    let result ← attempt (withFewerSteps (Run.isolated do
      Run.bindFd 0 Run.nowhere
      exec fuel c))
    let s ← get
    let finish := match result with
      | .ok () => s.clock
      | .error _ => s.limit + 1
    set { s with clock := start, jobs := s.jobs ++ [(finish, holds)], status := 0 }
    match result with
    | .error (.killed n) => throw (.killed n)
    | _ => return

/-- runs the body of a loop once, and whether the loop goes on; a jump that means an outer loop goes on to it -/
def rounds : Nat → Command → Run Bool
  | 0, _ => throw .forever
  | fuel + 1, body => do
    Run.modifyScope fun s => { s with loops := s.loops + 1 }
    let result ← attempt (exec fuel body)
    Run.modifyScope fun s => { s with loops := s.loops - 1 }
    match result with
    | .ok () => return true
    | .error (.break_ n) => if n > 1 then throw (.break_ (n - 1)) else return false
    | .error (.continue_ n) => if n > 1 then throw (.continue_ (n - 1)) else return true
    | .error e => throw e

def loop : Nat → (until_ : Bool) → Command → Command → (status : Nat) → Run Unit
  | 0, _, _, _, _ => throw .forever
  | fuel + 1, until_, cond, body, status => do
    Run.tick
    Run.guarding (exec fuel cond)
    if ((← get).status = 0) == until_ then Run.setStatus status
    else
      Run.setStatus 0
      if ← rounds fuel body then loop fuel until_ cond body (← get).status

def each : Nat → String → Command → List String → Run Unit
  | 0, _, _, _ => throw .forever
  | _, _, _, [] => return
  | fuel + 1, name, body, v :: rest => do
    Run.tick
    Builtins.storeText name v
    if ← rounds fuel body then each fuel name body rest

def count : Nat → (cond step : Word) → Command → Run Unit
  | 0, _, _, _ => throw .forever
  | fuel + 1, cond, step, body => do
    Run.tick
    let blank := cond.all fun c => c = ' ' || c = '\t'
    let on ← if blank then pure true else do pure ((← Expand.value (runText fuel) cond) ≠ 0)
    if on then
      if ← rounds fuel body then
        let _ ← Expand.value (runText fuel) step
        count fuel cond step body

def caseArms : Nat → String → List (List Word × Command × ArmEnd) → (forced : Bool) → Run Unit
  | 0, _, _, _ => throw .forever
  | _, _, [], _ => return
  | fuel + 1, text, (patterns, body, e) :: rest, forced => do
    let settings := (← Run.scope).settings
    let hit ← patterns.anyM fun p => do
      let wild ← Expand.wordPattern (runText fuel) settings.extglob p
      return wildMatch settings.nocasematch wild text.toList
    if forced || hit then
      exec fuel body
      match e with
      | .leave => return
      | .fallThrough => caseArms fuel text rest true
      | .testNext => caseArms fuel text rest false
    else caseArms fuel text rest false

/-- runs a simple command: assignments, and a command with arguments -/
def simple : Nat → (assigns words : List Word) → Run Unit
  | 0, _, _ => throw .forever
  | fuel + 1, assigns, words => do
    let run := runText fuel
    let before := (← get).status
    let declared := (words.head?.map fun w => declarations.contains (String.ofList w)).getD false
    if declared then
      let name := String.ofList (words.headD [])
      let (asWritten, others) := (words.drop 1).partition Parse.isAssignment
      let expanded ← Expand.allFields run others
      Run.setStatus 0
      declare fuel name expanded asWritten
      Run.checkStatus
    else
      let args ← Expand.allFields run words
      match args with
      | [] =>
        if (assigns ++ words).any runsCommand then
          if words.isEmpty then Run.setStatus 0
          for a in assigns do
            assign run a
        else
          for a in assigns do
            assign run a
          Run.setStatus (if assigns.isEmpty && !words.isEmpty then before else 0)
        Run.checkStatus
      | name :: args =>
        if assigns.isEmpty then dispatch fuel name args
        else
          -- the variables are there for this command only
          let names := assigns.map fun a => (readAssignment a).name
          let old ← names.mapM fun n => do return (n, ← Run.stored? n)
          for a in assigns do assign run a
          for n in names do
            match ← Run.stored? n with
            | some v => Run.putVariable n { v with exported := true }
            | none => pure ()
          let result ← attempt (dispatch fuel name args)
          if name != "exec" then Builtins.restoreLocals old
          match result with
          | .ok () => return
          | .error e => throw e

def declare : Nat → String → (args : List String) → (assigns : List Word) → Run Unit
  | 0, _, _, _ => throw .forever
  | fuel + 1, name, args, assigns => do
    let run := runText fuel
    let flags := args.filter fun a => a.startsWith "-" || a.startsWith "+"
    let names := args.filter fun a => !(a.startsWith "-" || a.startsWith "+")
    let letters := flags.flatMap fun f => (f.toList.drop 1)
    let has (c : Char) : Bool := letters.contains c
    let mark (v : Variable) : Variable :=
      let v := if has 'x' || (name == "export" && !has 'n') then { v with exported := true } else v
      let v := if name == "export" && has 'n' then { v with exported := false } else v
      let v := if has 'i' then { v with integer := true } else v
      let v := if has 'u' then { v with upper := some true } else if has 'l' then { v with upper := some false } else v
      let v := if has 'r' || name == "readonly" then { v with fixed := true } else v
      match v.value with
      | .unset => if has 'A' then { v with value := .table [] } else if has 'a' then { v with value := .list [] } else v
      | _ => v
    if has 'p' || (names.isEmpty && assigns.isEmpty) then
      let vars := (← Run.scope).vars.filter fun (n, v) =>
        (names.isEmpty || names.contains n) && (name != "export" || v.exported)
      let shown := (vars.mergeSort fun a b => a.1 ≤ b.1).map fun (n, v) =>
        "declare -" ++ (if v.exported then "x" else "-") ++ " " ++ n ++ "=\"" ++ (v.value.text?.getD "") ++ "\""
      if !has 'f' && !has 'F' then Builtins.put (joinLines shown)
      else
        let known := (← Run.scope).functions.map (·.1)
        Run.setStatus (if names.all known.contains then 0 else 1)
    else
      let isLocal := name == "local" || ((name == "declare" || name == "typeset") && !has 'g')
      if name == "local" && (← Run.scope).functionDepth = 0 then
        Run.refuse 1 "local: can only be used in a function"
      else
        for n in names do declareOne run isLocal mark n.toList
        for a in assigns do declareOne run isLocal mark a

/-- runs a command with its arguments -/
def dispatch : Nat → String → List String → Run Unit
  | 0, _, _ => throw .forever
  | fuel + 1, name, args => do
    match (← Run.scope).functions.find? (·.1 == name) with
    | some (_, body) => callFunction fuel body args
    | none =>
      inner fuel name args
    Run.checkStatus

def callFunction : Nat → Command → List String → Run Unit
  | 0, _, _ => throw .forever
  | fuel + 1, body, args => do
    let outer ← Run.scope
    if outer.functionDepth > 4000 then throw (.killed 11)
    Run.modifyScope fun s =>
      { s with args := args, saved := [] :: s.saved, functionDepth := s.functionDepth + 1, loops := 0 }
    let result ← attempt (exec fuel body)
    let frame := ((← Run.scope).saved.head?).getD []
    Builtins.restoreLocals frame
    Run.modifyScope fun s =>
      { s with args := outer.args, saved := s.saved.drop 1, functionDepth := outer.functionDepth, loops := outer.loops }
    match result with
    | .ok () => return
    | .error (.return_ n) => Run.setStatus n
    | .error e => throw e

/-- commands that are part of the shell, and then others -/
def inner : Nat → String → List String → Run Unit
  | 0, _, _ => throw .forever
  | fuel + 1, name, args => do
    let status := (← get).status
    let number : Except Unit Nat := match args.head? with
      | none => .ok status
      | some a =>
        match Tools.plainInt? a with
        | some n => .ok (n % 256).toNat
        | none => .error ()
    match name with
    | "exit" =>
      match number with
      | .ok n => throw (.exit n)
      | .error () =>
        Run.refuse 2 "exit: numeric argument required"
        throw (.exit 2)
    | "return" =>
      let s ← Run.scope
      if s.functionDepth = 0 && s.sourceDepth = 0 then
        Run.refuse 2 "return: can only `return' from a function or sourced script"
      else
        match number with
        | .ok n => throw (.return_ n)
        | .error () => throw (.return_ 2)
    | "break" | "continue" =>
      if (← Run.scope).loops = 0 then Run.setStatus 0
      else
        let n := min ((args.head?.bind String.toNat?).getD 1) (← Run.scope).loops
        Run.setStatus 0
        if name == "break" then throw (.break_ n) else throw (.continue_ n)
    | "eval" =>
      Run.setStatus 0
      runText fuel (String.intercalate " " args).toList
    | "source" | "." =>
      match args with
      | [] => Run.refuse 2 (name ++ ": filename argument required")
      | path :: more =>
        match ← Run.readFile path with
        | .error why => Run.refuse 1 (path ++ ": " ++ why)
        | .ok text =>
          let outer ← Run.scope
          Run.modifyScope fun s =>
            { s with sourceDepth := s.sourceDepth + 1, args := if more.isEmpty then s.args else more }
          Run.setStatus 0
          let result ← attempt (runText fuel text.toList)
          Run.modifyScope fun s =>
            { s with sourceDepth := outer.sourceDepth, args := if more.isEmpty then s.args else outer.args }
          match result with
          | .ok () => return
          | .error (.return_ n) => Run.setStatus n
          | .error e => throw e
    | "command" | "builtin" =>
      match args.filter fun a => a != "-p" && a != "--" with
      | [] => Run.setStatus 0
      | flag :: names =>
        if flag == "-v" || flag == "-V" then describe fuel (flag == "-V") names
        else inner fuel flag names
    | "type" => describe fuel true args
    | "exec" =>
      match args with
      | [] => Run.setStatus 0
      | name :: args =>
        outside fuel name args
        throw (.exit (← get).status)
    | "let" =>
      let values ← args.mapM fun a => Expand.value (runText fuel) a.toList
      Run.setStatus (if values.getLastD 0 = 0 then 1 else 0)
    | "trap" =>
      match args.filter (· != "--") with
      | "-p" :: _ => Run.setStatus 0
      | "-" :: _ => Run.modifyScope fun s => { s with atExit := none }
      | text :: signals =>
        if signals.any fun s => s == "EXIT" || s == "0" then
          Run.modifyScope fun s => { s with atExit := some text }
        Run.setStatus 0
      | [] => Run.setStatus 0
    | "printf" =>
      match args with
      | "-v" :: target :: rest =>
        let r := Tools.printf { name := "printf", args := rest, input := [], read := fun _ => .error "" }
        let w := (target ++ "=").toList
        if Parse.isAssignment w && target.contains '[' then
          assign (runText fuel) (w ++ (Tools.shellQuoted r.out).toList)
        else Builtins.storeText target r.out
        Run.setStatus r.status
      | _ => runTool name (fun g => return Tools.printf g) args
    | "echo" => runTool name (fun g => return Tools.echo g) args
    | name =>
      if declarations.contains name then declare fuel name args []
      else
        match Builtins.table.find? fun (n, _) => n == name && isInner n with
        | some (_, act) => act args
        | none => outside fuel name args

/-- says what commands are -/
def describe : Nat → (long : Bool) → List String → Run Unit
  | 0, _, _ => throw .forever
  | _ + 1, long, names => do
    let short := names.contains "-t"
    let names := names.filter fun n => !n.startsWith "-"
    let texts ← names.mapM fun n => do
      if (← Run.scope).functions.any (·.1 == n) then
        return some (if short then "function" else if long then n ++ " is a function" else n)
      else if isInner n then
        return some (if short then "builtin" else if long then n ++ " is a shell builtin" else n)
      else if Parse.reserved.contains n || ["if", "for", "while", "case", "until", "function"].contains n then
        return some (if short then "keyword" else if long then n ++ " is a shell keyword" else n)
      else
        match ← toolName? n with
        | some t =>
          let path := if n.contains '/' then n else "/usr/bin/" ++ t
          return some (if short then "file" else if long then n ++ " is " ++ path else path)
        | none => return none
    Builtins.put (joinLines (texts.filterMap id))
    Run.setStatus (if texts.all Option.isSome then 0 else 1)

/-- runs a command from outside of the shell -/
def outside : Nat → String → List String → Run Unit
  | 0, _, _ => throw .forever
  | fuel + 1, command, args => do
    match ← toolName? command with
    | none => notFound fuel command
    | some name =>
      match toolTable.find? (·.1 == name) with
      | some (_, tool) => runTool name (fun g => return tool g) args
      | none =>
        match Tools.fileTools.find? (·.1 == name) with
        | some (_, tool) => runTool name tool args
        | none =>
          match Builtins.table.find? (·.1 == name) with
          | some (_, act) => act args
          | none => caller fuel name args

def notFound : Nat → String → Run Unit
  | 0, _ => throw .forever
  | _ + 1, command => do
    if command.contains '/' then
      match ← Tools.nodeAt command with
      | .ok (.dir _) => Run.refuse 126 (command ++ ": Is a directory")
      | .ok _ => Run.refuse 126 (command ++ ": Permission denied")
      | .error e => Run.refuse 127 (command ++ ": " ++ Run.failureText e)
    else Run.refuse 127 (command ++ ": command not found")

/-- commands that run others -/
def caller : Nat → String → List String → Run Unit
  | 0, _, _ => throw .forever
  | fuel + 1, name, args => do
    match name with
    | "env" =>
      let clear := args.head? = some "-i" || args.head? = some "-"
      let args := if clear then args.drop 1 else args
      let settings := args.takeWhile fun a => a.contains '=' || a.startsWith "-u"
      let rest := args.drop settings.length
      Run.isolated do
        if clear then
          Run.modifyScope fun s => { s with vars := s.vars.map fun (n, v) => (n, { v with exported := false }) }
        for a in settings do
          match a.splitOn "=" with
          | n :: vs => Run.putVariable n { value := .text (String.intercalate "=" vs), exported := true }
          | [] => pure ()
        match rest with
        | [] => runTool "printenv" (fun g => return printEnvironment { g with args := [] }) []
        | c :: args => outside fuel c args
    | "nohup" | "nice" | "stdbuf" =>
      match args.filter fun a => !a.startsWith "-" with
      | c :: args => outside fuel c args
      | [] => Run.setStatus 125
    | "timeout" =>
      match args.filter fun a => !a.startsWith "-" with
      | t :: c :: args =>
        let s ← get
        let limit := s.clock + (Builtins.duration? t).getD 0
        modify fun s => { s with limit := min s.limit limit }
        let result ← attempt (outside fuel c args)
        modify fun now => { now with limit := s.limit }
        match result with
        | .ok () => return
        | .error .late => do
          if limit > s.limit then throw .late
          modify fun now => { now with clock := limit }
          Run.setStatus 124
        | .error .forever => do
          if limit > s.limit then throw .late
          modify fun now => { now with clock := limit }
          Run.setStatus 124
        | .error e => throw e
      | _ => Run.setStatus 125
    | "which" =>
      let found ← args.mapM fun n => do return ((← toolName? n)).map fun t => "/usr/bin/" ++ t
      Builtins.put (joinLines (found.filterMap id))
      Run.setStatus (if found.all Option.isSome then 0 else 1)
    | "xargs" => eachArgument fuel args
    | _ => subScript fuel args

/-- runs a command with arguments from the input -/
def eachArgument : Nat → List String → Run Unit
  | 0, _ => throw .forever
  | fuel + 1, args => do
    let o := leadingOptions "nIdLPs".toList (args.length + 1) args {}
    let (cs, endless) := ((← Run.available 0)).getD ([], false)
    if endless then throw .forever
    Run.consume 0 cs.length
    let text := String.ofList cs
    let separator := if o.has ["0"] then some (String.singleton (Char.ofNat 0))
      else if o.has ["I"] then some "\n"
      else o.value? ["d"]
    let items := match separator with
      | some sep => (text.splitOn sep).filter (!·.isEmpty)
      | none => argumentWords (cs.length + 1) none cs
    let command := if o.operands.isEmpty then ["echo"] else o.operands
    let size := match o.value? ["I"], (o.value? ["n", "L"]).bind String.toNat? with
      | some _, _ => 1
      | none, some n => max 1 n
      | none, none => max 1 items.length
    let groups := Tools.chunksOf size (items.length + 1) items
    let groups := if groups.isEmpty && !o.has ["r"] && !o.has ["I"] then [[]] else groups
    let before := (← Run.scope).fds
    Run.bindFd 0 Run.nowhere
    let mut worst := 0
    for g in groups do
      let full := match o.value? ["I"] with
        | some mark => command.map fun (c : String) => c.replace mark (g.headD "")
        | none => command ++ g
      outside fuel (full.headD "echo") (full.drop 1)
      let status := (← get).status
      if status = 127 || status = 126 then worst := max worst status
      else if status ≠ 0 then worst := max worst 123
    Run.modifyScope fun s => { s with fds := before }
    Run.setStatus worst

/-- runs another script -/
def subScript : Nat → List String → Run Unit
  | 0, _ => throw .forever
  | fuel + 1, args => do
    let letters := (args.takeWhile fun a => a.startsWith "-" && a != "-c" && !(a.startsWith "-" && a.endsWith "c"))
    let rest := args.drop letters.length
    let program : Except String (String × String × List String) ← match rest with
      | a :: text :: more =>
        if a.startsWith "-" then pure (.ok (text, more.headD "bash", more.drop 1))
        else do
          pure ((← Run.readFile a).map fun t => (t, a, text :: more))
      | [a] => do pure ((← Run.readFile a).map fun t => (t, a, []))
      | [] => do
        let (cs, _) := ((← Run.available 0)).getD ([], false)
        Run.consume 0 cs.length
        pure (.ok (String.ofList cs, "bash", []))
    match program with
    | .error why => Run.refuse 127 (rest.headD "" ++ ": " ++ why)
    | .ok (text, name, args) =>
      let act : Run Unit := Run.isolated do
        Run.modifyScope fun s =>
          { s with vars := s.vars.filter (·.2.exported), functions := [], args := args, name := name, settings := {},
                   functionDepth := 0, sourceDepth := 0, saved := [] }
        for l in letters do for c in l.toList.drop 1 do Builtins.change (Builtins.setLetter true c)
        Run.setStatus 0
        withExit fuel (runText fuel text.toList)
      match ← attempt act with
      | .ok () => return
      | .error (.killed n) => Run.setStatus (128 + n)
      | .error e => throw e
end

end Gleaner.Shell
