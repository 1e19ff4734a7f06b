/-
The functions that every program has, and those of coroutines.
-/
import Gleaner.Lua.Library.Codes
import Gleaner.Lua.Library.Numeric
import Gleaner.Lua.Library.System
import Gleaner.Lua.Library.Tables

namespace Gleaner.Lua.Library

/-! ## Texts of values -/

def objectText (name : String) (i : Nat) : String :=
  let digits := Nat.toDigits 16 (0x55d0c0de0000 + 32 * i)
  name ++ ": 0x" ++ String.ofList digits

/-- the text of a value without metamethods that are functions -/
def basicText (v : Value) (m : Machine) : Bytes :=
  match v with
  | .table i => ofText (objectText (m.typeLabel v) i)
  | .closure i => ofText (objectText "function" i)
  | .native name => ofText (objectText "function: builtin" name.length)
  | .bound i => ofText (objectText "function" (i + 1000000))
  | .file i => ofText (objectText "file" i)
  | .thread i => ofText (objectText "thread" i)
  | v => plainText v

/-- gives the text of a value -/
def askText (v : Value) (site : Option Site) (m : Machine) : Machine :=
  let h := m.metamethod v "__tostring"
  if h.isNil then m.giveBytes (basicText v m) else (m.push (.textOnly site)).call h [v] none

/-- goes on with the text that a metamethod gave -/
def checkText (v : Value) (site : Option Site) (m : Machine) : Machine :=
  match v.asText? with
  | some s => m.giveBytes s
  | none => m.fail site "'__tostring' must return a string"

/-- prints values, those before being texts already -/
def printFrom (done : List Bytes) (rest : List Value) (site : Option Site) (m : Machine) : Machine :=
  match rest with
  | v :: rest => askText v site (m.push (.printRest done rest site))
  | [] =>
    let line := done.reverse.foldl (fun (acc : Option Bytes) b =>
      some (match acc with
        | none => b
        | some acc => acc ++ ofText "\t" ++ b)) none
    (writeBytes 1 (line.getD ByteArray.empty ++ ofText "\n") m).give []

/-- asks the arguments of a format for their texts where they have their own -/
def formatFrom (done rest : List Value) (site : Option Site) (m : Machine) : Machine :=
  match rest with
  | v :: rest =>
    match v with
    | .text _ | .int _ | .float _ | .nil | .bool _ => formatPlain v rest
    | v => askText v site (m.push (.formatting done rest site))
  | [] => Action.perform site (formatText ⟨done.reverse.toArray, "string.format", site⟩) m
where
  formatPlain (v : Value) (rest : List Value) : Machine :=
    match (rest.map fun v => match v with
      | .text _ | .int _ | .float _ | .nil | .bool _ => true
      | _ => false).all id with
    | true => Action.perform site (formatText ⟨(done.reverse ++ v :: rest).toArray, "string.format", site⟩) m
    | false =>
      let plain := rest.takeWhile fun v => (m.metatable? v).isNone || v.isText
      let after := rest.drop plain.length
      match after with
      | w :: after => askText w site (m.push (.formatting (plain.reverse ++ v :: done) after site))
      | [] => Action.perform site (formatText ⟨(done.reverse ++ v :: rest).toArray, "string.format", site⟩) m

/-! ## Programs -/

/-- how a program is called in messages, from the name it was given -/
def chunkLabel (name : List Char) : String :=
  match name with
  | '=' :: rest => String.ofList (rest.take 59)
  | '@' :: rest =>
    if rest.length ≤ 59 then String.ofList rest else "..." ++ String.ofList (rest.drop (rest.length - 56))
  | _ =>
    let line := name.takeWhile (· ≠ '\n')
    if line.length = name.length && name.length < 45 then "[string \"" ++ String.ofList name ++ "\"]"
    else "[string \"" ++ String.ofList (line.take 45) ++ "...\"]"

/-- makes a function of a program -/
def compileChunk (code : Bytes) (label : String) (env : Option Value) (m : Machine) : Except String (Value × Machine) :=
  match parse (byteChars code) with
  | .error e => .error (label ++ ":" ++ toString e.line ++ ": " ++ e.text)
  | .ok body =>
    let (cell, m) := m.newCell (env.getD (.table m.globals))
    let closure : Closure := ⟨body, { vars := [("_ENV", cell)], chunk := label }⟩
    .ok (.closure m.closures.size, { m with closures := m.closures.push closure })

/-- gives the function of a program, or nil and what is wrong with it -/
def giveChunk (code : Bytes) (label : String) (env : Option Value) (m : Machine) : Machine :=
  match compileChunk code label env m with
  | .ok (f, m) => m.give1 f
  | .error e => m.give [.nil, .ofString e]

/-- a program in a file may have a first line for the system -/
def dropFirstLine (code : Bytes) : Bytes :=
  if Pattern.byteAt code 0 = Pattern.code '#' then code.extract (lineEnd code 0) code.size else code

/-- gives the function of the program in a file -/
def loadFile (path : String) (env : Option Value) (m : Machine) : Except String (Value × Machine) :=
  match m.host.files.openFile path with
  | .error e => .error ("cannot open " ++ path ++ ": " ++ (faultParts e).1)
  | .ok source =>
    match source.failure with
    | some e => .error ("cannot read " ++ path ++ ": " ++ (faultParts e).1)
    | none => compileChunk (dropFirstLine (ByteArray.mk source.bytes.toArray)) path env m

/-- collects the pieces of a program that a function gives -/
def collectPieces (done : List Bytes) (reader : Value) (label : String) (env : Option Value) (v : Value)
    (m : Machine) : Machine :=
  let finish : Machine := giveChunk (done.reverse.foldl (· ++ ·) ByteArray.empty) label env m
  match v with
  | .nil => finish
  | v =>
    match v.asText? with
    | some b =>
      if b.size = 0 then finish else (m.push (.loadPieces (b :: done) reader label env)).call reader [] none
    | none => m.give [.nil, .ofString "reader function must return a string"]

def loadAction (a : Arguments) : Action := do
  let env := if a.has 3 then some (a.get 3) else none
  match a.get 0 with
  | .text code =>
    let name := byteChars (← a.textOr 1 "")
    let label := chunkLabel (if (a.get 1).isNil then byteChars code else name)
    let mode := byteChars (← a.textOr 2 "bt")
    if !mode.contains 't' then
      Action.give [.nil, .ofString ("attempt to load a text chunk (mode is '" ++ String.ofList mode ++ "')")]
    else return giveChunk code label env
  | _ =>
    let reader ← a.func 0
    let label := chunkLabel (byteChars (← a.textOr 1 "=(load)"))
    return fun m => (m.push (.loadPieces [] reader label env)).call reader [] none

/-! ## Modules -/

/-- a field of the table of packages -/
def packageField (m : Machine) (name : String) : Value :=
  match (m.table m.globals).getText "package" with
  | .table p => (m.table p).getText name
  | _ => .nil

/-- the files that a module may be in -/
def modulePaths (m : Machine) (name : String) : List String :=
  let templates := match packageField m "path" with
    | .text s => (pathText s).splitOn ";"
    | _ => []
  let file := name.map fun c => if c = '.' then '/' else c
  templates.map fun t => String.intercalate file (t.splitOn "?")

def requireAction (a : Arguments) : Action := do
  let key := Value.text (← a.text 0)
  let name := pathText (← a.text 0)
  return fun m =>
    let field (table : String) : Value := match packageField m table with
      | .table t => (m.table t).get key
      | _ => .nil
    let found := field "loaded"
    if found.truthy then m.give1 found
    else
      let preload := field "preload"
      if !preload.isNil then (m.push (.loaded name)).call preload [key, .ofString ":preload:"] none
      else
        let paths := modulePaths m name
        match paths.find? m.host.files.isFile with
        | none =>
          let tried := String.join (paths.map fun p => "\n\tno file '" ++ p ++ "'")
          m.fail a.site ("module '" ++ name ++ "' not found:\n\tno field package.preload['" ++ name ++ "']" ++ tried)
        | some path =>
          match loadFile path none m with
          | .error e => m.fail a.site ("error loading module '" ++ name ++ "' from file '" ++ path ++ "':\n\t" ++ e)
          | .ok (f, m) => (m.push (.loaded name)).call f [key, .ofString path] none

/-- keeps what a module gave -/
def keepModule (name : String) (v : Value) (m : Machine) : Machine :=
  match packageField m "loaded" with
  | .table t =>
    let kept := (m.table t).getText name
    let v := if !v.isNil then v else if kept.isNil then .bool true else kept
    (m.setField t name v).give1 v
  | _ => m.give1 v

/-! ## Basic functions -/

/-- the site of a call some levels up -/
def levelSite (level : Int) (site : Option Site) (m : Machine) : Option Site :=
  if level = 1 then site
  else if level < 1 then none
  else
    let sites := m.frames.filterMap fun
      | .function s _ _ => some s
      | _ => none
    (sites[(level - 2).toNat]?).getD none

def errorAction (a : Arguments) : Action := do
  let level ← a.intOr 1 1
  return fun m =>
    match a.get 0 with
    | .text s => m.raise (.text (ofText (Machine.positioned (levelSite level a.site m) "") ++ s))
    | v => m.raise v

/-- reads an integer in some base -/
def readBase? (cs : List Char) (base : Nat) : Option Int64 :=
  let cs := ((cs.dropWhile isSpace).reverse.dropWhile isSpace).reverse
  let (negative, digits) := match cs with
    | '-' :: rest => (true, rest)
    | _ => (false, cs)
  let value? (c : Char) : Option Nat :=
    let n := if c.isDigit then c.toNat - 48 else if c.isAlpha then c.toLower.toNat - 87 else base
    if n < base then some n else none
  if digits.isEmpty then none
  else
    (digits.foldlM (fun (n : Nat) c => (value? c).map (n * base + ·)) 0).map fun n =>
      Int64.ofInt (if negative then -n else n)

def tonumberAction (a : Arguments) : Action := do
  if (a.get 1).isNil then
    let v ← a.any 0
    Action.give [(v.asNumber?.map Number.value).getD .nil]
  else
    let base ← a.int 1
    match a.get 0 with
    | .text s =>
      if base < 2 || base > 36 then a.fault 1 "base out of range"
      else Action.give [((readBase? (byteChars s) base.toNat).map Value.int).getD .nil]
    | _ => a.wrongType 0 "string"

def selectAction (a : Arguments) : Action := do
  let rest := a.values.toList.drop 1
  if a.get 0 matches .text _ && (a.get 0).asText? == some (ofText "#") then Action.int rest.length
  else
    let n ← a.int 0
    let count : Int := rest.length
    if n > 0 then Action.give (rest.drop (n.toNat - 1))
    else if n = 0 || -n > count then a.fault 0 "index out of range"
    else Action.give (rest.drop (count + n).toNat)

def setmetatableAction (a : Arguments) : Action := do
  let t ← a.table 0
  let meta_ ← match a.get 1 with
    | .nil => if a.has 1 then pure none else a.wrongType 1 "nil or table"
    | .table i => pure (some i)
    | _ => a.wrongType 1 "nil or table"
  return fun m =>
    if !(m.metamethod (.table t) "__metatable").isNil then m.fail a.site "cannot change a protected metatable"
    else (m.modifyTable t fun table => { table with meta_ := meta_ }).give1 (.table t)

def nextAction (a : Arguments) : Action := do
  let t ← a.table 0
  return fun m =>
    match (m.table t).next (a.get 1) with
    | none => m.fail a.site "invalid key to 'next'"
    | some none => m.give1 .nil
    | some (some (k, v)) => m.give [k, v]

def collectAction (a : Arguments) : Action := do
  match pathText (← a.textOr 0 "collect") with
  | "count" => Action.give [.float 32.0]
  | "step" => Action.bool true
  | "isrunning" => Action.bool true
  | "incremental" => Action.text (ofText "incremental")
  | "generational" => Action.text (ofText "incremental")
  | "collect" | "stop" | "restart" | "setpause" | "setstepmul" => Action.int 0
  | option => a.fault 0 ("invalid option '" ++ option ++ "'")

def basicNames : List String :=
  ["assert", "collectgarbage", "dofile", "error", "getmetatable", "ipairs", "load", "loadfile", "next", "pairs",
   "pcall", "print", "rawequal", "rawget", "rawlen", "rawset", "require", "select", "setmetatable", "tonumber",
   "tostring", "type", "warn", "xpcall"]

def basicLibrary? (a : Arguments) : Option Action :=
  match a.name with
  | "assert" => some do
    let v ← a.any 0
    if v.truthy then Action.give a.values.toList
    else if a.has 1 then return Machine.raise (a.get 1)
    else throw "assertion failed!"
  | "collectgarbage" => some (collectAction a)
  | "dofile" => some do
    let path := pathText (← a.text 0)
    return fun m =>
      match loadFile path none m with
      | .ok (f, m) => m.call f [] none
      | .error e => m.raise (.ofString e)
  | "error" => some (errorAction a)
  | "getmetatable" => some do
    let v ← a.any 0
    return fun m =>
      match m.metatable? v with
      | none => m.give1 .nil
      | some i =>
        let hidden := (m.table i).getText "__metatable"
        m.give1 (if hidden.isNil then .table i else hidden)
  | "ipairs" => some do Action.give [.native "ipairs step", ← a.any 0, .int 0]
  | "ipairs step" => some do
    let i := (Int64.ofInt (← a.int 1)) + 1
    return fun m => (m.push (.itemAt i)).index a.site (fun _ => "") (a.get 0) (.int i)
  | "load" => some (loadAction a)
  | "loadfile" => some do
    let path := pathText (← a.text 0)
    let env := if a.has 2 then some (a.get 2) else none
    return fun m =>
      match loadFile path env m with
      | .ok (f, m) => m.give1 f
      | .error e => m.give [.nil, .ofString e]
  | "next" => some (nextAction a)
  | "pairs" => some do
    let v ← a.any 0
    return fun m =>
      let h := m.metamethod v "__pairs"
      if h.isNil then m.give [.native "next", v, .nil] else (m.push (.adjust 3)).call h [v] none
  | "pcall" => some do
    let f ← a.any 0
    return fun m => (m.push .guarded).call f (a.values.toList.drop 1) none
  | "print" => some (.ok (printFrom [] a.values.toList a.site))
  | "rawequal" => some do Action.bool ((← a.any 0).rawEq (← a.any 1))
  | "rawget" => some do
    let t ← a.table 0
    return fun m => m.give1 ((m.table t).get (a.get 1))
  | "rawlen" => some do
    match a.get 0 with
    | .table t => return fun m => m.giveInt (m.table t).length
    | .text s => Action.int s.size
    | _ => a.fault 0 "table or string expected"
  | "rawset" => some do
    let t ← a.table 0
    return fun m =>
      match (m.rawStore a.site t (a.get 1) (a.get 2)) with
      | m => match m.control with
        | .raise _ => m
        | _ => m.give1 (.table t)
  | "require" => some (requireAction a)
  | "select" => some (selectAction a)
  | "setmetatable" => some (setmetatableAction a)
  | "tonumber" => some (tonumberAction a)
  | "tostring" => some do return askText (← a.any 0) a.site
  | "type" => some do Action.text (ofText (← a.any 0).typeName)
  | "warn" => some (Action.give [])
  | "xpcall" => some do
    let handler ← a.func 1
    return fun m => (m.push (.guardedWith handler)).call (a.get 0) (a.values.toList.drop 2) none
  | _ => none

/-! ## Coroutines -/

def threadOf (i : Nat) (m : Machine) : Thread := m.threads.getD i { status := .dead, frames := [], start := none }

def setThread (i : Nat) (t : Thread) (m : Machine) : Machine := { m with threads := m.threads.setIfInBounds i t }

def newThread (f : Value) (m : Machine) : Nat × Machine :=
  (m.threads.size, { m with threads := m.threads.push { status := .suspended, frames := [], start := some f } })

/-- the thread that runs, as it is now -/
def currentThread (status : ThreadStatus) (frames : List Frame) (m : Machine) : Thread :=
  { threadOf m.current m with status := status, frames := frames, depth := m.depth, native := m.native }

/-- goes on with a thread -/
def switchTo (i : Nat) (m : Machine) : Machine :=
  let t := threadOf i m
  { setThread i { t with status := .running, frames := [], start := none } m with
    current := i, frames := t.frames, depth := t.depth, native := t.native }

def resumeThread (i : Nat) (args : List Value) (wrapped : Bool) (site : Option Site) (m : Machine) : Machine :=
  let t := threadOf i m
  if t.status ≠ .suspended then
    let what := if t.status = .dead then "cannot resume dead coroutine" else "cannot resume non-suspended coroutine"
    if wrapped then m.fail site what else m.give [.bool false, .ofString what]
  else if m.native ≥ Machine.maxNative then
    if wrapped then m.fail site "C stack overflow" else m.give [.bool false, .ofString "C stack overflow"]
  else
    let here := m.current
    let native := m.native
    let m := setThread here (currentThread .normal (.resumed i wrapped site :: m.frames) m) m
    let m := setThread i { t with parent := here, native := max t.native (native + 1) } m
    let m := switchTo i m
    match t.start with
    | some f => m.call f args none
    | none => m.give args

/-- goes back to the thread that resumed the one that runs, which is left in some state -/
def leaveThread (left : Thread) (outcome : Except Value (List Value)) (m : Machine) : Machine :=
  let m := setThread m.current left m
  let m := switchTo left.parent m
  match m.frames with
  | .resumed _ wrapped site :: rest =>
    let m := { m with frames := rest }
    match outcome, wrapped with
    | .ok values, true => m.give values
    | .ok values, false => m.give (.bool true :: values)
    | .error (.text s), true => m.raise (.text (ofText (Machine.positioned site "") ++ s))
    | .error e, true => m.raise e
    | .error e, false => m.give [.bool false, e]
  | _ => m.set (.halted outcome)

def yieldThread (values : List Value) (site : Option Site) (m : Machine) : Machine :=
  if m.current = 0 then m.fail site "attempt to yield from outside a coroutine"
  else leaveThread (currentThread .suspended m.frames m) (.ok values) m

/-- ends the thread that runs -/
def endThread (outcome : Except Value (List Value)) (m : Machine) : Machine :=
  leaveThread (currentThread .dead [] m) outcome m

def statusText (i : Nat) (m : Machine) : String :=
  if i = m.current then "running"
  else
    match (threadOf i m).status with
    | .suspended => "suspended"
    | .running => "running"
    | .normal => "normal"
    | .dead => "dead"

def threadArgument (a : Arguments) (i : Nat) : Except String Nat :=
  match a.get i with
  | .thread t => .ok t
  | _ => a.wrongType i "coroutine"

def threadNames : List String := ["close", "create", "isyieldable", "resume", "running", "status", "wrap", "yield"]

def threadLibrary? (a : Arguments) : Option Action :=
  match a.name with
  | "coroutine.close" => some do
    let t ← threadArgument a 0
    return fun m =>
      let status := statusText t m
      if status == "suspended" || status == "dead" then
        (setThread t { threadOf t m with status := .dead, frames := [], start := none } m).giveBool true
      else m.fail a.site ("cannot close a " ++ status ++ " coroutine")
  | "coroutine.create" => some do
    let f ← a.func 0
    return fun m =>
      let (t, m) := newThread f m
      m.give1 (.thread t)
  | "coroutine.isyieldable" => some (.ok fun m => m.giveBool (m.current ≠ 0))
  | "coroutine.resume" => some do return resumeThread (← threadArgument a 0) (a.values.toList.drop 1) false a.site
  | "coroutine.running" => some (.ok fun m => m.give [.thread m.current, .bool (m.current = 0)])
  | "coroutine.status" => some do
    let t ← threadArgument a 0
    return fun m => m.giveText (statusText t m)
  | "coroutine.wrap" => some do
    let f ← a.func 0
    return fun m =>
      let (t, m) := newThread f m
      let (b, m) := m.newBound ⟨"wrap", #[.thread t]⟩
      m.give1 (.bound b)
  | "coroutine.yield" => some (.ok (yieldThread a.values.toList a.site))
  | _ => none

/-! ## All of it -/

/-- what a function of the library does -/
def action? (a : Arguments) : Option Action :=
  if a.name == "string.format" then
    some (.ok (formatFrom [] a.values.toList a.site))
  else if a.name.startsWith "string." then textLibrary? a
  else if a.name.startsWith "table." then tableLibrary? a
  else if a.name.startsWith "math." then numericLibrary? a
  else if a.name.startsWith "coroutine." then threadLibrary? a
  else if a.name.startsWith "utf8." then codeLibrary? a
  else if a.name.startsWith "io." || a.name.startsWith "file." then ioLibrary? a
  else if a.name.startsWith "os." then osLibrary? a
  else basicLibrary? a

/-- calls a function of the library -/
def callNative (name : String) (args : List Value) (site : Option Site) (m : Machine) : Machine :=
  match action? ⟨args.toArray, name, site⟩ with
  | some act => Action.perform site act m
  | none => m.fail site ("no function '" ++ name ++ "'")

/-- calls a function of the library that has values of its own -/
def callBound (i : Nat) (args : List Value) (site : Option Site) (m : Machine) : Machine :=
  let b := m.bounds.getD i default
  match b.name, b.values with
  | "gmatch", _ => stepMatches i site m
  | "lines", _ => stepLines i site m
  | "wrap", #[.thread t] => resumeThread t args true site m
  | _, _ => m.give1 .nil

/-- adds a table with functions of the library -/
def addLibrary (m : Machine) (name : String) (functions : List String) (others : List (String × Value)) :
    Nat × Machine :=
  let t : Table := functions.foldl (fun t f => t.setText f (.native (name ++ "." ++ f))) {}
  let t := others.foldl (fun (t : Table) (k, v) => t.setText k v) t
  let (i, m) := m.newTable t
  (i, m.setField m.globals name (.table i))

def searchPath : String :=
  "/usr/local/share/lua/5.4/?.lua;/usr/local/share/lua/5.4/?/init.lua;/usr/local/lib/lua/5.4/?.lua;" ++
    "/usr/local/lib/lua/5.4/?/init.lua;./?.lua;./?/init.lua"

def inputFiles : Array OpenFile :=
  #[{ path := "", content := ByteArray.empty }, { path := "", content := ByteArray.empty, writes := true },
    { path := "", content := ByteArray.empty, writes := true }]

/-- a machine with all libraries -/
def freshMachine (host : Host) : Machine :=
  let basics : Table := basicNames.foldl (fun t f => t.setText f (.native f)) {}
  let basics := (basics.setText "_VERSION" (.ofString "Lua 5.4")).setText "_G" (.table 0)
  let m : Machine :=
    { host := host, tables := #[basics], globals := 0, files := inputFiles,
      threads := #[{ status := .running, frames := [], start := none }] }
  let (texts, m) := addLibrary m "string" textNames []
  let (textMeta, m) := m.newTable (Table.setText {} "__index" (.table texts))
  let (tables, m) := addLibrary m "table" tableNames []
  let (numbers, m) := addLibrary m "math" numericNames
    [("pi", .float 3.141592653589793), ("huge", .float (1.0 / 0.0)), ("maxinteger", .int 9223372036854775807),
     ("mininteger", .int (-9223372036854775808))]
  let (threads, m) := addLibrary m "coroutine" threadNames []
  let (codes, m) := addLibrary m "utf8" codeNames [("charpattern", .text charPattern)]
  let (files, m) := addLibrary m "io" ioNames [("stdin", .file 0), ("stdout", .file 1), ("stderr", .file 2)]
  let (system, m) := addLibrary m "os" osNames []
  let methods : Table := fileNames.foldl (fun t f => t.setText f (.native ("file." ++ f))) {}
  let (methodTable, m) := m.newTable methods
  let (fileMeta, m) :=
    m.newTable ((Table.setText {} "__index" (.table methodTable)).setText "__name" (.ofString "FILE*"))
  let (preload, m) := m.newTable {}
  let (package, m) := addLibrary m "package" []
    [("path", .ofString searchPath), ("cpath", .ofString ""), ("config", .ofString "/\n;\n?\n!\n-\n"),
     ("preload", .table preload)]
  let modules : List (String × Nat) :=
    [("_G", 0), ("string", texts), ("table", tables), ("math", numbers), ("coroutine", threads), ("utf8", codes),
     ("io", files), ("os", system), ("package", package)]
  let (loaded, m) := m.newTable (modules.foldl (fun t (name, i) => t.setText name (.table i)) {})
  let m := m.setField package "loaded" (.table loaded)
  { m with textMeta := textMeta, fileMeta := fileMeta }

end Gleaner.Lua.Library
