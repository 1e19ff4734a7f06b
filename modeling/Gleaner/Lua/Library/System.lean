/-
The libraries of files and of the system.

A file is read and written as a whole: what is written to it is in the file tree at once, and where it cannot be read
any further it ends. Numbers 0, 1 and 2 are the input, which is empty, the output, and the messages for the user. Time
stands still at the beginning of the epoch.
-/
import Gleaner.Lua.Library.Text

namespace Gleaner.Lua.Library

/-! ## Files -/

/-- the text of a failure without its number, and the number -/
def faultParts (e : IoError) : String × Int :=
  match e with
  | .notFound => ("No such file or directory", 2)
  | .notDirectory => ("Not a directory", 20)
  | .isDirectory => ("Is a directory", 21)
  | .tooManyLinks => ("Too many levels of symbolic links", 40)
  | .nameTooLong => ("File name too long", 36)
  | e => (e.message, 5)

def pathText (b : Bytes) : String := Utf8.decode b.toList

/-- nil, a message and a number -/
def faultValues (path : String) (e : IoError) : List Value :=
  let (text, code) := faultParts e
  [.nil, .ofString (path ++ ": " ++ text), .int (.ofInt code)]

def newFile (f : OpenFile) (m : Machine) : Value × Machine := (.file m.files.size, { m with files := m.files.push f })

def fileOf (i : Nat) (m : Machine) : OpenFile :=
  m.files.getD i { path := "", content := ByteArray.empty, closed := true }

def setFile (i : Nat) (f : OpenFile) (m : Machine) : Machine := { m with files := m.files.setIfInBounds i f }

/-- opens a file to read it, or to write it anew or at its end -/
def openFile (path : String) (mode : List Char) (m : Machine) : Except IoError (Value × Machine) := do
  let update := mode.contains '+'
  match mode.head? with
  | some 'r' =>
    let source ← m.host.files.openFile path
    return newFile { path := path, content := ByteArray.mk source.bytes.toArray, writes := update } m
  | _ =>
    let old ← match m.host.files.lookup path with
      | .ok (.dir _) => throw .isDirectory
      | .ok (.file _ (some (.refused e))) => throw e
      | .ok (.file bytes _) => pure bytes
      | .ok _ => throw .notFound
      | .error .notFound =>
        let dir := String.intercalate "/" (path.splitOn "/").dropLast
        if dir.isEmpty then pure [] else
          match ← m.host.files.lookup dir with
          | .dir _ => pure []
          | _ => throw .notDirectory
      | .error e => throw e
    let keep := mode.head? = some 'a'
    let content := if keep then old else []
    let m := { m with host := { m.host with files := m.host.files.write path (.file content) } }
    return newFile { path := path, content := ByteArray.mk content.toArray, writes := true, appends := keep } m

/-- puts bytes into a file at its place -/
def putBytes (f : OpenFile) (b : Bytes) : OpenFile :=
  let place := if f.appends then f.content.size else f.position
  let gap := ByteArray.mk (Array.replicate (place - f.content.size) 0)
  let before := (f.content ++ gap).extract 0 place
  let after := f.content.extract (place + b.size) f.content.size
  { f with content := before ++ b ++ after, position := place + b.size }

/-- writes bytes to file number `i` -/
def writeBytes (i : Nat) (b : Bytes) (m : Machine) : Machine :=
  if i = 1 then { m with host := { m.host with printed := b :: m.host.printed } }
  else if i = 2 then { m with host := { m.host with complaints := b :: m.host.complaints } }
  else
    let f := putBytes (fileOf i m) b
    { setFile i f m with host := { m.host with files := m.host.files.write f.path (.file f.content.toList) } }

/-- the place of the next line feed, or the end -/
def lineEnd (b : Bytes) (start : Nat) : Nat :=
  (Pattern.plainFrom b (ofText "\n") (b.size + 1) start).getD b.size

/-- reads from a file what a format says; nil at the end -/
def readOne (f : OpenFile) (format : Value) : Except String (Value × OpenFile) :=
  let rest := f.content.extract f.position f.content.size
  match format with
  | .text s =>
    match (byteChars s).dropWhile (· = '*') with
    | 'a' :: _ => .ok (.text rest, { f with position := f.content.size })
    | 'n' :: _ =>
      let cs := byteChars rest
      let blanks := (cs.takeWhile isSpace).length
      let numeral := (cs.drop blanks).takeWhile fun c => c.isAlphanum || c = '.' || c = '+' || c = '-'
      let f := { f with position := f.position + blanks + numeral.length }
      .ok (((readNumber? numeral).map Number.value).getD .nil, f)
    | c :: _ =>
      if c ≠ 'l' && c ≠ 'L' then .error "bad argument #1 to 'read' (invalid format)"
      else if f.position ≥ f.content.size then .ok (.nil, f)
      else
        let stop := lineEnd f.content f.position
        let after := min (stop + 1) f.content.size
        .ok (.text (f.content.extract f.position (if c = 'L' then after else stop)), { f with position := after })
    | [] => .error "bad argument #1 to 'read' (invalid format)"
  | v =>
    match v.asInt? with
    | some n =>
      if f.position ≥ f.content.size && (n > 0 || f.content.size ≤ f.position) then .ok (.nil, f)
      else
        let stop := min (f.position + n.toInt.toNat) f.content.size
        .ok (.text (f.content.extract f.position stop), { f with position := stop })
    | none => .error "bad argument #1 to 'read' (invalid format)"

/-- reads according to formats, up to the first that gives nil -/
def readAll (f : OpenFile) : List Value → Except String (List Value × OpenFile)
  | [] => .ok ([], f)
  | format :: rest => do
    let (v, f) ← readOne f format
    if v.isNil then return ([v], f)
    let (more, f) ← readAll f rest
    return (v :: more, f)

def readFormats (formats : List Value) : List Value := if formats.isEmpty then [.ofString "l"] else formats

/-- reads from file number `i` -/
def readFile (site : Option Site) (i : Nat) (formats : List Value) (m : Machine) : Machine :=
  let f := fileOf i m
  if f.closed then m.fail site "file is already closed"
  else
    match readAll f (readFormats formats) with
    | .error e => m.fail site e
    | .ok (values, f) => (setFile i f m).give values

/-- writes values to file number `i` and gives the file back -/
def writeValues (a : Arguments) (i first : Nat) : Action := do
  let pieces ← ((List.range a.values.size).drop first).mapM a.text
  return fun m =>
    if (fileOf i m).closed then m.fail a.site "attempt to use a closed file"
    else if i > 2 && !(fileOf i m).writes then m.give [.nil, .ofString "Bad file descriptor", .int 9]
    else (pieces.foldl (fun m b => writeBytes i b m) m).give1 (.file i)

def closeFile (i : Nat) (m : Machine) : Machine := (setFile i { fileOf i m with closed := true } m).giveBool true

/-- the function that reads a file piece by piece -/
def linesOf (i : Nat) (formats : List Value) (m : Machine) : Machine :=
  let (b, m) := m.newBound ⟨"lines", (Value.file i :: formats).toArray⟩
  m.give1 (.bound b)

/-- a step of the function that reads a file piece by piece -/
def stepLines (i : Nat) (site : Option Site) (m : Machine) : Machine :=
  match (m.bounds.getD i default).values.toList with
  | .file f :: formats => readFile site f formats m
  | _ => m.give1 .nil

def seekFile (a : Arguments) (i : Nat) : Action := do
  let whence := pathText (← a.textOr 1 "cur")
  let offset ← a.intOr 2 0
  return fun m =>
    let f := fileOf i m
    let base : Int := match whence with
      | "set" => 0
      | "end" => f.content.size
      | _ => f.position
    let place := base + offset
    if place < 0 then m.give [.nil, .ofString "Invalid argument", .int 22]
    else (setFile i { f with position := place.toNat } m).giveInt place

def fileNames : List String := ["close", "flush", "lines", "read", "seek", "setvbuf", "write"]

def ioNames : List String :=
  ["close", "input", "lines", "open", "output", "popen", "read", "tmpfile", "type", "write"]

/-- the number of the file that is an argument -/
def fileArgument (a : Arguments) (i : Nat) : Except String Nat :=
  match a.get i with
  | .file n => .ok n
  | _ => a.wrongType i "FILE*"

def openAction (a : Arguments) : Action := do
  let path := pathText (← a.text 0)
  let mode := byteChars (← a.textOr 1 "r")
  let bare := mode.filter (· ≠ 'b')
  if !([['r'], ['w'], ['a'], ['r', '+'], ['w', '+'], ['a', '+']].contains bare) then a.fault 1 "invalid mode"
  return fun m =>
    match openFile path bare m with
    | .ok (f, m) => m.give1 f
    | .error e => m.give (faultValues path e)

def ioLibrary? (a : Arguments) : Option Action :=
  match a.name with
  | "io.open" => some (openAction a)
  | "io.lines" => some do
    if (a.get 0).isNil then return linesOf 0 []
    let path := pathText (← a.text 0)
    return fun m =>
      match openFile path ['r'] m with
      | .ok (.file i, m) => linesOf i (a.values.toList.drop 1) m
      | .ok (_, m) => m.give1 .nil
      | .error e => m.fail a.site (path ++ ": " ++ (faultParts e).1)
  | "io.write" => some (writeValues a 1 0)
  | "io.read" => some (.ok (readFile a.site 0 a.values.toList))
  | "io.close" => some (.ok (closeFile (match a.get 0 with
      | .file i => i
      | _ => 1)))
  | "io.input" => some (.ok (Machine.give1 (.file 0)))
  | "io.output" => some (.ok (Machine.give1 (.file 1)))
  | "io.popen" => some (.error "'popen' not supported")
  | "io.tmpfile" => some (Action.give [.nil])
  | "io.type" => some do
    match ← a.any 0 with
    | .file i => return fun m => m.giveText (if (fileOf i m).closed then "closed file" else "file")
    | _ => Action.give [.nil]
  | "file.close" => some do return closeFile (← fileArgument a 0)
  | "file.flush" => some do Action.give [.file (← fileArgument a 0)]
  | "file.setvbuf" => some (Action.bool true)
  | "file.lines" => some do return linesOf (← fileArgument a 0) (a.values.toList.drop 1)
  | "file.read" => some do return readFile a.site (← fileArgument a 0) (a.values.toList.drop 1)
  | "file.seek" => some do seekFile a (← fileArgument a 0)
  | "file.write" => some do writeValues a (← fileArgument a 0) 1
  | _ => none

/-! ## Dates -/

/-- the days from the epoch to a date -/
def daysOf (year month day : Int) : Int :=
  let y := if month ≤ 2 then year - 1 else year
  let era := Int.fdiv y 400
  let yearOfEra := y - era * 400
  let m := Int.fmod (month + 9) 12
  let dayOfYear := Int.fdiv (153 * m + 2) 5 + day - 1
  era * 146097 + (yearOfEra * 365 + Int.fdiv yearOfEra 4 - Int.fdiv yearOfEra 100 + dayOfYear) - 719468

structure Date where
  year : Int
  month : Int
  day : Int
  hour : Int
  minute : Int
  second : Int
  weekday : Int
  dayOfYear : Int

/-- the date of a number of seconds since the epoch -/
def dateOf (time : Int) : Date :=
  let days := Int.fdiv time 86400
  let rest := Int.fmod time 86400
  let z := days + 719468
  let era := Int.fdiv z 146097
  let doe := z - era * 146097
  let yoe := Int.fdiv (doe - Int.fdiv doe 1460 + Int.fdiv doe 36524 - Int.fdiv doe 146096) 365
  let doy := doe - (365 * yoe + Int.fdiv yoe 4 - Int.fdiv yoe 100)
  let mp := Int.fdiv (5 * doy + 2) 153
  let day := doy - Int.fdiv (153 * mp + 2) 5 + 1
  let month := if mp < 10 then mp + 3 else mp - 9
  let year := yoe + era * 400 + (if month ≤ 2 then 1 else 0)
  { year, month, day,
    hour := Int.fdiv rest 3600, minute := Int.fdiv (Int.fmod rest 3600) 60, second := Int.fmod rest 60,
    weekday := Int.fmod (days + 4) 7, dayOfYear := days - daysOf year 1 1 }

def dayNames : List String := ["Sunday", "Monday", "Tuesday", "Wednesday", "Thursday", "Friday", "Saturday"]

def monthNames : List String :=
  ["January", "February", "March", "April", "May", "June", "July", "August", "September", "October", "November",
   "December"]

def padded (width : Nat) (n : Int) : String :=
  let digits := toString n
  String.ofList (List.replicate (width - digits.length) '0') ++ digits

def dateDirective? (d : Date) (c : Char) : Option String :=
  let dayName := dayNames.getD d.weekday.toNat ""
  let monthName := monthNames.getD (d.month - 1).toNat ""
  let cut (s : String) : String := String.ofList (s.toList.take 3)
  let day := padded 2 d.month ++ "/" ++ padded 2 d.day ++ "/" ++ padded 2 (Int.fmod d.year 100)
  let clock := padded 2 d.hour ++ ":" ++ padded 2 d.minute ++ ":" ++ padded 2 d.second
  match c with
  | 'a' => some (cut dayName)
  | 'A' => some dayName
  | 'b' => some (cut monthName)
  | 'B' => some monthName
  | 'c' =>
    let dayText := (if d.day < 10 then " " else "") ++ toString d.day
    some (cut dayName ++ " " ++ cut monthName ++ " " ++ dayText ++ " " ++ clock ++ " " ++ toString d.year)
  | 'd' => some (padded 2 d.day)
  | 'D' => some day
  | 'F' => some (toString d.year ++ "-" ++ padded 2 d.month ++ "-" ++ padded 2 d.day)
  | 'H' => some (padded 2 d.hour)
  | 'I' => some (padded 2 (Int.fmod (d.hour + 11) 12 + 1))
  | 'j' => some (padded 3 (d.dayOfYear + 1))
  | 'm' => some (padded 2 d.month)
  | 'M' => some (padded 2 d.minute)
  | 'n' => some "\n"
  | 'p' => some (if d.hour < 12 then "AM" else "PM")
  | 'R' => some (padded 2 d.hour ++ ":" ++ padded 2 d.minute)
  | 'S' => some (padded 2 d.second)
  | 't' => some "\t"
  | 'T' => some clock
  | 'w' => some (toString d.weekday)
  | 'x' => some day
  | 'X' => some clock
  | 'y' => some (padded 2 (Int.fmod d.year 100))
  | 'Y' => some (toString d.year)
  | 'z' => some "+0000"
  | 'Z' => some "UTC"
  | '%' => some "%"
  | _ => none

def dateText (d : Date) : List Char → Except String String
  | '%' :: c :: rest =>
    match dateDirective? d c with
    | some s => do return s ++ (← dateText d rest)
    | none => .error "invalid conversion specifier"
  | ['%'] => .error "invalid conversion specifier"
  | c :: rest => do return String.singleton c ++ (← dateText d rest)
  | [] => .ok ""

def dateTable (d : Date) : Table :=
  let fields : List (String × Int) := [("year", d.year), ("month", d.month), ("day", d.day), ("hour", d.hour),
    ("min", d.minute), ("sec", d.second), ("wday", d.weekday + 1), ("yday", d.dayOfYear + 1)]
  let t := fields.foldl (fun (t : Table) (name, n) => t.setText name (.int (.ofInt n))) {}
  t.setText "isdst" (.bool false)

/-! ## The system -/

def osNames : List String :=
  ["clock", "date", "difftime", "execute", "exit", "getenv", "remove", "rename", "setlocale", "time", "tmpname"]

/-- the time that a table of its parts means -/
def timeAction (a : Arguments) : Action := do
  if (a.get 0).isNil then Action.int 0
  else
    let t ← a.table 0
    return fun m =>
      let part (name : String) (default : Option Int) : Except String Int :=
        match ((m.table t).getText name).asInt?, default with
        | some i, _ => .ok i.toInt
        | none, some d => .ok d
        | none, none => .error ("field '" ++ name ++ "' missing in date table")
      Action.perform a.site (do
        let year ← part "year" none
        let month ← part "month" none
        let day ← part "day" none
        let hour ← part "hour" (some 12)
        let minute ← part "min" (some 0)
        let second ← part "sec" (some 0)
        let months := month - 1
        let days := daysOf (year + Int.fdiv months 12) (Int.fmod months 12 + 1) 1 + day - 1
        Action.int (days * 86400 + hour * 3600 + minute * 60 + second)) m

def osLibrary? (a : Arguments) : Option Action :=
  match a.name with
  | "os.clock" => some (Action.give [.float 0.0])
  | "os.date" => some do
    let format := byteChars (← a.textOr 0 "%c")
    let d := dateOf (← a.intOr 1 0)
    let format := if format.head? = some '!' then format.drop 1 else format
    if format.take 2 = ['*', 't'] then
      return fun m =>
        let (i, m) := m.newTable (dateTable d)
        m.give1 (.table i)
    else Action.text (ofText (← dateText d format))
  | "os.difftime" => some do Action.give [.float ((← a.float 0) - (← a.float 1))]
  | "os.execute" => some (Action.give [.nil])
  | "os.exit" => some (.error "exit")
  | "os.getenv" => some do
    let name := pathText (← a.text 0)
    return fun m => m.give1 (((m.host.env.get? name).map Value.ofString).getD .nil)
  | "os.remove" => some do
    let path := pathText (← a.text 0)
    return fun m =>
      match m.host.files.resolve false path with
      | .error e => m.give (faultValues path e)
      | .ok place => { m with host := { m.host with files := m.host.files.remove place } }.giveBool true
  | "os.rename" => some do
    let source := pathText (← a.text 0)
    let target := pathText (← a.text 1)
    return fun m =>
      match m.host.files.resolve false source, m.host.files.lookupEntry source with
      | .ok place, .ok node =>
        { m with host := { m.host with files := (m.host.files.remove place).write target node } }.giveBool true
      | .error e, _ => m.give (faultValues source e)
      | _, .error e => m.give (faultValues source e)
  | "os.setlocale" => some (Action.text (ofText "C"))
  | "os.time" => some (timeAction a)
  | "os.tmpname" => some (Action.text (ofText "/tmp/lua_000000"))
  | _ => none

end Gleaner.Lua.Library
