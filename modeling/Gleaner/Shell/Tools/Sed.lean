/-
The editor of streams: a program of commands that is run for each line, on the line and on a text that is held.

Blocks are laid out as jumps over the commands in them.
-/
import Gleaner.Shell.PosixRegex
import Gleaner.Shell.Tools.Lines

namespace Gleaner.Shell.Tools.Sed

/-! ## Programs -/

inductive Address where
  | line (n : Nat)
  | step (first by_ : Nat)
  | last
  /-- the latest expression if there is none -/
  | regex (r : Option (List Regex)) (fold : Bool)
  /-- so many lines behind the first -/
  | plus (n : Nat)

structure Substitution where
  regex : Option (List Regex)
  fold : Bool := false
  replacement : List Char
  global : Bool := false
  number : Nat := 1
  print : Bool := false

inductive Action where
  | open_
  | close
  | substitute (s : Substitution)
  | translate (pairs : List (Char × Char))
  | append (text : String)
  | insert (text : String)
  | change (text : String)
  | jump (label : String)
  | jumpIf (substituted : Bool) (label : String)
  | label (name : String)
  | quit (print : Bool) (status : Nat)
  /-- a command of one letter -/
  | letter (c : Char)

structure Instruction where
  first : Option Address := none
  second : Option Address := none
  negated : Bool := false
  action : Action

/-! ## Reading programs -/

abbrev Read := StateT (List Char) (Except String)

def skipBlanks : Read Unit := modify (·.dropWhile fun c => c = ' ' || c = '\t')

/-- the text up to a character that is not escaped; escapes are kept, but for that of the character itself -/
def upTo (stop : Char) : Nat → (inSet : Bool) → List Char → List Char → Except String (List Char × List Char)
  | 0, _, _, _ => .error "unterminated command"
  | fuel + 1, inSet, acc, cs =>
    match cs with
    | [] => .error "unterminated command"
    | '\\' :: c :: rest =>
      if c = stop && !inSet then upTo stop fuel inSet (if stop.isAlphanum || "/,|:#@!~%;_= ".toList.contains stop
        then c :: acc else c :: '\\' :: acc) rest
      else upTo stop fuel inSet (c :: '\\' :: acc) rest
    | c :: rest =>
      if c = stop && !inSet then .ok (acc.reverse, rest)
      else if c = '[' && !inSet then upTo stop fuel true (c :: acc) rest
      else if c = ']' && inSet then upTo stop fuel false (c :: acc) rest
      else upTo stop fuel inSet (c :: acc) rest

def delimited (stop : Char) : Read (List Char) := do
  let cs ← get
  -- a bracket that is not closed is an ordinary character
  let found := match upTo stop (cs.length + 1) false [] cs with
    | .ok r => some r
    | .error _ => none
  match found with
  | some (text, rest) =>
    set rest
    return text
  | none => throw "unterminated 's' command"

def readRegex (extended : Bool) (text : List Char) : Except String (Option (List Regex)) :=
  if text.isEmpty then .ok none else (Regex.parse extended text).map some

def number : Read (Option Nat) := do
  let digits := (← get).takeWhile Char.isDigit
  modify (·.drop digits.length)
  return (String.ofList digits).toNat?

def address? (extended second : Bool) : Read (Option Address) := do
  match ← get with
  | '$' :: rest => set rest; return some .last
  | '/' :: rest =>
    set rest
    let text ← delimited '/'
    let fold := (← get).head? = some 'I'
    if fold then modify (·.drop 1)
    return some (.regex (← readRegex extended text) fold)
  | '\\' :: c :: rest =>
    set rest
    let text ← delimited c
    return some (.regex (← readRegex extended text) false)
  | '+' :: rest =>
    if second then
      set rest
      return some (.plus ((← number).getD 0))
    else return none
  | c :: _ =>
    if c.isDigit then
      let n := (← number).getD 0
      match ← get with
      | '~' :: rest =>
        set rest
        return some (.step n ((← number).getD 0))
      | _ => return some (.line n)
    else return none
  | [] => return none

/-- the text of a command that takes the rest of the lines -/
def blockText : Read String := do
  skipBlanks
  match ← get with
  | '\\' :: rest =>
    set (match rest.dropWhile fun c => c = ' ' || c = '\t' with
      | '\n' :: after => after
      | after => after)
  | _ => pure ()
  let rec go : Nat → List Char → List Char → List Char × List Char
    | 0, acc, cs => (acc.reverse, cs)
    | fuel + 1, acc, cs =>
      match cs with
      | [] => (acc.reverse, [])
      | '\\' :: c :: rest => go fuel (c :: acc) rest
      | '\n' :: rest => (acc.reverse, rest)
      | c :: rest => go fuel (c :: acc) rest
  let cs ← get
  let (text, rest) := go (cs.length + 1) [] cs
  set rest
  return String.ofList text ++ "\n"

def labelName : Read String := do
  skipBlanks
  let name := (← get).takeWhile fun c => c ≠ '\n' && c ≠ ';' && c ≠ '\x7d'
  modify (·.drop name.length)
  return String.ofList ((name.reverse.dropWhile fun c => c = ' ' || c = '\t').reverse)

/-- the flags behind a substitution -/
def flags : Nat → Substitution → Read Substitution
  | 0, s => return s
  | fuel + 1, s => do
    match ← get with
    | 'g' :: rest => set rest; flags fuel { s with global := true }
    | 'p' :: rest => set rest; flags fuel { s with print := true }
    | 'i' :: rest => set rest; flags fuel { s with fold := true }
    | 'I' :: rest => set rest; flags fuel { s with fold := true }
    | c :: _ =>
      if c.isDigit then
        let n := (← number).getD 1
        flags fuel { s with number := n }
      else return s
    | [] => return s

/-- the characters of a translation -/
def plainChars : List Char → List Char
  | '\\' :: 'n' :: rest => '\n' :: plainChars rest
  | '\\' :: 't' :: rest => '\t' :: plainChars rest
  | '\\' :: c :: rest => c :: plainChars rest
  | c :: rest => c :: plainChars rest
  | [] => []

def action (extended : Bool) : Read Action := do
  match ← get with
  | [] => throw "missing command"
  | c :: rest =>
    set rest
    match c with
    | '\x7b' => return .open_
    | '\x7d' => return .close
    | 's' =>
      match ← get with
      | d :: rest =>
        set rest
        let text ← delimited d
        -- brackets mean nothing in the replacement
        let cs ← get
        let rec go : Nat → List Char → List Char → Option (List Char × List Char)
          | 0, _, _ => none
          | fuel + 1, acc, cs =>
            match cs with
            | [] => none
            | '\\' :: e :: rest => go fuel (if e = d then e :: acc else e :: '\\' :: acc) rest
            | e :: rest => if e = d then some (acc.reverse, rest) else go fuel (e :: acc) rest
        match go (cs.length + 1) [] cs with
        | none => throw "unterminated 's' command"
        | some (replacement, rest) =>
          set rest
          let r ← readRegex extended text
          return .substitute (← flags 100 { regex := r, replacement := replacement })
      | [] => throw "unterminated 's' command"
    | 'y' =>
      match ← get with
      | d :: rest =>
        set rest
        let a := plainChars (← delimited d)
        let b := plainChars (← delimited d)
        if a.length ≠ b.length then throw "strings for 'y' command are different lengths"
        return .translate (a.zip b)
      | [] => throw "unterminated 'y' command"
    | 'a' => return .append (← blockText)
    | 'i' => return .insert (← blockText)
    | 'c' => return .change (← blockText)
    | ':' => return .label (← labelName)
    | 'b' => return .jump (← labelName)
    | 't' => return .jumpIf true (← labelName)
    | 'T' => return .jumpIf false (← labelName)
    | 'q' => skipBlanks; return .quit true ((← number).getD 0)
    | 'Q' => skipBlanks; return .quit false ((← number).getD 0)
    | c =>
      if "dDgGhHlnNpPxz=".toList.contains c then return .letter c
      else throw ("unknown command: '" ++ String.singleton c ++ "'")

def instructions (extended : Bool) : Nat → Read (List Instruction)
  | 0 => return []
  | fuel + 1 => do
    modify (·.dropWhile fun c => c = ' ' || c = '\t' || c = '\n' || c = ';')
    match ← get with
    | [] => return []
    | '#' :: rest =>
      set (rest.dropWhile (· ≠ '\n'))
      instructions extended fuel
    | _ =>
      let first ← address? extended false
      skipBlanks
      let second ← match first, ← get with
        | some _, ',' :: rest => do
          set rest
          skipBlanks
          match ← address? extended true with
          | some a => pure (some a)
          | none => throw "unexpected ','"
        | _, _ => pure none
      skipBlanks
      let negated := (← get).head? = some '!'
      modify (·.dropWhile fun c => c = '!' || c = ' ')
      let act ← action extended
      skipBlanks
      match act, ← get with
      | .open_, _ => pure ()
      | .append _, _ => pure ()
      | .insert _, _ => pure ()
      | .change _, _ => pure ()
      | _, [] => pure ()
      | _, c :: _ =>
        if c ≠ '\n' && c ≠ ';' && c ≠ '\x7d' && c ≠ '#' then throw "extra characters after command"
      return { first, second, negated, action := act } :: (← instructions extended fuel)

/-! ## Running programs -/

structure State where
  space : List Char
  held : List Char := []
  lineNumber : Nat := 0
  rest : List String
  /-- whether the last line of the input ends with a line feed -/
  ended : Bool
  out : List String := []
  /-- texts to be written at the end of the round -/
  after : List String := []
  /-- for each instruction that is within its range, the line it ends at if that is known -/
  active : List (Nat × Option Nat) := []
  substituted : Bool := false
  latest : Option (List Regex) := none
  /-- the status that the run ends with -/
  finished : Option Nat := none

namespace State

def isLast (s : State) : Bool := s.rest.isEmpty

def write (text : String) (s : State) : State := { s with out := text :: s.out }

/-- writes a line; the last one ends as the input did -/
def writeLine (text : List Char) (s : State) : State :=
  s.write (String.ofList text ++ if s.isLast && !s.ended then "" else "\n")

def flush (s : State) : State := { s.after.foldl (fun s t => s.write t) s with after := [] }

end State

def Address.holds (a : Address) (s : State) : Bool :=
  match a with
  | .line n => s.lineNumber = n
  | .step first by_ =>
    if by_ = 0 then s.lineNumber = first else s.lineNumber ≥ first && (s.lineNumber - first) % by_ = 0
  | .last => s.isLast
  | .regex r fold => (r <|> s.latest).any fun r => Regex.isMatch r fold s.space
  | .plus _ => false

/-- whether an instruction is to be carried out -/
def selects (index : Nat) (i : Instruction) (s : State) : Bool × State :=
  let (yes, s) := match i.first, i.second with
    | none, _ => (true, s)
    | some a, none => (a.holds s, s)
    | some a, some b =>
      let leave (s : State) : State := { s with active := s.active.filter (·.1 ≠ index) }
      match s.active.find? (·.1 = index) with
      | some (_, some last) =>
        if s.lineNumber ≥ last then (s.lineNumber = last, leave s) else (true, s)
      | some (_, none) => (true, if b.holds s then leave s else s)
      | none =>
        let zero : Bool := match a with
          | .line 0 => s.lineNumber = 1
          | _ => false
        if zero then
          (true, if b.holds s then s else { s with active := (index, none) :: s.active })
        else if !a.holds s then (false, s)
        else
          match b with
          | .line n => (true, if n > s.lineNumber then { s with active := (index, some n) :: s.active } else s)
          | .plus n => (true, if n > 0 then { s with active := (index, some (s.lineNumber + n)) :: s.active } else s)
          | .last => (true, if s.isLast then s else { s with active := (index, none) :: s.active })
          | _ => (true, { s with active := (index, none) :: s.active })
  (yes != i.negated, s)

/-- changes of the case of what follows in a replacement -/
structure Casing where
  whole : Option Bool := none
  next : Option Bool := none

def applyCase (k : Casing) (cs : List Char) : List Char × Casing :=
  let turn (upper : Option Bool) (c : Char) : Char := match upper with
    | some true => c.toUpper
    | some false => c.toLower
    | none => c
  match cs with
  | [] => ([], k)
  | c :: rest => (turn (k.next <|> k.whole) c :: rest.map (turn k.whole), { k with next := none })

/-- fills in a replacement -/
def fill (text : Array Char) (groups : Regex.Groups) : Casing → List Char → List Char
  | _, [] => []
  | k, '\\' :: c :: rest =>
    let put (cs : List Char) : List Char :=
      let (cs, k) := applyCase k cs
      cs ++ fill text groups k rest
    match c with
    | 'n' => put ['\n']
    | 't' => put ['\t']
    | 'U' => fill text groups { whole := some true } rest
    | 'L' => fill text groups { whole := some false } rest
    | 'E' => fill text groups {} rest
    | 'u' => fill text groups { k with next := some true } rest
    | 'l' => fill text groups { k with next := some false } rest
    | c => if c.isDigit then put (Regex.groupText text groups (c.toNat - 48)) else put [c]
  | k, '&' :: rest =>
    let (cs, k) := applyCase k (Regex.groupText text groups 0)
    cs ++ fill text groups k rest
  | k, c :: rest =>
    let (cs, k) := applyCase k [c]
    cs ++ fill text groups k rest

/-- replaces matches from a place on; `count` of them have been passed -/
def replaceFrom (p : Substitution) (r : List Regex) (cs : List Char) (text : Array Char) :
    Nat → (count start : Nat) → (ended : Option Nat) → List Char × Bool
  | 0, _, start, _ => (cs.drop start, false)
  | fuel + 1, count, start, ended =>
    match Regex.find r p.fold cs start with
    | none => (cs.drop start, false)
    | some groups =>
      let (lo, hi) := Regex.span groups 0
      let before := (text.extract start lo).toList
      if lo = hi && ended = some lo then
        if lo < text.size then
          let (rest, done) := replaceFrom p r cs text fuel count (lo + 1) none
          (before ++ (text.extract lo (lo + 1)).toList ++ rest, done)
        else (before, false)
      else
        let hit := count + 1 = p.number || (p.global && count + 1 ≥ p.number)
        let here := if hit then fill text groups {} p.replacement else (text.extract lo hi).toList
        if hit && !p.global then (before ++ here ++ cs.drop hi, true)
        else if lo = hi then
          if lo < text.size then
            let (rest, done) := replaceFrom p r cs text fuel (count + 1) (lo + 1) none
            (before ++ here ++ (text.extract lo (lo + 1)).toList ++ rest, done || hit)
          else (before ++ here, hit)
        else
          let (rest, done) := replaceFrom p r cs text fuel (count + 1) hi (some hi)
          (before ++ here ++ rest, done || hit)

def substitute (p : Substitution) (s : State) : State :=
  match p.regex <|> s.latest with
  | none => s
  | some r =>
    let (space, done) := replaceFrom p r s.space s.space.toArray (s.space.length + 2) 0 0 none
    let s := { s with latest := some r }
    if !done then s
    else
      let s := { s with space := space, substituted := true }
      if p.print then s.writeLine s.space else s

/-- the place behind the end of a block -/
def skipBlock (program : Array Instruction) : Nat → (depth i : Nat) → Nat
  | 0, _, i => i
  | fuel + 1, depth, i =>
    match program[i]? with
    | none => i
    | some ins =>
      match ins.action with
      | .open_ => skipBlock program fuel (depth + 1) (i + 1)
      | .close => if depth = 0 then i + 1 else skipBlock program fuel (depth - 1) (i + 1)
      | _ => skipBlock program fuel depth (i + 1)

def findLabel (program : Array Instruction) (name : String) : Nat :=
  if name.isEmpty then program.size
  else
    (program.findIdx? fun i =>
      match i.action with
      | .label n => n == name
      | _ => false).getD program.size

/-- takes the next line of the input; none at its end -/
def nextLine (s : State) : Option (String × State) :=
  match s.rest with
  | l :: rest => some (l, { s with rest := rest, lineNumber := s.lineNumber + 1 })
  | [] => none

/-- a line as it can be read without doubt -/
def visible (cs : List Char) : String :=
  String.join (cs.map fun c =>
    match c with
    | '\\' => "\\\\"
    | '\t' => "\\t"
    | '\n' => "\\n"
    | c =>
      if 32 ≤ c.toNat && c.toNat < 127 then String.singleton c
      else
        let digits := Nat.toDigits 8 c.toNat
        "\\" ++ String.ofList (List.replicate (3 - digits.length) '0' ++ digits)) ++ "$\n"

/-- how a round goes on -/
inductive Next where
  | go (i : Nat)
  | endRound
  /-- ends the round without writing the line -/
  | drop
  /-- starts the round again without reading a line -/
  | restart

def carryOut (program : Array Instruction) (quiet : Bool) (i : Nat) (a : Action) (s : State) : Next × State :=
  let go (s : State) : Next × State := (.go (i + 1), s)
  match a with
  | .open_ => go s
  | .close => go s
  | .label _ => go s
  | .substitute p => go (substitute p s)
  | .translate pairs =>
    go { s with space := s.space.map fun c => ((pairs.find? (·.1 = c)).map (·.2)).getD c }
  | .append t => go { s with after := s.after ++ [t] }
  | .insert t => go (s.write t)
  | .change t =>
    let inside := s.active.any (·.1 = i)
    (.drop, if inside then s else s.write t)
  | .jump l => (.go (findLabel program l), s)
  | .jumpIf on l =>
    if s.substituted = on then (.go (findLabel program l), { s with substituted := false })
    else go { s with substituted := false }
  | .quit print status =>
    (if print then .endRound else .drop, { s with finished := some status })
  | .letter c =>
    match c with
    | 'd' => (.drop, s)
    | 'D' =>
      match s.space.span (· ≠ '\n') with
      | (_, '\n' :: rest) => (.restart, { s with space := rest })
      | _ => (.drop, s)
    | 'p' => go (s.writeLine s.space)
    | 'P' => go (s.write (String.ofList (s.space.takeWhile (· ≠ '\n')) ++ "\n"))
    | 'h' => go { s with held := s.space }
    | 'H' => go { s with held := s.held ++ '\n' :: s.space }
    | 'g' => go { s with space := s.held }
    | 'G' => go { s with space := s.space ++ '\n' :: s.held }
    | 'x' => go { s with space := s.held, held := s.space }
    | 'z' => go { s with space := [] }
    | '=' => go (s.write (toString s.lineNumber ++ "\n"))
    | 'l' => go (s.write (visible s.space))
    | 'n' =>
      let s := if quiet then s else s.writeLine s.space
      match nextLine s.flush with
      | some (l, s) => go { s with space := l.toList }
      | none => (.drop, { s with finished := some 0 })
    | 'N' =>
      match nextLine s with
      | some (l, s) => go { s.flush with space := s.space ++ '\n' :: l.toList }
      | none => (.endRound, { s with finished := some 0 })
    | _ => go s

/-- carries the program out on a line -/
def round (program : Array Instruction) (quiet : Bool) : Nat → Nat → State → State
  | 0, _, s => { s with finished := some 1 }
  | fuel + 1, i, s =>
    let finish (s : State) : State := (if quiet then s else s.writeLine s.space).flush
    match program[i]? with
    | none => finish s
    | some ins =>
      let (yes, s) := selects i ins s
      if !yes then
        match ins.action with
        | .open_ => round program quiet fuel (skipBlock program (program.size + 1) 0 (i + 1)) s
        | _ => round program quiet fuel (i + 1) s
      else
        match carryOut program quiet i ins.action s with
        | (.go j, s) => round program quiet fuel j s
        | (.endRound, s) => finish s
        | (.drop, s) => s.flush
        | (.restart, s) => round program quiet fuel 0 s

def rounds (program : Array Instruction) (quiet : Bool) : Nat → State → State
  | 0, s => s
  | fuel + 1, s =>
    if s.finished.isSome then s
    else
      match nextLine s with
      | none => s
      | some (l, s) =>
        rounds program quiet fuel (round program quiet 100000 0 { s with space := l.toList, substituted := false })

/-- edits a text -/
def edit (program : Array Instruction) (quiet : Bool) (text : String) : String × Nat :=
  let (lines, ended) := linesOf text
  let s := rounds program quiet (lines.length + 1) { space := [], rest := lines, ended := ended }
  (String.join s.out.reverse, s.finished.getD 0)

/-- the options, the program and the other arguments of a call -/
def plan (g : Given) : Except String (Options × Array Instruction × List String) := do
  let o := options "ef" ["expression", "file"] g.args
  let given := o.values ["e", "expression"] ++
    (o.values ["f", "file"]).filterMap fun f => (g.read f).toOption
  let extended := o.has ["E", "r", "regexp-extended"]
  let (scripts, operands) := if given.isEmpty then (o.operands.take 1, o.operands.drop 1) else (given, o.operands)
  if scripts.isEmpty then throw "no script specified"
  let text := (String.intercalate "\n" scripts).toList
  let (program, _) ← (instructions extended (text.length + 1)).run text
  return (o, program.toArray, operands)

end Sed

def sed (g : Given) : Result :=
  match Sed.plan g with
  | .error e => g.refuse 1 ("-e expression #1, char 0: " ++ e)
  | .ok (o, program, operands) =>
    let i := inputs g operands
    let quiet := o.has ["n", "quiet", "silent"]
    let (out, status) := Sed.edit program quiet i.all
    i.result out status

end Gleaner.Shell.Tools
