/-
What words stand for.

A word is expanded to characters that remember whether they were quoted and whether they come from an expansion; then
it is split into fields where those from expansions separate it, names of files take the place of patterns, and the
quotes are gone. `run` runs a program whose output takes its place in a word.
-/
import Gleaner.Shell.Arithmetic
import Gleaner.Shell.State
import Gleaner.Shell.Tools.Words
import Gleaner.Shell.Wildcard

namespace Gleaner.Shell

inductive Item where
  | char (c : Char) (quoted expanded : Bool)
  /-- quotes, which make a field even if nothing is in them -/
  | quote
  /-- the end of a field that was one before -/
  | gap

/-- runs a program -/
abbrev Runner := List Char → Run Unit

namespace Expand

def asItems (quoted : Bool) (s : String) : List Item := s.toList.map fun c => .char c quoted (!quoted)

def literal (cs : List Char) : List Item := cs.map fun c => .char c true false

/-- the text of items, fields put together with blanks -/
def itemsText (items : List Item) : List Char :=
  items.flatMap fun
    | .char c _ _ => [c]
    | .quote => []
    | .gap => [' ']

/-- the characters of items as parts of a pattern -/
def marked (items : List Item) : List Marked :=
  items.flatMap fun
    | .char c quoted _ => [(c, quoted)]
    | .quote => []
    | .gap => [(' ', true)]

/-! ## Splitting -/

structure Splitter where
  done : List (List Marked) := []
  current : Option (List Marked) := none
  /-- blanks have just ended a field -/
  afterBlank : Bool := false

namespace Splitter

def finish (s : Splitter) : Splitter :=
  match s.current with
  | some f => { s with done := f.reverse :: s.done, current := none }
  | none => s

def step (ifs : List Char) (s : Splitter) (i : Item) : Splitter :=
  match i with
  | .quote => { s with current := some (s.current.getD []), afterBlank := false }
  | .gap => { s.finish with afterBlank := false }
  | .char c quoted expanded =>
    if expanded && !quoted && ifs.contains c then
      if c = ' ' || c = '\t' || c = '\n' then
        { s.finish with afterBlank := s.current.isSome || s.afterBlank }
      else if s.current.isSome then { s.finish with afterBlank := false }
      else if s.afterBlank then { s with afterBlank := false }
      else { s with done := [] :: s.done }
    else { s with current := some ((c, quoted) :: s.current.getD []), afterBlank := false }

end Splitter

/-- the fields of an expanded word -/
def fields (ifs : String) (items : List Item) : List (List Marked) :=
  (items.foldl (Splitter.step ifs.toList) {}).finish.done.reverse

def markedText (m : List Marked) : String := String.ofList (m.map (·.1))

/-! ## Braces -/

/-- the parts between commas outside of inner braces and quotes, up to the closing brace -/
def braceParts : Nat → (depth : Nat) → (current : List Char) → (done : List (List Char)) → List Char →
    Option (List (List Char) × List Char)
  | 0, _, _, _, _ => none
  | fuel + 1, depth, current, done, cs =>
    match cs with
    | [] => none
    | '\\' :: c :: rest => braceParts fuel depth (c :: '\\' :: current) done rest
    | '\'' :: rest =>
      match Parse.singleQuoted ('\'' :: current) rest with
      | .ok (current, rest) => braceParts fuel depth current done rest
      | .error _ => none
    | '"' :: rest =>
      match Parse.nested (rest.length + 1) .quote false ('"' :: current) rest with
      | .ok (current, rest) => braceParts fuel depth current done rest
      | .error _ => none
    | '$' :: '\x7b' :: rest =>
      match Parse.nested (rest.length + 1) .brace false ('\x7b' :: '$' :: current) rest with
      | .ok (current, rest) => braceParts fuel depth current done rest
      | .error _ => none
    | '$' :: '(' :: rest =>
      match Parse.nested (rest.length + 1) (.paren 1 0) true ('(' :: '$' :: current) rest with
      | .ok (current, rest) => braceParts fuel depth current done rest
      | .error _ => none
    | '\x7b' :: rest => braceParts fuel (depth + 1) ('\x7b' :: current) done rest
    | '\x7d' :: rest =>
      if depth = 0 then some ((current.reverse :: done).reverse, rest)
      else braceParts fuel (depth - 1) ('\x7d' :: current) done rest
    | ',' :: rest =>
      if depth = 0 then braceParts fuel depth [] (current.reverse :: done) rest
      else braceParts fuel depth (',' :: current) done rest
    | c :: rest => braceParts fuel depth (c :: current) done rest

/-- numbers or letters from one to another -/
def braceRange? (cs : List Char) : Option (List (List Char)) :=
  match (String.ofList cs).splitOn ".." with
  | a :: b :: more =>
    if more.length > 1 then none
    else
      let by_ : Nat := max 1 (((more.head?.bind String.toInt?).map Int.natAbs).getD 1)
      let walk (lo hi : Int) : List Int :=
        let n := (hi - lo).natAbs / by_
        (List.range (min n 100000 + 1)).map fun (k : Nat) => if lo ≤ hi then lo + k * by_ else lo - k * by_
      match a.toInt?, b.toInt? with
      | some x, some y =>
        let padded (s : String) : Bool := (s.toList.filter Char.isDigit).length > 1 &&
          (s.toList.filter Char.isDigit).head? = some '0'
        let width := if padded a || padded b then max a.length b.length else 0
        some ((walk x y).map fun (i : Int) =>
          let digits := (toString i.natAbs).toList
          let sign := if i < 0 then ['-'] else []
          sign ++ List.replicate (width - digits.length - sign.length) '0' ++ digits)
      | _, _ =>
        match a.toList, b.toList with
        | [x], [y] =>
          if x.isAlpha && y.isAlpha then
            some ((walk x.toNat y.toNat).map fun (i : Int) => [Char.ofNat i.toNat])
          else none
        | _, _ => none
  | _ => none

/-- the words that a word with braces stands for -/
def braces : Nat → List Char → List Char → List (List Char)
  | 0, acc, cs => [acc.reverse ++ cs]
  | fuel + 1, acc, cs =>
    let past (r : Parse.Part) : List (List Char) := match r with
      | .ok (acc, rest) => braces fuel acc rest
      | .error _ => [acc.reverse ++ cs]
    match cs with
    | [] => [acc.reverse]
    | '\\' :: c :: rest => braces fuel (c :: '\\' :: acc) rest
    | '\'' :: rest => past (Parse.singleQuoted ('\'' :: acc) rest)
    | '"' :: rest => past (Parse.nested (rest.length + 1) .quote false ('"' :: acc) rest)
    | '`' :: rest => past (Parse.backQuoted ('`' :: acc) rest)
    | '$' :: '\'' :: rest => past (Parse.dollarQuoted ('\'' :: '$' :: acc) rest)
    | '$' :: '\x7b' :: rest => past (Parse.nested (rest.length + 1) .brace false ('\x7b' :: '$' :: acc) rest)
    | '$' :: '(' :: rest => past (Parse.nested (rest.length + 1) (.paren 1 0) true ('(' :: '$' :: acc) rest)
    | '\x7b' :: rest =>
      match braceParts (rest.length + 1) 0 [] [] rest with
      | none => braces fuel ('\x7b' :: acc) rest
      | some (parts, after) =>
        let words := match parts with
          | [single] => braceRange? single
          | parts => some (parts.flatMap (braces fuel []))
        match words with
        | none => braces fuel ('\x7b' :: acc) rest
        | some words =>
          let tails := braces fuel [] after
          words.flatMap fun w => tails.map fun t => acc.reverse ++ w ++ t
    | c :: rest => braces fuel (c :: acc) rest

def braceExpand (w : Word) : List Word := if w.contains '\x7b' then braces (4 * w.length + 4) [] w else [w]

/-! ## Names of files -/

/-- the entries of a directory -/
def entriesOf (path : String) : Run (List String) := do
  match ← Run.lookup (← Run.placeOf path) with
  | .ok (.dir entries) => return entries.map fun (n, _) => ofText n
  | _ => return []

def fileExists (path : String) : Run Bool := do
  match ← Run.lookup (← Run.placeOf (ofText (toText path))) with
  | .ok _ => return true
  | .error _ => return false

def isDirectory (path : String) : Run Bool := do
  match ← Run.lookup (← Run.placeOf (ofText (toText path))) with
  | .ok (.dir _) => return true
  | _ => return false

/-- splits a pattern at slashes -/
def patternNames (m : List Marked) : List (List Marked) :=
  let (done, last) := m.foldl (fun (done, cur) c => if c.1 = '/' then (cur.reverse :: done, []) else (done, c :: cur))
    (([] : List (List Marked)), ([] : List Marked))
  (last.reverse :: done).reverse

/-- the paths that go on from some paths along a pattern -/
def followNames (settings : Settings) : List (List Marked) → List String → Run (List String)
  | [], paths => return paths
  | name :: rest, paths => do
    let last := rest.isEmpty
    if !isWild name then
      let paths := paths.map fun p => p ++ markedText name ++ (if last then "" else "/")
      if last then followNames settings rest (← paths.filterM fileExists) else followNames settings rest paths
    else
      let wild := wildOf settings.extglob name
      let hidden := name.head?.any (·.1 = '.') || settings.dotglob
      let found ← paths.mapM fun p => do
        let names ← entriesOf (if p.isEmpty then "." else p)
        let good := names.filter fun n => (hidden || !n.startsWith ".") && wildMatch settings.nocaseglob wild n.toList
        return (good.mergeSort fun a b => a ≤ b).map (p ++ ·)
      let found := found.flatten
      if last then followNames settings rest found
      else followNames settings rest ((← found.filterM isDirectory).map (· ++ "/"))

/-- the names of files that a field stands for, or the field itself -/
def pathnames (m : List Marked) : Run (List String) := do
  let settings := (← Run.scope).settings
  if settings.noglob || !isWild m then return [markedText m]
  let (absolute, names) := match patternNames m with
    | [] :: rest => (true, rest)
    | names => (false, names)
  let found ← followNames settings names [if absolute then "/" else ""]
  if found.isEmpty then return if settings.nullglob then [] else [markedText m] else return found

/-! ## Values of parameters -/

/-- what a parameter stands for; several values for an array or all arguments, which are put together with a star -/
structure Found where
  values : List String
  isSet : Bool
  many : Option Char := none

def special (name : String) : Run (Option Found) := do
  let s ← get
  let one (t : String) : Option Found := some ⟨[t], true, none⟩
  match name with
  | "@" => return some ⟨s.scope.args, !s.scope.args.isEmpty, some '@'⟩
  | "*" => return some ⟨s.scope.args, !s.scope.args.isEmpty, some '*'⟩
  | "#" => return one (toString s.scope.args.length)
  | "?" => return one (toString s.status)
  | "$" => return one "4242"
  | "!" => return if s.jobs.isEmpty then some ⟨[""], false, none⟩ else one (toString (4242 + s.jobs.length))
  | "-" => return one (if s.scope.settings.errexit then "ehB" else "hB")
  | "0" => return one s.scope.name
  | name =>
    match name.toNat? with
    | some n =>
      match s.scope.args[n - 1]? with
      | some a => return one a
      | none => return some ⟨[""], false, none⟩
    | none => return none

/-- variables that the shell keeps itself -/
def automatic (name : String) : Run (Option String) := do
  match name with
  | "RANDOM" =>
    let x := (← get).seed * 6364136223846793005 + 1442695040888963407
    modify fun s => { s with seed := x }
    return some (toString ((x.toNat / (1 <<< 33)) % 32768))
  | "SECONDS" => return some (toString ((← get).clock / 1000))
  | "LINENO" => return some "1"
  | "BASHPID" => return some "4242"
  | "PPID" => return some "4241"
  | "UID" => return some "0"
  | "EUID" => return some "0"
  | "BASH_SUBSHELL" => return some "0"
  | _ => return none

/-- the item of an array -/
def arrayItem (v : VarValue) (i : Int) : Option String :=
  match v with
  | .list items =>
    let i := if i < 0 then ((items.getLast?.map fun (k, _) => (k : Int) + 1).getD 0) + i else i
    (items.find? fun (k, _) => (k : Int) = i).map (·.2)
  | .text s => if i = 0 || i = -1 then some s else none
  | _ => none

def toCase (upper : Option Bool) (s : String) : String :=
  match upper with
  | some true => String.ofList (s.toList.map Char.toUpper)
  | some false => String.ofList (s.toList.map Char.toLower)
  | none => s

/-- the places of a part of a text: an offset, from the end if it is negative, and a length, which leaves as much at the
end if it is negative -/
def slice {α : Type} (xs : List α) (offset : Int) (length : Option Int) : List α :=
  let n : Int := xs.length
  let start := if offset < 0 then n + offset else offset
  if start < 0 || start > n then []
  else
    let rest := xs.drop start.toNat
    match length with
    | none => rest
    | some l => if l < 0 then rest.take (n + l - start).toNat else rest.take l.toNat

/-- the text without the shortest or longest part at an end that matches -/
def trimmed (fold atEnd longest : Bool) (p : List Wild) (s : String) : String :=
  let text := s.toList.toArray
  let n := text.size
  if atEnd then
    let starts := (List.range (n + 1)).filter fun i => (wildEnds fold p text i).contains n
    match if longest then starts.head? else starts.getLast? with
    | some i => String.ofList (text.extract 0 i).toList
    | none => s
  else
    let ends := wildEnds fold p text 0
    match if longest then ends.max? else ends.min? with
    | some i => String.ofList (text.extract i n).toList
    | none => s

/-- replaces matches of a pattern, the longest at each place -/
def replaceFrom (fold all : Bool) (p : List Wild) (with_ : List Char) (text : Array Char) : Nat → Nat → List Char
  | 0, i => (text.extract i text.size).toList
  | fuel + 1, i =>
    if i > text.size then []
    else
      match ((wildEnds fold p text i).filter (· > i)).max? with
      | some j =>
        if all then with_ ++ replaceFrom fold all p with_ text fuel j
        else with_ ++ (text.extract j text.size).toList
      | none =>
        match text[i]? with
        | some c => c :: replaceFrom fold all p with_ text fuel (i + 1)
        | none => []

def replaced (fold : Bool) (kind : Char) (p : List Wild) (with_ : List Char) (s : String) : String :=
  let text := s.toList.toArray
  match kind with
  | '#' =>
    match (wildEnds fold p text 0).max? with
    | some i => String.ofList (with_ ++ (text.extract i text.size).toList)
    | none => s
  | '%' =>
    match ((List.range (text.size + 1)).filter fun i => (wildEnds fold p text i).contains text.size).head? with
    | some i => String.ofList ((text.extract 0 i).toList ++ with_)
    | none => s
  | kind => String.ofList (replaceFrom fold (kind = '/') p with_ text (text.size + 2) 0)

/-- splits at the first character that stands outside of quotes and nested parts -/
def splitOutside (sep : Char) : Nat → List Char → List Char → List Char × Option (List Char)
  | 0, acc, cs => (acc.reverse ++ cs, none)
  | fuel + 1, acc, cs =>
    let past (r : Parse.Part) : List Char × Option (List Char) := match r with
      | .ok (acc, rest) => splitOutside sep fuel acc rest
      | .error _ => (acc.reverse ++ cs, none)
    match cs with
    | [] => (acc.reverse, none)
    | '\\' :: c :: rest => splitOutside sep fuel (c :: '\\' :: acc) rest
    | '\'' :: rest => past (Parse.singleQuoted ('\'' :: acc) rest)
    | '"' :: rest => past (Parse.nested (rest.length + 1) .quote false ('"' :: acc) rest)
    | '`' :: rest => past (Parse.backQuoted ('`' :: acc) rest)
    | '$' :: '\x7b' :: rest => past (Parse.nested (rest.length + 1) .brace false ('\x7b' :: '$' :: acc) rest)
    | '$' :: '(' :: rest => past (Parse.nested (rest.length + 1) (.paren 1 0) true ('(' :: '$' :: acc) rest)
    | c :: rest => if c = sep then (acc.reverse, some rest) else splitOutside sep fuel (c :: acc) rest

/-- the parts of a parameter in braces: marks in front of it, its name, the index and the operator with its argument -/
structure Braced where
  length : Bool := false
  indirect : Bool := false
  name : String
  index : Option (List Char) := none
  operator : List Char := []

def readBraced (cs : List Char) : Option Braced :=
  let parameter (cs : List Char) : Option (String × List Char) :=
    match cs with
    | [] => none
    | c :: rest =>
      if Parse.isNameStart c then
        let name := cs.takeWhile Parse.isNamePart
        some (String.ofList name, cs.drop name.length)
      else if c.isDigit then
        let name := cs.takeWhile Char.isDigit
        some (String.ofList name, cs.drop name.length)
      else if "@*#?$!-".toList.contains c then some (String.singleton c, rest)
      else none
  let withIndex (b : Braced) (rest : List Char) : Option Braced :=
    match rest with
    | '[' :: inside =>
      match Arith.brackets (inside.length + 1) 0 [] inside with
      | some (index, after) => some { b with index := some index, operator := after }
      | none => none
    | rest => some { b with operator := rest }
  match cs with
  | ['#'] => some { name := "#" }
  | '#' :: rest =>
    match parameter rest with
    | some (name, after) =>
      match withIndex { length := true, name := name } after with
      | some b => if b.operator.isEmpty then some b else (parameter cs).bind fun (n, r) => withIndex { name := n } r
      | none => none
    | none => (parameter cs).bind fun (n, r) => withIndex { name := n } r
  | '!' :: rest =>
    match rest, parameter rest with
    | [], _ => some { name := "!" }
    | _, some (name, after) => withIndex { indirect := true, name := name } after
    | _, none => (parameter cs).bind fun (n, r) => withIndex { name := n } r
  | cs => (parameter cs).bind fun (n, r) => withIndex { name := n } r

/-! ## Parts of words -/

/-- the home directory a tilde with a name stands for -/
def tilde (name : String) : Run (Option String) := do
  match name with
  | "" => return some ((← Run.text? "HOME").getD "/root")
  | "+" => Run.text? "PWD"
  | "-" => Run.text? "OLDPWD"
  | "root" => return some "/root"
  | _ => return none

/-- a program between backquotes without the backslashes that kept characters of it -/
def backText (double : Bool) : List Char → List Char
  | '\\' :: c :: rest =>
    if c = '\\' || c = '`' || c = '$' || (double && c = '"') then c :: backText double rest
    else '\\' :: c :: backText double rest
  | c :: rest => c :: backText double rest
  | [] => []

/-- replaces the escapes in quotes behind a dollar sign -/
def ansi : Nat → List Char → List Char
  | 0, cs => cs
  | _, [] => []
  | fuel + 1, '\\' :: rest =>
    match Tools.escape? false rest with
    | some (.ok (here, rest)) => here ++ ansi fuel rest
    | _ =>
      match rest with
      | '\'' :: rest => '\'' :: ansi fuel rest
      | '"' :: rest => '"' :: ansi fuel rest
      | '?' :: rest => '?' :: ansi fuel rest
      | 'c' :: c :: rest => Char.ofNat (c.toUpper.toNat % 32) :: ansi fuel rest
      | rest => '\\' :: ansi fuel rest
  | fuel + 1, c :: rest => c :: ansi fuel rest

/-- values as parts of a word -/
def valueItems (double : Bool) (many : Option Char) (values : List String) : Run (List Item) := do
  match many with
  | none => return asItems double (values.headD "")
  | some '*' =>
    if double then
      let sep := match (← Run.text? "IFS") with
        | none => " "
        | some ifs => String.ofList (ifs.toList.take 1)
      return asItems double (String.intercalate sep values)
    else return separate false values
  | some _ => return separate double values
where
  separate (double : Bool) (values : List String) : List Item :=
    values.zipIdx.flatMap fun (v, i) =>
      (if i = 0 then [] else [Item.gap]) ++ (if double then [.quote] else []) ++ asItems double v

/-- the names of variables that begin in some way -/
def prefixed (double : Bool) (many : Char) (start : String) : Run (List Item) := do
  let names := ((← Run.scope).vars.map (·.1)).filter (·.startsWith start)
  valueItems double (some many) (names.mergeSort fun a b => a ≤ b)

/-- a here document as it would be written between double quotes -/
def hereEscaped : Nat → List Char → List Char → List Char
  | 0, acc, cs => acc.reverse ++ cs
  | fuel + 1, acc, cs =>
    let past (r : Parse.Part) : List Char := match r with
      | .ok (acc, rest) => hereEscaped fuel acc rest
      | .error _ => acc.reverse ++ cs
    match cs with
    | [] => acc.reverse
    | '\\' :: '"' :: rest => hereEscaped fuel ('"' :: '\\' :: '\\' :: '\\' :: acc) rest
    | '\\' :: c :: rest => hereEscaped fuel (c :: '\\' :: acc) rest
    | '"' :: rest => hereEscaped fuel ('"' :: '\\' :: acc) rest
    | '`' :: rest => past (Parse.backQuoted ('`' :: acc) rest)
    | '$' :: '\x7b' :: rest => past (Parse.nested (rest.length + 1) .brace false ('\x7b' :: '$' :: acc) rest)
    | '$' :: '(' :: rest => past (Parse.nested (rest.length + 1) (.paren 1 0) true ('(' :: '$' :: acc) rest)
    | c :: rest => hereEscaped fuel (c :: acc) rest

/-! ## Words -/

section
variable (run : Runner)

mutual
/-- expands a word that is not split yet; `double` says that it stands in double quotes, where single quotes and tildes
mean nothing -/
def items : Nat → (double : Bool) → (first : Bool) → Word → Run (List Item)
  | 0, _, _, _ => throw .forever
  | _, _, _, [] => return []
  | fuel + 1, double, first, c :: rest => do
    match c, rest with
    | '\\', '\n' :: rest => items fuel double false rest
    | '\\', d :: rest =>
      if double && !"$`\"\\".toList.contains d then
        return .char '\\' true false :: .char d true false :: (← items fuel double false rest)
      else return .char d true false :: (← items fuel double false rest)
    | '\'', _ =>
      if double then return .char '\'' true false :: (← items fuel double false rest)
      else
        match Parse.singleQuoted [] rest with
        | .ok (acc, rest) => return .quote :: literal (acc.drop 1).reverse ++ (← items fuel double false rest)
        | .error _ => return literal (c :: rest)
    | '"', _ =>
      match Parse.nested (rest.length + 1) .quote false [] rest with
      | .ok (acc, rest) =>
        let inner := (acc.drop 1).reverse
        let inside ← items fuel true false inner
        let more ← items fuel double false rest
        -- all arguments in quotes are nothing if there are none
        if inside.isEmpty && inner.contains '@' then return more else return .quote :: inside ++ more
      | .error _ => return .char '"' true false :: (← items fuel double false rest)
    | '`', _ =>
      match Parse.backQuoted [] rest with
      | .ok (acc, rest) =>
        let inner := backText double (acc.drop 1).reverse
        let out ← substitute fuel inner
        return asItems double out ++ (← items fuel double false rest)
      | .error _ => return [.char '`' true false]
    | '$', '\'' :: tail =>
      if double then return .char '$' true false :: (← items fuel double false rest)
      else
        match Parse.dollarQuoted [] tail with
        | .ok (acc, rest) =>
          let inner := (acc.drop 1).reverse
          return .quote :: literal (ansi (inner.length + 1) inner) ++ (← items fuel double false rest)
        | .error _ => return literal (c :: rest)
    | '$', '"' :: _ =>
      if double then return .char '$' true false :: (← items fuel double false rest)
      else items fuel double false rest
    | '$', _ =>
      let (here, rest) ← dollar fuel double rest
      return here ++ (← items fuel double false rest)
    | '<', '(' :: inside =>
      match first && !double, Parse.nested (inside.length + 1) (.paren 1 0) true [] inside with
      | true, .ok (acc, rest) =>
        -- the output of a program as a file
        let out ← Run.captured (run (acc.drop 1).reverse)
        let channel ← Run.newChannel (.source out.toList false)
        let used := ((← Run.scope).fds.filter (·.1 > 9)).length
        Run.bindFd (63 - used) channel
        return literal ("/dev/fd/" ++ toString (63 - used)).toList ++ (← items fuel double false rest)
      | _, _ => return .char c double false :: (← items fuel double false rest)
    | '~', _ =>
      if first && !double then
        let name := rest.takeWhile fun c => !(c = '/' || c = ':')
        match ← tilde (String.ofList name) with
        | some home => return literal home.toList ++ (← items fuel double false (rest.drop name.length))
        | none => return .char '~' false false :: (← items fuel double false rest)
      else return .char '~' double false :: (← items fuel double false rest)
    | c, rest => return .char c double false :: (← items fuel double false rest)

/-- the output of a program without the ends of lines behind it -/
def substitute : Nat → List Char → Run String
  | 0, _ => throw .forever
  | _ + 1, text => do
    let program := text.dropWhile fun c => c = ' ' || c = '\n' || c = '\t'
    let out ← match program with
      | '<' :: path =>
        -- a redirection alone stands for the text of the file
        let name := String.ofList (((path.dropWhile (· = ' ')).reverse.dropWhile (· = ' ')).reverse)
        if name.toList.all fun c => c.isAlphanum || "._-/".toList.contains c then
          match ← Run.readFile name with
          | .ok t => do
            Run.setStatus 0
            pure t
          | .error e => do
            Run.refuse 1 (name ++ ": " ++ e)
            pure ""
        else Run.captured (run text)
      | _ => Run.captured (run text)
    let cs := out.toList.filter (· ≠ Char.ofNat 0)
    return String.ofList ((cs.reverse.dropWhile (· = '\n')).reverse)

/-- what stands behind a dollar sign -/
def dollar : Nat → (double : Bool) → List Char → Run (List Item × List Char)
  | 0, _, _ => throw .forever
  | fuel + 1, double, cs => do
    match cs with
    | '(' :: '(' :: inside =>
      match Parse.arithText inside with
      | some (text, rest) =>
        let n ← arithmetic fuel text
        return (asItems double (toString n.toInt), rest)
      | none => commandText fuel double ('(' :: inside)
    | '(' :: inside => commandText fuel double inside
    | '\x7b' :: inside =>
      match Parse.nested (inside.length + 1) .brace false [] inside with
      | .ok (acc, rest) =>
        let inner := (acc.drop 1).reverse
        match readBraced inner with
        | some b => return (← braced fuel double b, rest)
        | none =>
          Run.complain "bad substitution\n"
          throw (.exit 1)
      | .error _ => return (literal ['$'], cs)
    | '[' :: inside =>
      match Arith.brackets (inside.length + 1) 0 [] inside with
      | some (text, rest) =>
        let n ← arithmetic fuel text
        return (asItems double (toString n.toInt), rest)
      | none => return (literal ['$'], cs)
    | c :: rest =>
      if Parse.isNameStart c then
        let name := cs.takeWhile Parse.isNamePart
        return (← braced fuel double { name := String.ofList name }, cs.drop name.length)
      else if c.isDigit || "@*#?$!-".toList.contains c then
        return (← braced fuel double { name := String.singleton c }, rest)
      else return (literal ['$'], cs)
    | [] => return (literal ['$'], [])

/-- a program in parentheses -/
def commandText : Nat → (double : Bool) → List Char → Run (List Item × List Char)
  | 0, _, _ => throw .forever
  | fuel + 1, double, inside => do
    match Parse.nested (inside.length + 1) (.paren 1 0) true [] inside with
    | .ok (acc, rest) =>
      let out ← substitute fuel (acc.drop 1).reverse
      return (asItems double out, rest)
    | .error _ => return (literal ['$', '('], inside)

/-- the values of a parameter -/
def found : Nat → String → Option (List Char) → Run Found
  | 0, _, _ => throw .forever
  | fuel + 1, name, index => do
    match ← special name with
    | some f => return f
    | none =>
      match ← automatic name with
      | some t => return ⟨[t], true, none⟩
      | none =>
        let v := ((← Run.stored? name).map (·.value)).getD .unset
        match index with
        | some ['@'] => return ⟨v.texts, !v.texts.isEmpty, some '@'⟩
        | some ['*'] => return ⟨v.texts, !v.texts.isEmpty, some '*'⟩
        | some index =>
          let item ← match v with
            | .table items =>
              let k := String.ofList (itemsText (← items_ fuel index))
              pure ((items.find? (·.1 == k)).map (·.2))
            | v => do pure (arrayItem v (← arithmetic fuel index).toInt)
          return ⟨[item.getD ""], item.isSome, none⟩
        | none => return ⟨[v.text?.getD ""], v.text?.isSome, none⟩

/-- expands an index of a table -/
def items_ : Nat → Word → Run (List Item)
  | 0, _ => throw .forever
  | fuel + 1, w => items fuel false false w

/-- a word that is not split, as a text -/
def text : Nat → Word → Run String
  | 0, _ => throw .forever
  | fuel + 1, w => do return String.ofList (itemsText (← items fuel false true w))

/-- a parameter in braces -/
def braced : Nat → (double : Bool) → Braced → Run (List Item)
  | 0, _, _ => throw .forever
  | fuel + 1, double, b => do
    let settings := (← Run.scope).settings
    let unbound (f : Found) : Run Unit := do
      if settings.nounset && !f.isSet && f.many.isNone then
        Run.complain ((← Run.scope).name ++ ": " ++ b.name ++ ": unbound variable\n")
        throw (.exit 1)
    if b.length then
      let f ← found fuel b.name b.index
      unbound f
      let n := if f.many.isSome then f.values.length else (f.values.headD "").length
      return asItems double (toString n)
    if b.indirect then
      match b.index, b.operator with
      | some [c], [] =>
        if c = '@' || c = '*' then
          let keys := ((← Run.stored? b.name).map (·.value.keys)).getD []
          return ← valueItems double (some c) keys
      | none, ['*'] => return ← prefixed double '*' b.name
      | none, ['@'] => return ← prefixed double '@' b.name
      | _, _ => pure ()
      let f ← found fuel b.name b.index
      let target := (f.values.headD "").toList
      match readBraced target with
      | some t => return ← braced fuel double { t with operator := b.operator }
      | none => return []
    let f ← found fuel b.name b.index
    let value := f.values.headD ""
    let give (f : Found) : Run (List Item) := valueItems double f.many f.values
    let each (g : String → String) : Run (List Item) := valueItems double f.many (f.values.map g)
    let word (cs : List Char) : Run (List Item) := items fuel double true cs
    match b.operator with
    | [] =>
      unbound f
      give f
    | ':' :: op :: arg =>
      let empty := !f.isSet || (f.values.all String.isEmpty && (f.many.isNone || f.values.length ≤ 1))
      match op with
      | '-' => if empty then word arg else give f
      | '+' => if empty then return [] else word arg
      | '=' => if empty then assignDefault fuel double b arg else give f
      | '?' => if empty then missing fuel b.name arg else give f
      | _ =>
        unbound f
        sliceItems fuel double b f (op :: arg)
    | '-' :: arg => if f.isSet then give f else word arg
    | '+' :: arg => if f.isSet then word arg else return []
    | '=' :: arg => if f.isSet then give f else assignDefault fuel double b arg
    | '?' :: arg => if f.isSet then give f else missing fuel b.name arg
    | '#' :: '#' :: arg => trim fuel false true arg each
    | '#' :: arg => trim fuel false false arg each
    | '%' :: '%' :: arg => trim fuel true true arg each
    | '%' :: arg => trim fuel true false arg each
    | '/' :: arg =>
      let (kind, arg) := match arg with
        | '/' :: rest => ('/', rest)
        | '#' :: rest => ('#', rest)
        | '%' :: rest => ('%', rest)
        | arg => ('1', arg)
      let (p, w) := splitOutside '/' (arg.length + 1) [] arg
      let wild := wildOf settings.extglob (marked (← items fuel false false p))
      let with_ ← match w with
        | some w => do pure (itemsText (← items fuel false true w))
        | none => pure []
      if wild.isEmpty then give f else each (replaced settings.nocasematch kind wild with_)
    | '^' :: '^' :: _ => each (toCase (some true))
    | ',' :: ',' :: _ => each (toCase (some false))
    | '^' :: _ => each fun s => String.ofList ((s.toList.take 1).map Char.toUpper ++ s.toList.drop 1)
    | ',' :: _ => each fun s => String.ofList ((s.toList.take 1).map Char.toLower ++ s.toList.drop 1)
    | ['@', 'Q'] => each fun s => "'" ++ s.replace "'" "'\\''" ++ "'"
    | ['@', 'U'] => each (toCase (some true))
    | ['@', 'L'] => each (toCase (some false))
    | ['@', 'u'] => each fun s => String.ofList ((s.toList.take 1).map Char.toUpper ++ s.toList.drop 1)
    | ['@', 'E'] => each fun s => String.ofList (ansi (s.length + 1) s.toList)
    | _ =>
      Run.complain (value ++ ": bad substitution\n")
      throw (.exit 1)

def trim : Nat → (atEnd longest : Bool) → Word → ((String → String) → Run (List Item)) → Run (List Item)
  | 0, _, _, _, _ => throw .forever
  | fuel + 1, atEnd, longest, arg, each => do
    let settings := (← Run.scope).settings
    let wild := wildOf settings.extglob (marked (← items fuel false true arg))
    each (trimmed false atEnd longest wild)

def assignDefault : Nat → (double : Bool) → Braced → Word → Run (List Item)
  | 0, _, _, _ => throw .forever
  | fuel + 1, double, b, arg => do
    let value := String.ofList (itemsText (← items fuel double true arg))
    let old := ((← Run.stored? b.name)).getD {}
    Run.putVariable b.name { old with value := .text value }
    return asItems double value

def missing : Nat → String → Word → Run (List Item)
  | 0, _, _ => throw .forever
  | fuel + 1, name, arg => do
    let message := String.ofList (itemsText (← items fuel false true arg))
    let message := if message.isEmpty then "parameter null or not set" else message
    Run.complain ((← Run.scope).name ++ ": " ++ name ++ ": " ++ message ++ "\n")
    throw (.exit 1)

/-- a part of a value or of several -/
def sliceItems : Nat → (double : Bool) → Braced → Found → List Char → Run (List Item)
  | 0, _, _, _, _ => throw .forever
  | fuel + 1, double, b, f, arg => do
    let (a, l) := splitOutside ':' (arg.length + 1) [] arg
    let offset := (← arithmetic fuel a).toInt
    let length ← match l with
      | some l => do pure (some (← arithmetic fuel l).toInt)
      | none => pure none
    match f.many with
    | some c =>
      -- the arguments are counted from the name of the script
      let name := (← Run.scope).name
      let all := if b.name == "@" || b.name == "*" then name :: f.values else f.values
      valueItems double (some c) (slice all offset length)
    | none => return asItems double (String.ofList (slice (f.values.headD "").toList offset length))

/-- the value of an expression, what is expanded in it first -/
def arithmetic : Nat → List Char → Run Int64
  | 0, _ => throw .forever
  | fuel + 1, text => do
    let expanded := itemsText (← items fuel true false text)
    arithText fuel (expanded.filter (· ≠ '"'))

def arithText : Nat → List Char → Run Int64
  | 0, _ => throw .forever
  | fuel + 1, text => do
    match Arith.parse text with
    | .ok e => arith fuel e
    | .error _ =>
      Run.complain ((← Run.scope).name ++ ": " ++ String.ofList text ++ ": syntax error in expression\n")
      throw (.exit 1)

def arithPlace : Nat → ArithPlace → Run Int64
  | 0, _ => throw .forever
  | fuel + 1, p => do
    let f ← found fuel p.name p.index
    if (← Run.scope).settings.nounset && !f.isSet then
      Run.complain ((← Run.scope).name ++ ": " ++ p.name ++ ": unbound variable\n")
      throw (.exit 1)
    let s := (f.values.headD "").toList
    match Arith.numeral? s with
    | some n => return n
    | none => arithText fuel s

def storeArith : Nat → ArithPlace → Int64 → Run Unit
  | 0, _, _ => throw .forever
  | fuel + 1, p, n => do
    let old := ((← Run.stored? p.name)).getD {}
    let s := toString n.toInt
    match p.index, old.value with
    | none, .list items => Run.putVariable p.name { old with value := .list (putItem 0 s items) }
    | none, _ => Run.putVariable p.name { old with value := .text s }
    | some index, .table items =>
      let k := String.ofList (itemsText (← items_ fuel index))
      Run.putVariable p.name { old with value := .table (putPair k s items) }
    | some index, v =>
      let i := (← arithmetic fuel index).toInt.toNat
      let items := match v with
        | .list items => items
        | .text t => [(0, t)]
        | _ => []
      Run.putVariable p.name { old with value := .list (putItem i s items) }

def arith : Nat → Arith → Run Int64
  | 0, _ => throw .forever
  | fuel + 1, e => do
    let truth (b : Bool) : Int64 := if b then 1 else 0
    let apply (op : ArithOp) (x y : Int64) : Run Int64 := do
      match Arith.apply op x y with
      | .ok n => return n
      | .error _ =>
        Run.complain ((← Run.scope).name ++ ": division by 0\n")
        throw (.exit 1)
    match e with
    | .number n => return n
    | .place p => arithPlace fuel p
    | .bin op a b => apply op (← arith fuel a) (← arith fuel b)
    | .neg a => return -(← arith fuel a)
    | .bitNot a => return ~~~(← arith fuel a)
    | .not a => return truth ((← arith fuel a) = 0)
    | .both a b => if (← arith fuel a) = 0 then return 0 else return truth ((← arith fuel b) ≠ 0)
    | .either a b => if (← arith fuel a) ≠ 0 then return 1 else return truth ((← arith fuel b) ≠ 0)
    | .choose a b c => if (← arith fuel a) ≠ 0 then arith fuel b else arith fuel c
    | .comma a b =>
      let _ ← arith fuel a
      arith fuel b
    | .assign p op value =>
      let v ← arith fuel value
      let v ← match op with
        | some op => do apply op (← arithPlace fuel p) v
        | none => pure v
      storeArith fuel p v
      return v
    | .step p by_ before =>
      let old ← arithPlace fuel p
      storeArith fuel p (old + by_)
      return if before then old else old + by_
end

/-! ## Uses of words -/

/-- how deeply expansions may be nested, words counted by their characters -/
def depth : Nat := 1000000

/-- the fields that a word stands for -/
def wordFields (w : Word) : Run (List String) := do
  let results ← (braceExpand w).mapM fun w => do
    let found := fields (← Run.separators) (← items run depth false true w)
    return (← found.mapM pathnames).flatten
  return results.flatten

def allFields (ws : List Word) : Run (List String) := do
  return (← ws.mapM (wordFields run)).flatten

/-- the text that a word stands for where it is not split -/
def wordText (w : Word) : Run String := text run depth w

/-- the text of a here document -/
def hereText (w : Word) : Run String := do
  return String.ofList (itemsText (← items run depth true false (hereEscaped (w.length + 1) [] w)))

/-- the pattern that a word stands for -/
def wordPattern (extended : Bool) (w : Word) : Run (List Wild) := do
  return wildOf extended (marked (← items run depth false true w))

def value (text : List Char) : Run Int64 := arithmetic run depth text

end

end Expand

end Gleaner.Shell
