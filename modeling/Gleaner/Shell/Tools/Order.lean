/-
Tools that put lines in order and compare them.
-/
import Gleaner.Shell.Tools.Lines

namespace Gleaner.Shell.Tools

/-! ## Sorting -/

structure SortKey where
  field : Nat := 1
  char : Nat := 0
  toField : Option Nat := none
  toChar : Nat := 0
  letters : List Char := []

/-- a place in a key: a field, a character and letters -/
def readPlace (cs : List Char) : Nat × Nat × List Char :=
  let number (cs : List Char) : Nat × List Char :=
    let digits := cs.takeWhile Char.isDigit
    ((String.ofList digits).toNat?.getD 0, cs.drop digits.length)
  let (field, rest) := number cs
  match rest with
  | '.' :: rest =>
    let (char, letters) := number rest
    (field, char, letters)
  | letters => (field, 0, letters)

def readKey (s : String) : SortKey :=
  match s.splitOn "," with
  | [a] =>
    let (field, char, letters) := readPlace a.toList
    { field, char, letters }
  | a :: b :: _ =>
    let (field, char, letters) := readPlace a.toList
    let (toField, toChar, more) := readPlace b.toList
    { field, char, toField := some toField, toChar, letters := letters ++ more }
  | [] => {}

/-- the fields of a line; without a separator each takes the blanks before it -/
def sortFields (sep : Option String) (l : String) : List String :=
  match sep with
  | some sep => l.splitOn sep
  | none =>
    let rec go : Nat → List Char → List String
      | 0, _ => []
      | fuel + 1, cs =>
        if cs.isEmpty then []
        else
          let blanks := cs.takeWhile fun c => c = ' ' || c = '\t'
          let rest := cs.drop blanks.length
          let word := rest.takeWhile fun c => !(c = ' ' || c = '\t')
          String.ofList (blanks ++ word) :: go fuel (rest.drop word.length)
    go (l.length + 1) l.toList

/-- the part of a line that a key is about -/
def keyText (sep : Option String) (k : SortKey) (l : String) : String :=
  let fields := sortFields sep l
  let glue := sep.getD ""
  let last := k.toField.getD fields.length
  let part := (fields.take last).drop (k.field - 1)
  let text := match k.toField, k.toChar with
    | some _, n + 1 =>
      -- the last field is cut behind a character
      match part.getLast? with
      | some f => String.intercalate glue (part.dropLast ++ [String.ofList (f.toList.take (n + 1))])
      | none => ""
    | _, _ => String.intercalate glue part
  let skip := k.char - 1
  let cs := text.toList
  let cs := if k.letters.contains 'b' then cs.dropWhile fun c => c = ' ' || c = '\t' else cs
  String.ofList (cs.drop skip)

/-- the number at the beginning of a text, with digits behind the point made equally many -/
def leadingNumber (s : String) : Int × Nat :=
  let cs := s.toList.dropWhile fun c => c = ' ' || c = '\t'
  let (negative, cs) := match cs with
    | '-' :: rest => (true, rest)
    | cs => (false, cs)
  let whole := cs.takeWhile Char.isDigit
  let part := match cs.drop whole.length with
    | '.' :: rest => rest.takeWhile Char.isDigit
    | _ => []
  let n : Nat := (whole ++ part).foldl (fun n d => n * 10 + (d.toNat - 48)) 0
  (if negative then -(n : Int) else n, part.length)

def compareNumbers (a b : String) : Ordering :=
  let (x, p) := leadingNumber a
  let (y, q) := leadingNumber b
  compare (x * Int.pow 10 q) (y * Int.pow 10 p)

/-- the rank of a unit behind a number -/
def unitRank (s : String) : Nat :=
  let rest := (s.toList.dropWhile fun c => c = ' ' || c = '-').dropWhile fun c => c.isDigit || c = '.'
  match rest.head? with
  | some c => ("KMGTPEZY".toList.findIdx? (· = c.toUpper)).elim 0 (· + 1)
  | none => 0

/-- compares texts in which numbers count as numbers -/
def compareVersions : Nat → List Char → List Char → Ordering
  | 0, _, _ => .eq
  | fuel + 1, a, b =>
    match a, b with
    | [], [] => .eq
    | [], _ => .lt
    | _, [] => .gt
    | c :: as, d :: bs =>
      if c.isDigit && d.isDigit then
        let x := a.takeWhile Char.isDigit
        let y := b.takeWhile Char.isDigit
        match compare ((String.ofList x).toNat?.getD 0) ((String.ofList y).toNat?.getD 0) with
        | .eq => compareVersions fuel (a.drop x.length) (b.drop y.length)
        | o => o
      else if c = d then compareVersions fuel as bs
      else compare c.toNat d.toNat

def compareBy (letters : List Char) (a b : String) : Ordering :=
  let has (c : Char) : Bool := letters.contains c
  let clean (s : String) : String :=
    let cs := s.toList
    let cs := if has 'b' then cs.dropWhile fun c => c = ' ' || c = '\t' else cs
    let cs := if has 'd' then cs.filter fun c => c.isAlphanum || c = ' ' || c = '\t' else cs
    let cs := if has 'f' then cs.map Char.toUpper else cs
    String.ofList cs
  let o :=
    if has 'h' then (compare (unitRank a) (unitRank b)).then (compareNumbers a b)
    else if has 'n' || has 'g' then compareNumbers a b
    else if has 'V' then compareVersions (a.length + b.length + 1) a.toList b.toList
    else compare (clean a) (clean b)
  if has 'r' then o.swap else o

structure SortPlan where
  letters : List Char
  keys : List SortKey
  sep : Option String
  stable : Bool
  unique : Bool

namespace SortPlan

/-- compares lines by the keys -/
def byKeys (p : SortPlan) (a b : String) : Ordering :=
  if p.keys.isEmpty then compareBy p.letters a b
  else p.keys.foldl (fun o k =>
    o.then
      (let k := if k.letters.isEmpty then { k with letters := p.letters } else k
       compareBy k.letters (keyText p.sep k a) (keyText p.sep k b)))
      .eq

/-- compares lines by the keys and then as they are -/
def full (p : SortPlan) (a b : String) : Ordering :=
  let o := p.byKeys a b
  if p.stable || p.unique then o
  else o.then (if p.letters.contains 'r' then compare b a else compare a b)

end SortPlan

def sort (g : Given) : Result :=
  let o := options "ktoST" ["key", "field-separator", "output"] g.args
  let long : List (String × Char) := [("numeric-sort", 'n'), ("reverse", 'r'), ("ignore-case", 'f'),
    ("human-numeric-sort", 'h'), ("version-sort", 'V'), ("ignore-leading-blanks", 'b'), ("dictionary-order", 'd')]
  let letters := (o.flags.filterMap fun (f, _) =>
      match f.toList with
      | [c] => if "bdfghnrV".toList.contains c then some c else none
      | _ => (long.find? (·.1 == f)).map (·.2))
  let plan : SortPlan :=
    { letters := letters
      keys := (o.values ["k", "key"]).map readKey
      sep := o.value? ["t", "field-separator"]
      stable := o.has ["s", "stable"]
      unique := o.has ["u", "unique"] }
  let i := inputs g o.operands
  let lines := i.texts.flatMap fun (_, s) => (linesOf s).1
  if o.has ["c", "C", "check"] then
    let ordered := (lines.zip (lines.drop 1)).all fun (a, b) =>
      match plan.full a b with
      | .gt => false
      | .eq => !plan.unique
      | .lt => true
    i.result "" (if ordered then 0 else 1)
  else
    let sorted := lines.mergeSort fun a b => plan.full a b != .gt
    let sorted := if plan.unique then
        (sorted.foldl (fun (acc : List String) l =>
          match acc with
          | last :: _ => if plan.byKeys last l == .eq then acc else l :: acc
          | [] => [l]) []).reverse
      else sorted
    i.result (joinLines sorted) 0

/-! ## Repeated lines -/

/-- runs of lines that count as equal, with their lengths -/
def runsOf (same : String → String → Bool) (lines : List String) : List (Nat × List String) :=
  ((lines.foldl (fun (acc : List (Nat × List String)) l =>
    match acc with
    | (n, first :: more) :: rest => if same first l then (n + 1, first :: more ++ [l]) :: rest else (1, [l]) :: acc
    | _ => (1, [l]) :: acc) []).reverse)

def uniq (g : Given) : Result :=
  let o := options "fsw" ["skip-fields", "skip-chars", "check-chars"] g.args
  let number (names : List String) : Option Nat := (o.value? names).bind String.toNat?
  let fold := o.has ["i", "ignore-case"]
  let view (l : String) : String :=
    let cs := (List.range ((number ["f", "skip-fields"]).getD 0)).foldl (fun (cs : List Char) _ =>
      (cs.dropWhile fun c => c = ' ' || c = '\t').dropWhile fun c => !(c = ' ' || c = '\t')) l.toList
    let cs := cs.drop ((number ["s", "skip-chars"]).getD 0)
    let cs := match number ["w", "check-chars"] with
      | some n => cs.take n
      | none => cs
    String.ofList (if fold then cs.map Char.toLower else cs)
  let i := inputs g (o.operands.take 1)
  let runs := runsOf (fun a b => view a == view b) (linesOf i.all).1
  let runs := if o.has ["d", "repeated"] then runs.filter (·.1 > 1) else runs
  let runs := if o.has ["u", "unique"] then runs.filter (·.1 = 1) else runs
  let rows := if o.has ["D"] then (runs.filter (·.1 > 1)).flatMap (·.2)
    else runs.map fun (n, ls) =>
      (if o.has ["c", "count"] then padLeft 7 (toString n) ++ " " else "") ++ ls.headD ""
  i.result (joinLines rows) 0

/-! ## Two texts -/

def comm (g : Given) : Result :=
  let o := options "" [] g.args
  let i := inputs g o.operands
  let hide (n : String) : Bool := o.has [n]
  let tabs (n : Nat) : String := String.ofList (List.replicate n '\t')
  let second := if hide "1" then 0 else 1
  let third := second + if hide "2" then 0 else 1
  let rec merge : Nat → List String → List String → List String
    | 0, _, _ => []
    | fuel + 1, a, b =>
      let left (x : String) (rest : List String) : List String := if hide "1" then rest else x :: rest
      let right (y : String) (rest : List String) : List String := if hide "2" then rest else (tabs second ++ y) :: rest
      match a, b with
      | [], [] => []
      | x :: as, [] => left x (merge fuel as [])
      | [], y :: bs => right y (merge fuel [] bs)
      | x :: as, y :: bs =>
        if x < y then left x (merge fuel as (y :: bs))
        else if y < x then right y (merge fuel (x :: as) bs)
        else
          let rest := merge fuel as bs
          if hide "3" then rest else (tabs third ++ x) :: rest
  match i.texts.map fun (_, s) => (linesOf s).1 with
  | [a, b] => i.result (joinLines (merge (a.length + b.length + 1) a b)) 0
  | _ => if i.messages.isEmpty then g.refuse 1 "missing operand" else i.result "" 1

end Gleaner.Shell.Tools
