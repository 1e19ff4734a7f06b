/-
Tools that handle texts line by line or byte by byte.
-/
import Gleaner.Shell.Tools.Basic
import Gleaner.Shell.Wildcard

namespace Gleaner.Shell.Tools

/-! ## Whole texts -/

def cat (g : Given) : Result :=
  let o := options "" [] g.args
  let i := inputs g o.operands
  let text := i.all
  let number := o.has ["n", "number"]
  let numberFilled := o.has ["b", "number-nonblank"]
  let squeeze := o.has ["s", "squeeze-blank"]
  let ends := o.has ["E", "A", "e", "show-ends", "show-all"]
  let tabs := o.has ["T", "A", "t", "show-tabs", "show-all"]
  if !(number || numberFilled || squeeze || ends || tabs) then i.result text 0
  else
    let (lines, ended) := linesOf text
    let lines := if squeeze then
        (lines.zip ("x" :: lines)).filterMap fun (l, before) => if l.isEmpty && before.isEmpty then none else some l
      else lines
    let marked := lines.foldl (fun (acc, n) l =>
      let shown := if tabs then l.replace "\t" "^I" else l
      let shown := if ends then shown ++ "$" else shown
      if numberFilled && l.isEmpty then (shown :: acc, n)
      else if number || numberFilled then ((padLeft 6 (toString n) ++ "\t" ++ shown) :: acc, n + 1)
      else (shown :: acc, n)) (([] : List String), 1)
    i.result (joinLike ended marked.1.reverse) 0

def tac (g : Given) : Result :=
  let i := inputs g (options "s" [] g.args).operands
  let out := i.texts.map fun (_, text) =>
    let (lines, ended) := linesOf text
    match lines.reverse with
    | last :: rest => if ended then joinLines (last :: rest) else last ++ joinLines rest
    | [] => ""
  i.result (String.join out) 0

def rev (g : Given) : Result :=
  let i := inputs g (options "" [] g.args).operands
  i.result (mapLines (fun l => toReversed l) i.all) 0
where
  /-- the characters of a text that is UTF-8 in reverse, or its bytes -/
  toReversed (l : String) : String := String.ofList l.toList.reverse

def count (g : Given) : Result :=
  let o := options "" [] g.args
  let i := inputs g o.operands
  let wantLines := o.has ["l", "lines"]
  let wantWords := o.has ["w", "words"]
  let wantBytes := o.has ["c", "m", "bytes", "chars"]
  let wantLongest := o.has ["L", "max-line-length"]
  let none_ := !(wantLines || wantWords || wantBytes || wantLongest)
  let words (s : String) : Nat :=
    (s.toList.foldl (fun (n, inside) c =>
      if inClass "space" c then (n, false) else (if inside then n else n + 1, true)) (0, false)).1
  let numbers (s : String) : List Nat :=
    (if wantLines || none_ then [s.toList.count '\n'] else []) ++
    (if wantWords || none_ then [words s] else []) ++
    (if wantBytes || none_ then [s.length] else []) ++
    (if wantLongest then [((linesOf s).1.map String.length).max?.getD 0] else [])
  let rows := i.texts.map fun (name, s) => (name, numbers s)
  let totals := match rows with
    | (_, first) :: rest => rest.foldl (fun acc (_, ns) => acc.zipWith (· + ·) ns) first
    | [] => []
  let many := i.texts.length > 1
  let single := !many && totals.length = 1
  let digits := (totals.map fun n => (toString n).length).max?.getD 1
  let width := if single then 0 else if i.fromInput then 7 else digits
  let show_ (name : String) (ns : List Nat) : String :=
    String.intercalate " " (ns.map fun n => padLeft width (toString n)) ++
      (if o.operands.isEmpty then "" else " " ++ name) ++ "\n"
  let out := String.join (rows.map fun (name, ns) => show_ name ns)
  i.result (out ++ if many then show_ "total" totals else "") 0

/-! ## Parts of texts -/

/-- a number of lines or bytes with a unit behind it -/
def readCount? (s : String) : Option Nat :=
  let digits := s.toList.takeWhile Char.isDigit
  let unit := String.ofList (s.toList.drop digits.length)
  let factor := match unit with
    | "" => some 1
    | "b" => some 512
    | "k" | "K" => some 1024
    | "kB" => some 1000
    | "M" => some 1048576
    | _ => none
  match (String.ofList digits).toNat?, factor with
  | some n, some f => some (n * f)
  | _, _ => none

/-- options that are a number are about lines -/
def lineCountArgs (args : List String) : List String :=
  args.map fun a =>
    match a.toList with
    | '-' :: c :: rest => if c.isDigit && rest.all Char.isDigit then "-n" ++ String.ofList (c :: rest) else a
    | _ => a

/-- the first lines of a text, and how many characters they have -/
def takeLines : Nat → List Char → List Char → List Char
  | 0, acc, _ => acc.reverse
  | _, acc, [] => acc.reverse
  | n + 1, acc, c :: rest => if c = '\n' then takeLines n (c :: acc) rest else takeLines (n + 1) (c :: acc) rest

/-- all lines but the last -/
def dropLastLines (n : Nat) (s : String) : String :=
  let (lines, ended) := linesOf s
  let kept := lines.take (lines.length - n)
  if n = 0 then joinLike ended kept else joinLines kept

def header (many : Bool) (first : Bool) (name : String) : String :=
  if !many then ""
  else (if first then "" else "\n") ++ "==> " ++ (if name == "-" then "standard input" else name) ++ " <==\n"

def head (g : Given) : Result :=
  let o := options "nc" ["lines", "bytes"] (lineCountArgs g.args)
  let bytes := o.value? ["c", "bytes"]
  let amount := (bytes <|> o.value? ["n", "lines"]).getD "10"
  let fromEnd := amount.startsWith "-"
  match readCount? (if fromEnd then String.ofList (amount.toList.drop 1) else amount) with
  | none =>
    g.refuse 1 ("invalid number of " ++ (if bytes.isSome then "bytes" else "lines") ++ ": '" ++ amount ++ "'")
  | some n =>
    let i := inputs g o.operands
    let many := (i.texts.length > 1 && !o.has ["q", "quiet"]) || o.has ["v"]
    let part (s : String) : String :=
      match bytes, fromEnd with
      | some _, false => String.ofList (s.toList.take n)
      | some _, true => String.ofList (s.toList.take (s.length - n))
      | none, false => String.ofList (takeLines n [] s.toList)
      | none, true => dropLastLines n s
    let out := String.join (i.texts.zipIdx.map fun ((name, s), k) => header many (k = 0) name ++ part s)
    let r := i.result out 0
    let enough := match bytes with
      | some _ => g.input.length ≥ n
      | none => g.input.count '\n' ≥ n
    -- what has been read with the rest of a block is lost
    if i.fromInput && !fromEnd && enough then { r with used := .up_to 1024 } else r

def tail (g : Given) : Result :=
  let o := options "nc" ["lines", "bytes"] (lineCountArgs g.args)
  let bytes := o.value? ["c", "bytes"]
  let amount := (bytes <|> o.value? ["n", "lines"]).getD "10"
  let fromStart := amount.startsWith "+"
  let plain := if fromStart || amount.startsWith "-" then String.ofList (amount.toList.drop 1) else amount
  match readCount? plain with
  | none =>
    g.refuse 1 ("invalid number of " ++ (if bytes.isSome then "bytes" else "lines") ++ ": '" ++ amount ++ "'")
  | some n =>
    let i := inputs g o.operands
    let many := i.texts.length > 1 && !o.has ["q", "quiet"]
    let part (s : String) : String :=
      match bytes, fromStart with
      | some _, true => String.ofList (s.toList.drop (n - 1))
      | some _, false => String.ofList (s.toList.drop (s.length - n))
      | none, true =>
        let (lines, ended) := linesOf s
        joinLike ended (lines.drop (n - 1))
      | none, false =>
        let (lines, ended) := linesOf s
        joinLike ended (lines.drop (lines.length - n))
    i.result (String.join (i.texts.zipIdx.map fun ((name, s), k) => header many (k = 0) name ++ part s)) 0

/-! ## Columns -/

/-- a list of ranges of places, counted from 1 -/
def readRanges? (s : String) : Option (List (Nat × Option Nat)) :=
  (s.splitOn ",").mapM fun part =>
    match part.splitOn "-" with
    | [n] => n.toNat?.map fun n => (n, some n)
    | ["", hi] => hi.toNat?.map fun hi => (1, some hi)
    | [lo, ""] => lo.toNat?.map fun lo => (lo, none)
    | [lo, hi] => do return (← lo.toNat?, some (← hi.toNat?))
    | _ => none

def inRanges (rs : List (Nat × Option Nat)) (n : Nat) : Bool :=
  rs.any fun (lo, hi) => lo ≤ n && hi.all (n ≤ ·)

def cut (g : Given) : Result :=
  let o := options "bcfd" ["bytes", "characters", "fields", "delimiter", "output-delimiter"] g.args
  let complement := o.has ["complement"]
  match o.value? ["b", "c", "bytes", "characters"], o.value? ["f", "fields"] with
  | some list, none =>
    match readRanges? list with
    | none => g.refuse 1 ("invalid byte, character or field list")
    | some rs =>
      let i := inputs g o.operands
      let line (l : String) : String :=
        String.ofList ((l.toList.zipIdx.filter fun (_, k) => inRanges rs (k + 1) != complement).map (·.1))
      i.result (joinLines ((linesOf i.all).1.map line)) 0
  | none, some list =>
    match readRanges? list with
    | none => g.refuse 1 ("invalid field value")
    | some rs =>
      let sep := (o.value? ["d", "delimiter"]).getD "\t"
      if sep.length ≠ 1 then g.refuse 1 "the delimiter must be a single character"
      else
        let outSep := (o.value? ["output-delimiter"]).getD sep
        let i := inputs g o.operands
        let line (l : String) : Option String :=
          let parts := l.splitOn sep
          if parts.length = 1 then if o.has ["s", "only-delimited"] then none else some l
          else some (String.intercalate outSep
            ((parts.zipIdx.filter fun (_, k) => inRanges rs (k + 1) != complement).map (·.1)))
        i.result (joinLines ((linesOf i.all).1.filterMap line)) 0
  | _, _ => g.refuse 1 "you must specify a list of bytes, characters, or fields"

def paste (g : Given) : Result :=
  let o := options "d" ["delimiters"] g.args
  let seps := (((o.value? ["d", "delimiters"]).getD "\t").replace "\\n" "\n" |>.replace "\\t" "\t").toList
  let i := inputs g o.operands
  let sepAt (k : Nat) : String := match seps with
    | [] => ""
    | seps => String.singleton (seps.getD (k % seps.length) '\t')
  let join (parts : List String) : String :=
    String.join (parts.zipIdx.map fun (p, k) => if k = 0 then p else sepAt (k - 1) ++ p)
  let columns := i.texts.map fun (_, s) => (linesOf s).1
  if o.has ["s", "serial"] then i.result (joinLines (columns.map join)) 0
  else
    -- several times the input: its lines are dealt out in turn
    let dashes := (o.operands.filter (· == "-")).length
    if dashes > 1 && dashes = o.operands.length then
      let lines := (columns.headD [])
      let rows := (List.range ((lines.length + dashes - 1) / dashes)).map fun r =>
        (List.range dashes).map fun k => lines.getD (r * dashes + k) ""
      i.result (joinLines (rows.map join)) 0
    else
      let height := (columns.map List.length).max?.getD 0
      i.result (joinLines ((List.range height).map fun r => join (columns.map (·.getD r "")))) 0

def fold (g : Given) : Result :=
  let o := options "w" ["width"] g.args
  let width := max 1 (((o.value? ["w", "width"]).bind String.toNat?).getD 80)
  let atSpaces := o.has ["s", "spaces"]
  let i := inputs g o.operands
  let rec split : Nat → List Char → List String
    | 0, _ => []
    | fuel + 1, cs =>
      if cs.length ≤ width then [String.ofList cs]
      else
        let part := cs.take width
        let cutAt := if atSpaces then
            match (part.reverse.findIdx? (· = ' ')) with
            | some k => width - k
            | none => width
          else width
        String.ofList (cs.take cutAt) :: split fuel (cs.drop cutAt)
  let (lines, ended) := linesOf i.all
  i.result (joinLike ended (lines.flatMap fun l => split (l.length + 1) l.toList)) 0

def numberLines (g : Given) : Result :=
  let o := options "bwsv" ["body-numbering", "number-width", "number-separator", "starting-line-number"] g.args
  let style := (o.value? ["b", "body-numbering"]).getD "t"
  let width := ((o.value? ["w", "number-width"]).bind String.toNat?).getD 6
  let sep := (o.value? ["s", "number-separator"]).getD "\t"
  let first := ((o.value? ["v", "starting-line-number"]).bind String.toNat?).getD 1
  let i := inputs g o.operands
  let (lines, _) := linesOf i.all
  let marked := lines.foldl (fun (acc, n) l =>
    if style == "a" || (style == "t" && !l.isEmpty) then
      ((padLeft width (toString n) ++ sep ++ l) :: acc, n + 1)
    else ((String.ofList (List.replicate (width + sep.length) ' ') ++ l) :: acc, n)) (([] : List String), first)
  i.result (joinLines marked.1.reverse) 0

/-! ## Characters -/

/-- an escape behind a backslash -/
def trEscape (cs : List Char) : Char × List Char :=
  match cs with
  | 'n' :: rest => ('\n', rest)
  | 't' :: rest => ('\t', rest)
  | 'r' :: rest => ('\r', rest)
  | 'a' :: rest => (Char.ofNat 7, rest)
  | 'b' :: rest => (Char.ofNat 8, rest)
  | 'f' :: rest => (Char.ofNat 12, rest)
  | 'v' :: rest => (Char.ofNat 11, rest)
  | c :: rest =>
    let digits := ((c :: rest).takeWhile fun d => '0' ≤ d && d ≤ '7').take 3
    if digits.isEmpty then (c, rest)
    else (Char.ofNat (digits.foldl (fun n d => n * 8 + (d.toNat - 48)) 0 % 256), (c :: rest).drop digits.length)
  | [] => ('\\', [])

/-- a part of a set of characters, in its order -/
inductive TrItem where
  | chars (cs : List Char)
  | fold (upper : Bool)
  | fill (c : Char)

def charRange (lo hi : Char) : List Char :=
  (List.range (hi.toNat + 1 - lo.toNat)).map fun k => Char.ofNat (lo.toNat + k)

def trSet : Nat → List Char → Except String (List TrItem)
  | 0, _ => .ok []
  | _, [] => .ok []
  | fuel + 1, '[' :: ':' :: rest =>
    let name := rest.takeWhile (·.isAlpha)
    match rest.drop name.length with
    | ':' :: ']' :: after => do
      let name := String.ofList name
      if !classNames.contains name then throw ("invalid character class '" ++ name ++ "'")
      let item := if name == "upper" then TrItem.fold true else if name == "lower" then TrItem.fold false
        else .chars ((charRange (Char.ofNat 0) (Char.ofNat 255)).filter (inClass name))
      return item :: (← trSet fuel after)
    | _ => do return .chars ['['] :: (← trSet fuel (':' :: rest))
  | fuel + 1, '[' :: c :: '*' :: rest => do
    let count := rest.takeWhile Char.isDigit
    match rest.drop count.length with
    | ']' :: after =>
      let n := if count.head? = some '0' then count.foldl (fun n d => n * 8 + (d.toNat - 48)) 0
        else (String.ofList count).toNat?.getD 0
      return (if n = 0 then .fill c else .chars (List.replicate n c)) :: (← trSet fuel after)
    | _ => return .chars ['['] :: (← trSet fuel (c :: '*' :: rest))
  | fuel + 1, c :: rest => do
    let (lo, rest) := if c = '\\' then trEscape rest else (c, rest)
    match rest with
    | '-' :: d :: more =>
      let (hi, more) := if d = '\\' then trEscape more else (d, more)
      if hi < lo then
        throw ("range-endpoints of '" ++ String.ofList [lo, '-', hi] ++ "' are in reverse collating sequence order")
      return .chars (charRange lo hi) :: (← trSet fuel more)
    | rest => return .chars [lo] :: (← trSet fuel rest)

def TrItem.members : TrItem → List Char
  | .chars cs => cs
  | .fold true => charRange 'A' 'Z'
  | .fold false => charRange 'a' 'z'
  | .fill c => [c]

/-- a set in which a filling is as long as wanted -/
def filled (items : List TrItem) (length : Nat) : List Char :=
  let fixed := items.foldl (fun n i => n + match i with
    | .fill _ => 0
    | i => i.members.length) 0
  items.flatMap fun
    | .fill c => List.replicate (length - fixed) c
    | i => i.members

/-- one character for several of a kind in a row -/
def squeezed (p : Char → Bool) : Option Char → List Char → List Char
  | _, [] => []
  | before, c :: rest =>
    if before = some c && p c then squeezed p before rest else c :: squeezed p (some c) rest

def tr (g : Given) : Result :=
  let o := options "" [] g.args
  let delete := o.has ["d", "delete"]
  let squeeze := o.has ["s", "squeeze-repeats"]
  let complement := o.has ["c", "C", "complement"]
  let truncate := o.has ["t", "truncate-set1"]
  let plan : Except String (List Char → List Char) := do
    let sets ← o.operands.mapM fun s => trSet (s.length + 1) s.toList
    let needed := if delete && !squeeze then 1 else if squeeze && !delete then 1 else 2
    match sets with
    | [] => throw "missing operand"
    | first :: others =>
      if others.isEmpty && needed = 2 then throw ("missing operand after '" ++ o.operands.headD "" ++ "'")
      if others.length > 1 || (delete && !squeeze && !others.isEmpty) then throw "extra operand"
      let from_ := first.flatMap TrItem.members
      let from_ := if complement then (charRange (Char.ofNat 0) (Char.ofNat 255)).filter (!from_.contains ·) else from_
      let table (cs : List Char) : Array Bool :=
        cs.foldl (fun t c => t.setIfInBounds c.toNat true) (Array.replicate 256 false)
      let inFrom := table from_
      let holds (t : Array Bool) (c : Char) : Bool := t.getD c.toNat false
      match others.head? with
      | none =>
        return fun cs =>
          let cs := if delete then cs.filter (!holds inFrom ·) else cs
          if squeeze && !delete then squeezed (holds inFrom) none cs else cs
      | some second =>
        let to_ := filled second from_.length
        let inTo := table to_
        if delete then return fun cs => squeezed (holds inTo) none (cs.filter (!holds inFrom ·))
        else
          if to_.isEmpty then throw "when not truncating set1, string2 must be non-empty"
          let last := to_.getLastD ' '
          let pairs := if truncate then from_.zip to_
            else from_.zip (to_ ++ List.replicate (from_.length - to_.length) last)
          let image := pairs.foldl (fun (t : Array Char) (a, b) => t.setIfInBounds a.toNat b)
            (((List.range 256).map Char.ofNat).toArray)
          return fun cs =>
            let cs := cs.map fun c => image.getD c.toNat c
            if squeeze then squeezed (holds inTo) none cs else cs
  match plan with
  | .error e => g.refuse 1 e
  | .ok f => { out := String.ofList (f g.input) }

/-! ## Series -/

def yes (g : Given) : Result :=
  let line := (if g.args.isEmpty then "y" else String.intercalate " " g.args) ++ "\n"
  { out := String.join (List.replicate (262144 / line.length + 1) line), endless := true, used := .nothing }

/-- a number with digits behind the point, as an integer and the number of those digits -/
def readDecimal? (s : String) : Option (Int × Nat) :=
  let (negative, cs) := match s.toList with
    | '-' :: rest => (true, rest)
    | '+' :: rest => (false, rest)
    | cs => (false, cs)
  let whole := cs.takeWhile Char.isDigit
  let rest := cs.drop whole.length
  let part := match rest with
    | '.' :: digits => if digits.all Char.isDigit then some digits else none
    | [] => some []
    | _ => none
  match part with
  | some digits =>
    if whole.isEmpty && digits.isEmpty then none
    else
      let n : Nat := (whole ++ digits).foldl (fun n d => n * 10 + (d.toNat - 48)) 0
      some (if negative then -(n : Int) else n, digits.length)
  | none => none

def decimalText (n : Int) (places : Nat) : String :=
  let digits := toString n.natAbs
  let digits := String.ofList (List.replicate (places + 1 - digits.length) '0') ++ digits
  let whole := digits.toList.take (digits.length - places)
  let part := digits.toList.drop (digits.length - places)
  (if n < 0 then "-" else "") ++ String.ofList whole ++ (if places = 0 then "" else "." ++ String.ofList part)

def seq (g : Given) : Result :=
  -- numbers may be negative, so that options come first only
  let rec split : List String → Options → Options
    | "-w" :: rest, o => split rest { o with flags := ("w", "") :: o.flags }
    | "-s" :: v :: rest, o => split rest { o with flags := ("s", v) :: o.flags }
    | "-f" :: v :: rest, o => split rest { o with flags := ("f", v) :: o.flags }
    | a :: rest, o =>
      if a.startsWith "-s" then split rest { o with flags := ("s", String.ofList (a.toList.drop 2)) :: o.flags }
      else { o with operands := a :: rest }
    | [], o => o
  let o := split g.args {}
  match o.operands.mapM readDecimal? with
  | none => g.refuse 1 "invalid floating point argument"
  | some numbers =>
    let bounds := match numbers with
      | [last] => some ((1, 0), (1, 0), last)
      | [first, last] => some (first, (1, 0), last)
      | [first, step, last] => some (first, step, last)
      | _ => none
    match bounds with
    | none => g.refuse 1 (if numbers.isEmpty then "missing operand" else "extra operand")
    | some (first, step, last) =>
      let places := max first.2 step.2
      let scale := max places last.2
      let at_ (n : Int × Nat) : Int := n.1 * Int.pow 10 (scale - n.2)
      let (lo, by_, hi) := (at_ first, at_ step, at_ last)
      if by_ = 0 then g.refuse 1 "invalid Zero increment value"
      else
        let count := if (by_ > 0 && hi < lo) || (by_ < 0 && hi > lo) then 0 else (Int.tdiv (hi - lo) by_).toNat + 1
        let numbers := (List.range (min count 1000000)).map fun (k : Nat) =>
          decimalText (Int.tdiv (lo + by_ * k) (Int.pow 10 (scale - places))) places
        let width := (numbers.map String.length).max?.getD 0
        let numbers := if o.has ["w"] then numbers.map fun n =>
            if n.startsWith "-" then "-" ++ String.ofList (List.replicate (width - n.length) '0' ++ n.toList.drop 1)
            else String.ofList (List.replicate (width - n.length) '0') ++ n
          else numbers
        let sep := (o.value? ["s"]).getD "\n"
        let out := String.intercalate sep numbers
        { out := if numbers.isEmpty then "" else out ++ "\n", used := .nothing }

end Gleaner.Shell.Tools
