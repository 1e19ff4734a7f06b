/-
Regular expressions of tools, in their two ways of writing: in the basic one, parentheses, braces and some signs have
their meaning behind a backslash, in the extended one without it.

A match is searched from the left by trying, the longer repetition first. Groups can be referred to in the expression.
-/
import Gleaner.Shell.Wildcard

namespace Gleaner.Shell

inductive Regex where
  | char (c : Char)
  | any
  | set (negated : Bool) (items : List SetItem)
  | start
  | stop
  | edge (word atStart atEnd : Bool)
  | group (index : Nat) (r : List Regex)
  | back (index : Nat)
  | repeated (r : Regex) (least : Nat) (most : Option Nat)
  | choice (branches : List (List Regex))
  /-- sets the end of a group -/
  | close (index : Nat)
  /-- a repetition that has started at a place -/
  | again (r : Regex) (least : Nat) (most : Option Nat) (from_ : Nat)
  deriving Inhabited

namespace Regex

/-! ## Reading -/

structure ReadState where
  rest : List Char
  groups : Nat := 0

abbrev Read := StateT ReadState (Except String)

def peek (n : Nat) : Read (List Char) := return (← get).rest.take n

def skip (n : Nat) : Read Unit := modify fun s => { s with rest := s.rest.drop n }

/-- a set behind its opening bracket; a backslash stands for itself -/
def bracket : Read Regex := do
  let cs := (← get).rest
  let (negated, cs) := match cs with
    | '^' :: rest => (true, rest)
    | cs => (false, cs)
  match setItems (cs.length + 1) true (cs.map fun c => (c, false)) with
  | some (items, rest) =>
    modify fun s => { s with rest := rest.map (·.1) }
    return .set negated items
  | none => throw "Unmatched [, [^, [:, [., or [="

def number : Read (Option Nat) := do
  let digits := (← get).rest.takeWhile Char.isDigit
  skip digits.length
  return (String.ofList digits).toNat?

/-- the bounds in braces, up to the sign that ends them -/
def bounds (extended : Bool) : Read (Nat × Option Nat) := do
  let least ← number
  let most ← if (← peek 1) = [','] then
      skip 1
      number
    else pure least
  let ending := if extended then ['\x7d'] else ['\\', '\x7d']
  if (← peek ending.length) = ending then
    skip ending.length
    return (least.getD 0, most)
  else throw "Unmatched \\\x7b"

def wordSet : List SetItem := [.named "word"]

def spaceSet : List SetItem := [.named "space"]

/-- a repetition behind a part -/
def repetition? (extended : Bool) : Read (Option (Nat × Option Nat)) := do
  match ← peek 2 with
  | '*' :: _ => skip 1; return some (0, none)
  | ['\\', c] =>
    if extended then return none
    else
      match c with
      | '+' => skip 2; return some (1, none)
      | '?' => skip 2; return some (0, some 1)
      | '\x7b' => skip 2; return some (← bounds false)
      | _ => return none
  | c :: more =>
    if !extended then return none
    else
      match c with
      | '+' => skip 1; return some (1, none)
      | '?' => skip 1; return some (0, some 1)
      | '\x7b' =>
        if more.head?.any fun d => d.isDigit || d = ',' then skip 1; return some (← bounds true) else return none
      | _ => return none
  | [] => return none

def repetitions (extended : Bool) : Nat → Regex → Read Regex
  | 0, r => return r
  | fuel + 1, r => do
    match ← repetition? extended with
    | some (least, most) => repetitions extended fuel (.repeated r least most)
    | none => return r

mutual
/-- alternatives up to the end or a closing parenthesis -/
def alternatives (extended : Bool) : Nat → (depth : Nat) → Read (List Regex)
  | 0, _ => throw "Regular expression too big"
  | fuel + 1, depth => do
    let first ← sequence extended fuel depth true
    let bar := if extended then ['|'] else ['\\', '|']
    if (← peek bar.length) = bar then
      skip bar.length
      match ← alternatives extended fuel depth with
      | [.choice more] => return [.choice (first :: more)]
      | other => return [.choice [first, other]]
    else return first

def sequence (extended : Bool) : Nat → (depth : Nat) → (first : Bool) → Read (List Regex)
  | 0, _, _ => throw "Regular expression too big"
  | fuel + 1, depth, first => do
    let part (r : Regex) : Read (List Regex) := do
      let r ← repetitions extended fuel r
      return r :: (← sequence extended fuel depth false)
    match ← peek 2 with
    | [] => return []
    | '\\' :: c :: _ =>
      match c with
      | '(' =>
        if extended then skip 2; part (.char '(')
        else
          skip 2
          part (← groupFrom extended fuel depth)
      | ')' =>
        if extended then skip 2; part (.char ')')
        else if depth > 0 then return []
        else throw "Unmatched ) or \\)"
      | '|' => if extended then skip 2; part (.char '|') else return []
      | 'w' => skip 2; part (.set false wordSet)
      | 'W' => skip 2; part (.set true wordSet)
      | 's' => skip 2; part (.set false spaceSet)
      | 'S' => skip 2; part (.set true spaceSet)
      | 'b' => skip 2; part (.edge true true true)
      | 'B' => skip 2; part (.edge false true true)
      | '<' => skip 2; part (.edge true true false)
      | '>' => skip 2; part (.edge true false true)
      | 'n' => skip 2; part (.char '\n')
      | 't' => skip 2; part (.char '\t')
      | c =>
        skip 2
        if c.isDigit && c ≠ '0' then part (.back (c.toNat - 48)) else part (.char c)
    | ['\\'] => throw "Trailing backslash"
    | '[' :: _ =>
      skip 1
      part (← bracket)
    | '.' :: _ => skip 1; part .any
    | '^' :: _ =>
      skip 1
      if extended || first then
        if extended then part .start
        else return .start :: (← sequence extended fuel depth true)
      else part (.char '^')
    | '$' :: more =>
      skip 1
      let last := extended || more.isEmpty || (← peek 2) = ['\\', ')'] || (← peek 2) = ['\\', '|']
      part (if last then .stop else .char '$')
    | '*' :: _ =>
      skip 1
      part (.char '*')
    | c :: _ =>
      if extended && c = '(' then
        skip 1
        part (← groupFrom extended fuel depth)
      else if extended && c = ')' && depth > 0 then return []
      else if extended && c = '|' then return []
      else
        skip 1
        part (.char c)

/-- a group behind its opening parenthesis -/
def groupFrom (extended : Bool) : Nat → (depth : Nat) → Read Regex
  | 0, _ => throw "Regular expression too big"
  | fuel + 1, depth => do
    let index := (← get).groups + 1
    modify fun s => { s with groups := index }
    let inside ← alternatives extended fuel (depth + 1)
    let ending := if extended then [')'] else ['\\', ')']
    if (← peek ending.length) = ending then
      skip ending.length
      return .group index inside
    else throw "Unmatched ( or \\("
end

/-- reads an expression -/
def parse (extended : Bool) (text : List Char) : Except String (List Regex) := do
  let (r, _) ← (alternatives extended (2 * text.length + 4) 0).run { rest := text }
  return r

/-! ## Matching -/

/-- the beginning and end of each group, group 0 being the whole match -/
abbrev Groups := Array (Option (Nat × Nat))

structure Subject where
  text : Array Char
  fold : Bool
  /-- whether the text starts at the start of a line -/
  bol : Bool := true

namespace Subject

def same (s : Subject) (a b : Char) : Bool := a == b || (s.fold && a.toLower == b.toLower)

def isWordAt (s : Subject) (i : Nat) : Bool := (s.text[i]?).any (inClass "word")

/-- whether a text goes on as another part of it does -/
def agrees (s : Subject) (lo n i : Nat) : Bool :=
  i + n ≤ s.text.size && (List.range n).all fun k =>
    match s.text[lo + k]?, s.text[i + k]? with
    | some a, some b => s.same a b
    | _, _ => false

end Subject

/-- the condition of a part that takes one character -/
def single? (s : Subject) : Regex → Option (Char → Bool)
  | .char c => some (s.same c)
  | .any => some fun _ => true
  | .set negated items => some (inSet s.fold negated items)
  | _ => none

/-- how many characters from place `i` on satisfy a condition, up to a number -/
def runLength (s : Subject) (p : Char → Bool) : Nat → Nat → Nat
  | 0, _ => 0
  | n + 1, i => if (s.text[i]?).any p then runLength s p n (i + 1) + 1 else 0

/-- the end of the preferred match that starts at place `i` -/
def matchFrom (s : Subject) : Nat → List Regex → Nat → Groups → Option (Nat × Groups)
  | 0, _, _, _ => none
  | _, [], i, groups => some (i, groups)
  | fuel + 1, r :: rest, i, groups =>
    let one (p : Char → Bool) : Option (Nat × Groups) :=
      if (s.text[i]?).any p then matchFrom s fuel rest (i + 1) groups else none
    match r with
    | .char c => one (s.same c)
    | .any => one fun _ => true
    | .set negated items => one (inSet s.fold negated items)
    | .start => if i = 0 && s.bol then matchFrom s fuel rest i groups else none
    | .stop => if i = s.text.size then matchFrom s fuel rest i groups else none
    | .edge word atStart atEnd =>
      let before := i > 0 && s.isWordAt (i - 1)
      let after := s.isWordAt i
      let here := (atStart && !before && after) || (atEnd && before && !after)
      if here = word then matchFrom s fuel rest i groups else none
    | .group index inside =>
      matchFrom s fuel (inside ++ .close index :: rest) i (groups.setIfInBounds index (some (i, i)))
    | .close index =>
      let lo := ((groups.getD index none).map (·.1)).getD i
      matchFrom s fuel rest i (groups.setIfInBounds index (some (lo, i)))
    | .back index =>
      match groups.getD index none with
      | some (lo, hi) =>
        if s.agrees lo (hi - lo) i then matchFrom s fuel rest (i + (hi - lo)) groups else none
      | none => none
    | .choice branches =>
      -- the longest of the alternatives counts
      (branches.filterMap fun b => matchFrom s fuel (b ++ rest) i groups).foldl
        (fun best found =>
          match best with
          | some (j, g) => if found.1 > j then some found else some (j, g)
          | none => some found) none
    | .repeated r least most =>
      match single? s r with
      | some p =>
        let left := s.text.size - i
        let n := runLength s p (min left (most.getD left)) i
        (List.range (n + 1 - least)).findSome? fun k => matchFrom s fuel rest (i + n - k) groups
      | none => matchFrom s fuel (.again r least most s.text.size.succ :: rest) i groups
    | .again r least most from_ =>
      if from_ = i && least = 0 then matchFrom s fuel rest i groups
      else
        let more := if most = some 0 then none
          else matchFrom s fuel (r :: .again r (least - 1) (most.map (· - 1)) i :: rest) i groups
        match more with
        | some found => some found
        | none => if least = 0 then matchFrom s fuel rest i groups else none

/-- the groups of the first match at or behind a place -/
def search (r : List Regex) (s : Subject) : Nat → Nat → Option Groups
  | 0, _ => none
  | fuel + 1, i =>
    if i > s.text.size then none
    else
      match matchFrom s (40 * (s.text.size + 100)) r i (Array.replicate 10 none) with
      | some (j, groups) => some (groups.setIfInBounds 0 (some (i, j)))
      | none => search r s fuel (i + 1)

def find (r : List Regex) (fold : Bool) (text : List Char) (start : Nat) : Option Groups :=
  let s : Subject := { text := text.toArray, fold := fold }
  search r s (s.text.size + 2) start

def isMatch (r : List Regex) (fold : Bool) (text : List Char) : Bool := (find r fold text 0).isSome

/-- the text of a group -/
def groupText (text : Array Char) (groups : Groups) (i : Nat) : List Char :=
  match groups.getD i none with
  | some (lo, hi) => (text.extract lo hi).toList
  | none => []

/-- the place a group starts at and the one it ends at -/
def span (groups : Groups) (i : Nat) : Nat × Nat := (groups.getD i none).getD (0, 0)

end Regex

end Gleaner.Shell
