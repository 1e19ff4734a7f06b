/-
Patterns of the shell, for names of files, cases and parts of values.

A pattern is matched by carrying along all places that it may have come to, so that the time stays within the length of
the pattern times that of the text.
-/

namespace Gleaner.Shell

/-- characters of which one is meant -/
inductive SetItem where
  | range (lo hi : Char)
  | named (name : String)

inductive Wild where
  | char (c : Char)
  | any
  | star
  | set (negated : Bool) (items : List SetItem)
  /-- alternatives, with the sign before them -/
  | group (sign : Char) (alternatives : List (List Wild))

/-! ## Sets -/

def isPunctuation (c : Char) : Bool := 33 ≤ c.toNat && c.toNat < 127 && !c.isAlphanum

/-- whether a character belongs to a named class -/
def inClass (name : String) (c : Char) : Bool :=
  match name with
  | "alpha" => c.isAlpha
  | "digit" => c.isDigit
  | "alnum" => c.isAlphanum
  | "upper" => c.isUpper
  | "lower" => c.isLower
  | "space" => c = ' ' || (9 ≤ c.toNat && c.toNat ≤ 13)
  | "blank" => c = ' ' || c = '\t'
  | "punct" => isPunctuation c
  | "print" => 32 ≤ c.toNat && c.toNat < 127
  | "graph" => 33 ≤ c.toNat && c.toNat < 127
  | "cntrl" => c.toNat < 32 || c.toNat = 127
  | "xdigit" => c.isDigit || ('a' ≤ c && c ≤ 'f') || ('A' ≤ c && c ≤ 'F')
  | "word" => c.isAlphanum || c = '_'
  | _ => false

def classNames : List String :=
  ["alpha", "digit", "alnum", "upper", "lower", "space", "blank", "punct", "print", "graph", "cntrl", "xdigit", "word"]

def SetItem.holds (fold : Bool) (i : SetItem) (c : Char) : Bool :=
  let one (c : Char) : Bool := match i with
    | .range lo hi => lo ≤ c && c ≤ hi
    | .named name => inClass name c
  one c || (fold && (one c.toLower || one c.toUpper))

def inSet (fold negated : Bool) (items : List SetItem) (c : Char) : Bool := items.any (·.holds fold c) != negated

/-- a character of a pattern, and whether it is quoted and stands for itself -/
abbrev Marked := Char × Bool

/-- the name of a class in front of its end, and the rest -/
def className? (cs : List Marked) : Option (String × List Marked) :=
  let name := cs.takeWhile fun (c, _) => c.isAlpha
  match cs.drop name.length with
  | (':', _) :: (']', _) :: rest => some (String.ofList (name.map (·.1)), rest)
  | _ => none

/-- the items of a set up to its end -/
def setItems : Nat → (first : Bool) → List Marked → Option (List SetItem × List Marked)
  | 0, _, _ => none
  | fuel + 1, first, cs =>
    match cs with
    | [] => none
    | (']', false) :: rest =>
      if first then (setItems fuel false rest).map fun (items, after) => (.range ']' ']' :: items, after)
      else some ([], rest)
    | ('[', false) :: (':', false) :: rest =>
      match className? rest with
      | some (name, rest) => (setItems fuel false rest).map fun (items, after) => (.named name :: items, after)
      | none => (setItems fuel false ((':', false) :: rest)).map fun (items, after) => (.range '[' '[' :: items, after)
    | (lo, _) :: ('-', false) :: (hi, quoted) :: rest =>
      if hi = ']' && !quoted then
        (setItems fuel false (('-', false) :: (hi, quoted) :: rest)).map fun (items, after) =>
          (.range lo lo :: items, after)
      else (setItems fuel false rest).map fun (items, after) => (.range lo hi :: items, after)
    | (c, _) :: rest => (setItems fuel false rest).map fun (items, after) => (.range c c :: items, after)

/-- a set behind its opening bracket -/
def readSet (cs : List Marked) : Option (Wild × List Marked) :=
  let (negated, cs) := match cs with
    | ('!', false) :: rest => (true, rest)
    | ('^', false) :: rest => (true, rest)
    | cs => (false, cs)
  (setItems (cs.length + 1) true cs).map fun (items, rest) => (.set negated items, rest)

/-! ## Reading patterns -/

/-- the alternatives in parentheses, split at the outermost bars, and the rest -/
def splitGroup : Nat → (depth : Nat) → List Marked → List (List Marked) → List Marked →
    Option (List (List Marked) × List Marked)
  | 0, _, _, _, _ => none
  | fuel + 1, depth, current, done, cs =>
    match cs with
    | [] => none
    | ('(', false) :: rest => splitGroup fuel (depth + 1) (('(', false) :: current) done rest
    | (')', false) :: rest =>
      if depth = 0 then some ((current.reverse :: done).reverse, rest)
      else splitGroup fuel (depth - 1) ((')', false) :: current) done rest
    | ('|', false) :: rest =>
      if depth = 0 then splitGroup fuel depth [] (current.reverse :: done) rest
      else splitGroup fuel depth (('|', false) :: current) done rest
    | c :: rest => splitGroup fuel depth (c :: current) done rest

/-- reads a pattern; groups of alternatives count only if `extended` -/
def readWild (extended : Bool) : Nat → List Marked → List Wild
  | 0, _ => []
  | fuel + 1, cs =>
    match cs with
    | [] => []
    | (c, true) :: rest => .char c :: readWild extended fuel rest
    | (c, false) :: rest =>
      let group? := match rest with
        | ('(', false) :: inside =>
          if extended && "?*+@!".toList.contains c then splitGroup (inside.length + 1) 0 [] [] inside else none
        | _ => none
      match group? with
      | some (parts, after) => .group c (parts.map (readWild extended fuel)) :: readWild extended fuel after
      | none =>
        if c = '*' then .star :: readWild extended fuel rest
        else if c = '?' then .any :: readWild extended fuel rest
        else if c = '[' then
          match readSet rest with
          | some (w, after) => w :: readWild extended fuel after
          | none => .char c :: readWild extended fuel rest
        else if c = '\\' then
          match rest with
          | (d, _) :: after => .char d :: readWild extended fuel after
          | [] => [.char c]
        else .char c :: readWild extended fuel rest

def wildOf (extended : Bool) (cs : List Marked) : List Wild := readWild extended (cs.length + 1) cs

/-- whether a character that is not quoted makes a pattern of a text -/
def isWild (cs : List Marked) : Bool := cs.any fun (c, quoted) => !quoted && (c = '*' || c = '?' || c = '[')

/-! ## Matching -/

/-- places without repetitions, in order -/
def distinct (places : List Nat) : List Nat := (places.mergeSort (· ≤ ·)).eraseReps

/-- the places behind one character that satisfies a condition -/
def overOne (text : Array Char) (p : Char → Bool) (places : List Nat) : List Nat :=
  (places.filter fun i => (text[i]?).any p).map (· + 1)

/-- places reached by going on again and again -/
def closure (go : List Nat → List Nat) : Nat → List Nat → List Nat
  | 0, places => places
  | fuel + 1, places =>
    let more := distinct (places ++ go places)
    if more.length = places.length then places else closure go fuel more

/-- the places that a pattern leads to from some places -/
def advance (fold : Bool) (text : Array Char) : Nat → List Wild → List Nat → List Nat
  | 0, _, _ => []
  | _, [], places => places
  | fuel + 1, w :: rest, places =>
    let after := match w with
      | .char c => overOne text (fun d => d == c || (fold && d.toLower == c.toLower)) places
      | .any => overOne text (fun _ => true) places
      | .star =>
        match places.min? with
        | some lo => (List.range (text.size + 1 - lo)).map (lo + ·)
        | none => []
      | .set negated items => overOne text (inSet fold negated items) places
      | .group sign alternatives =>
        let go (places : List Nat) : List Nat :=
          distinct (alternatives.flatMap fun a => advance fold text fuel a places)
        match sign with
        | '@' => go places
        | '?' => distinct (places ++ go places)
        | '*' => closure go (text.size + 2) (distinct places)
        | '+' => closure go (text.size + 2) (go places)
        | _ =>
          distinct (places.flatMap fun i =>
            let taken := go [i]
            ((List.range (text.size + 1 - i)).map (i + ·)).filter (!taken.contains ·))
    if after.isEmpty then [] else advance fold text fuel rest after

mutual
/-- how deep and long a pattern is -/
def Wild.size : Wild → Nat
  | .group _ alternatives => sizeOfAlternatives alternatives + 1
  | _ => 1

def sizeOfAlternatives : List (List Wild) → Nat
  | [] => 0
  | a :: rest => sizeOfWild a + sizeOfAlternatives rest + 1

def sizeOfWild : List Wild → Nat
  | [] => 0
  | w :: rest => w.size + sizeOfWild rest + 1
end

/-- the ends of matches that start at place `i` -/
def wildEnds (fold : Bool) (p : List Wild) (text : Array Char) (i : Nat) : List Nat :=
  advance fold text (sizeOfWild p + 1) p [i]

/-- whether a whole text matches -/
def wildMatch (fold : Bool) (p : List Wild) (text : List Char) : Bool :=
  let text := text.toArray
  (wildEnds fold p text 0).contains text.size

end Gleaner.Shell
