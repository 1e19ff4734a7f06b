/-
Patterns with their meaning settled: flags are gone, classes are sets of characters, and what is left is matched
character by character. `translate` walks the syntax tree in the order of the text, since a flag set inside a group
holds for the rest of that group, further alternatives included.

Only text that is valid UTF-8 is ever matched. A part that could match a single byte of a longer character is
therefore refused, and so is a class outside Unicode mode that is not within ASCII.
-/
import Gleaner.Regex.Syntax
import Gleaner.Unicode.CaseFold
import Gleaner.Unicode.Query

namespace Gleaner.Regex

/-- conditions on a place in the text -/
inductive Look where
  | textStart
  | textEnd
  | lineStart
  | lineEnd
  | crlfStart
  | crlfEnd
  | word (ascii : Bool)
  | notWord (ascii : Bool)
  | wordStart (ascii : Bool)
  | wordEnd (ascii : Bool)
  | wordStartHalf (ascii : Bool)
  | wordEndHalf (ascii : Bool)
  deriving DecidableEq, Repr

inductive Expr where
  | empty
  | char (c : Char)
  | set (s : CharSet)
  | look (l : Look)
  | capture (index : Nat) (name : Option String) (e : Expr)
  | repetition (min : Nat) (max : Option Nat) (greedy : Bool) (e : Expr)
  | concat (parts : List Expr)
  | alternation (branches : List Expr)

/-! ## lengths -/

mutual
/-- the least number of characters a match takes; `none` if no match is possible -/
def Expr.minLength : Expr → Option Nat
  | .empty => some 0
  | .char _ => some 1
  | .set s => if s.isEmpty then none else some 1
  | .look _ => some 0
  | .capture _ _ e => e.minLength
  | .repetition min _ _ e => e.minLength.map (· * min)
  | .concat parts => Expr.minLengthSum parts
  | .alternation branches => Expr.minLengthLeast branches

def Expr.minLengthSum : List Expr → Option Nat
  | [] => some 0
  | e :: rest => do return (← e.minLength) + (← Expr.minLengthSum rest)

def Expr.minLengthLeast : List Expr → Option Nat
  | [] => none
  | [e] => e.minLength
  | e :: rest => do return min (← e.minLength) (← Expr.minLengthLeast rest)
end

/-- every match takes at least one character -/
def Expr.consumes (e : Expr) : Bool := e.minLength.any (0 < ·)

mutual
/-- every match is empty -/
def Expr.onlyEmpty : Expr → Bool
  | .empty => true
  | .char _ => false
  | .set _ => false
  | .look _ => true
  | .capture _ _ e => e.onlyEmpty
  | .repetition _ max _ e => max.isSome && e.onlyEmpty
  | .concat parts => Expr.allOnlyEmpty parts
  | .alternation branches => Expr.allOnlyEmpty branches

def Expr.allOnlyEmpty : List Expr → Bool
  | [] => true
  | e :: rest => e.onlyEmpty && Expr.allOnlyEmpty rest
end

/-! ## constructors that simplify -/

/-- a repetition; no repetition at all leaves nothing, not even the groups inside, and what only matches the empty
text is taken at most once -/
def Expr.mkRepetition (min : Nat) (max : Option Nat) (greedy : Bool) (e : Expr) : Expr :=
  let (lo, hi) := if e.onlyEmpty then (Nat.min min 1, some (Nat.min (max.getD 1) 1)) else (min, max)
  if lo = 0 && hi = some 0 then .empty
  else if lo = 1 && hi = some 1 then e
  else .repetition lo hi greedy e

def Expr.mkSet (s : CharSet) : Expr :=
  match s.spans.toList with
  | [⟨lo, hi⟩] => if lo = hi then .char (Char.ofNat lo) else .set s
  | _ => .set s

def Expr.mkConcat (parts : List Expr) : Expr :=
  let flat := parts.flatMap fun
    | .concat inner => inner
    | .empty => []
    | e => [e]
  match flat with
  | [] => .empty
  | [e] => e
  | es => .concat es

/-- the characters of an expression that matches exactly one character -/
def Expr.single? : Expr → Option CharSet
  | .char c => some (CharSet.ofChar c.toNat)
  | .set s => some s
  | _ => none

/-- an alternation; branches of one character each form a class -/
def Expr.mkAlternation (branches : List Expr) : Expr :=
  let flat := branches.flatMap fun
    | .alternation inner => inner
    | e => [e]
  match flat with
  | [] => .set CharSet.empty
  | [e] => e
  | es =>
    match es.mapM Expr.single? with
    | some sets => .mkSet (CharSet.unionAll sets)
    | none => .alternation es

/-! ## flags -/

structure Flags where
  caseInsensitive : Bool := false
  multiLine : Bool := false
  dotMatchesNewline : Bool := false
  swapGreed : Bool := false
  unicode : Bool := true
  crlf : Bool := false
  deriving DecidableEq, Repr

def Flags.set (flags : Flags) (f : Flag) (on : Bool) : Flags :=
  match f with
  | .caseInsensitive => { flags with caseInsensitive := on }
  | .multiLine => { flags with multiLine := on }
  | .dotMatchesNewline => { flags with dotMatchesNewline := on }
  | .swapGreed => { flags with swapGreed := on }
  | .unicode => { flags with unicode := on }
  | .crlf => { flags with crlf := on }
  | .ignoreBlanks => flags

def Flags.apply (flags : Flags) (items : List FlagItem) : Flags :=
  (items.foldl step (flags, true)).1
where
  step : Flags × Bool → FlagItem → Flags × Bool
    | (fs, _), .minus => (fs, false)
    | (fs, on), .flag f => (fs.set f on, on)

/-! ## classes -/

def asciiSpans : AsciiClass → List Span
  | .alnum => [⟨48, 57⟩, ⟨65, 90⟩, ⟨97, 122⟩]
  | .alpha => [⟨65, 90⟩, ⟨97, 122⟩]
  | .ascii => [⟨0, 127⟩]
  | .blank => [⟨9, 9⟩, ⟨32, 32⟩]
  | .cntrl => [⟨0, 31⟩, ⟨127, 127⟩]
  | .digit => [⟨48, 57⟩]
  | .graph => [⟨33, 126⟩]
  | .lower => [⟨97, 122⟩]
  | .print => [⟨32, 126⟩]
  | .punct => [⟨33, 47⟩, ⟨58, 64⟩, ⟨91, 96⟩, ⟨123, 126⟩]
  | .space => [⟨9, 13⟩, ⟨32, 32⟩]
  | .upper => [⟨65, 90⟩]
  | .word => [⟨48, 57⟩, ⟨65, 90⟩, ⟨95, 95⟩, ⟨97, 122⟩]
  | .xdigit => [⟨48, 57⟩, ⟨65, 70⟩, ⟨97, 102⟩]

/-- the bytes -/
def bytes : CharSet := CharSet.ofSpans [⟨0, 255⟩]

/-- closes a set of bytes under the case of ASCII letters -/
def foldAscii (s : CharSet) : CharSet :=
  let letters := (List.range 26).flatMap fun i =>
    if s.contains (65 + i) || s.contains (97 + i) then [⟨65 + i, 65 + i⟩, ⟨97 + i, 97 + i⟩] else []
  s.union (CharSet.ofSpans letters)

/-- folds in case-insensitive mode -/
def Flags.fold (flags : Flags) (s : CharSet) : CharSet :=
  if !flags.caseInsensitive then s
  else if flags.unicode then Unicode.foldCase s
  else foldAscii s

/-- the complement among characters, or among bytes outside Unicode mode -/
def Flags.negate (flags : Flags) (negated : Bool) (s : CharSet) : CharSet :=
  if !negated then s
  else if flags.unicode then s.compl
  else bytes.diff s

def Flags.perlSet (flags : Flags) (cls : PerlClass) : CharSet :=
  match cls with
  | .digit => if flags.unicode then Unicode.digits else CharSet.ofSpans (asciiSpans .digit)
  | .space => if flags.unicode then Unicode.whiteSpace else CharSet.ofSpans (asciiSpans .space)
  | .word => if flags.unicode then Unicode.wordChars else CharSet.ofSpans (asciiSpans .word)

def Flags.propertySet (flags : Flags) (query : PropertyQuery) (negated : Bool) : Except PatternError CharSet :=
  if !flags.unicode then throw .needsUnicode
  else
    let found := match query with
      | .named name => (Unicode.named? name, negated)
      | .valued name value unequal => (Unicode.valued? name value, negated != unequal)
    match found with
    | (some s, neg) => return flags.negate neg (flags.fold s)
    | (none, _) => throw .unknownProperty

/-- the code of a character in a class; outside Unicode mode it has to be a byte -/
def Flags.classCode (flags : Flags) (l : Literal) : Except PatternError Nat :=
  if flags.unicode || l.char.toNat < 0x80 || l.twoDigitHex then return l.char.toNat
  else throw .needsUnicode

def SetOp.apply : SetOp → CharSet → CharSet → CharSet
  | .intersection, a, b => a.inter b
  | .difference, a, b => a.diff b
  | .symmetricDifference, a, b => a.symmDiff b

mutual
/-- the characters of a class item -/
def ClassSet.eval (flags : Flags) : ClassSet → Except PatternError CharSet
  | .empty => return CharSet.empty
  | .literal l => return CharSet.ofChar (← flags.classCode l)
  | .range lo hi => do
    let a ← flags.classCode lo
    let b ← flags.classCode hi
    return CharSet.ofSpans (CharSet.cutSurrogates ⟨a, b⟩)
  | .ascii cls negated => return flags.negate negated (flags.fold (CharSet.ofSpans (asciiSpans cls)))
  | .perl cls negated => return flags.negate negated (flags.perlSet cls)
  | .property query negated => flags.propertySet query negated
  | .bracketed negated set => return flags.negate negated (flags.fold (← set.eval flags))
  | .union items => do return CharSet.unionAll (← ClassSet.evalList flags items)
  | .op kind lhs rhs => do
    return kind.apply (flags.fold (← lhs.eval flags)) (flags.fold (← rhs.eval flags))

def ClassSet.evalList (flags : Flags) : List ClassSet → Except PatternError (List CharSet)
  | [] => return []
  | item :: rest => return (← item.eval flags) :: (← ClassSet.evalList flags rest)
end

/-- a class as an expression; outside Unicode mode it has to be within ASCII -/
def Flags.classExpr (flags : Flags) (s : CharSet) : Except PatternError Expr :=
  if !flags.unicode && !s.isAscii then throw .notUtf8 else return .mkSet s

/-! ## translation -/

/-- a single character, with its other cases in case-insensitive mode -/
def Flags.literalExpr (flags : Flags) (l : Literal) : Except PatternError Expr :=
  let c := l.char
  if flags.unicode then return .mkSet (flags.fold (CharSet.ofChar c.toNat))
  else if l.twoDigitHex && 0x80 ≤ c.toNat then throw .notUtf8
  else if c.toNat < 0x80 then return .mkSet (flags.fold (CharSet.ofChar c.toNat))
  else return .char c

def Flags.dotExpr (flags : Flags) : Except PatternError Expr :=
  if !flags.unicode then throw .notUtf8
  else if flags.dotMatchesNewline then return .set CharSet.all
  else if flags.crlf then return .set (CharSet.ofSpans [⟨10, 10⟩, ⟨13, 13⟩]).compl
  else return .set (CharSet.ofChar 10).compl

def Flags.look (flags : Flags) (a : Assertion) : Look :=
  let ascii := !flags.unicode
  match a with
  | .startLine => if !flags.multiLine then .textStart else if flags.crlf then .crlfStart else .lineStart
  | .endLine => if !flags.multiLine then .textEnd else if flags.crlf then .crlfEnd else .lineEnd
  | .startText => .textStart
  | .endText => .textEnd
  | .wordBoundary => .word ascii
  | .notWordBoundary => .notWord ascii
  | .wordStart => .wordStart ascii
  | .wordEnd => .wordEnd ascii
  | .wordStartHalf => .wordStartHalf ascii
  | .wordEndHalf => .wordEndHalf ascii

mutual
/-- the meaning of a pattern under the flags in force, and the flags in force after it -/
def translate (flags : Flags) : Ast → Except PatternError (Expr × Flags)
  | .empty => return (.empty, flags)
  | .setFlags items => return (.empty, flags.apply items)
  | .literal l => return (← flags.literalExpr l, flags)
  | .dot => return (← flags.dotExpr, flags)
  | .assertion a => return (.look (flags.look a), flags)
  | .perl cls negated => return (← flags.classExpr (flags.negate negated (flags.perlSet cls)), flags)
  | .property query negated => return (.mkSet (← flags.propertySet query negated), flags)
  | .cls negated set => do
    let s ← set.eval flags
    return (← flags.classExpr (flags.negate negated (flags.fold s)), flags)
  | .repetition min max greedy ast => do
    let (e, after) ← translate flags ast
    return (.mkRepetition min max (greedy != after.swapGreed) e, after)
  | .group kind ast =>
    match kind with
    | .capture index name => do
      let (e, _) ← translate flags ast
      return (.capture index name e, flags)
    | .flagged items => do
      let (e, _) ← translate (flags.apply items) ast
      return (e, flags)
  | .alternation branches => do
    let (es, after) ← translateList flags branches
    return (.mkAlternation es, after)
  | .concat parts => do
    let (es, after) ← translateList flags parts
    return (.mkConcat es, after)

def translateList (flags : Flags) : List Ast → Except PatternError (List Expr × Flags)
  | [] => return ([], flags)
  | ast :: rest => do
    let (e, after) ← translate flags ast
    let (es, last) ← translateList after rest
    return (e :: es, last)
end

end Gleaner.Regex
