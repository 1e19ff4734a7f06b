/-
Reading of patterns.

The reader is a recursive descent over the characters left. In the mode that ignores blanks, white space and comments
are skipped wherever two tokens meet, classes included, but never between an operator and the mark that makes it lazy.
Fuel is the length of the pattern: every nested group, class and item takes at least one character.
-/
import Gleaner.Regex.Syntax
import Gleaner.Unicode.Property

namespace Gleaner.Regex

/-- what is left to read, the mode, and the capture groups opened so far -/
structure Cursor where
  rest : List Char
  ignoreBlanks : Bool := false
  groups : Nat := 0
  names : List String := []

abbrev Parse := StateT Cursor (Except PatternError)

def isBlankChar (c : Char) : Bool := Unicode.whiteSpace.contains c.toNat

/-- drops white space and comments; a comment runs to the end of its line -/
def dropBlanks : Bool → List Char → List Char
  | _, [] => []
  | true, c :: rest => dropBlanks (c != '\n') rest
  | false, c :: rest =>
    if isBlankChar c then dropBlanks false rest
    else if c = '#' then dropBlanks true rest
    else c :: rest

namespace Parse

def fail {α : Type} (e : PatternError) : Parse α := throw e

def skipBlanks : Parse Unit :=
  modify fun s => if s.ignoreBlanks then { s with rest := dropBlanks false s.rest } else s

def peek? : Parse (Option Char) := return (← get).rest.head?

/-- the character after the next one -/
def peekSecond? : Parse (Option Char) := return (← get).rest[1]?

/-- the character after the next one, blanks apart; a comment counts only up to its mark -/
def peekSecondSpaced? : Parse (Option Char) := do
  let s ← get
  if s.ignoreBlanks then
    let after := (s.rest.drop 1).dropWhile isBlankChar
    match after with
    | '#' :: more => return (more.dropWhile isBlankChar).head?
    | _ => return after.head?
  else return s.rest[1]?

def bump : Parse Unit := modify fun s => { s with rest := s.rest.drop 1 }

def bumpSkip : Parse Unit := do bump; skipBlanks

def atEnd : Parse Bool := return (← get).rest.isEmpty

/-- takes a fixed text, if it comes next -/
def accept (text : String) : Parse Bool := do
  let s ← get
  if text.toList.isPrefixOf s.rest then
    set { s with rest := s.rest.drop text.length }
    return true
  else return false

/-- the next character, or an error at the end -/
def next (e : PatternError) : Parse Char := do
  match ← peek? with
  | some c => return c
  | none => fail e

end Parse

open Parse

/-- the characters that stand for themselves only behind a backslash -/
def isMeta (c : Char) : Bool :=
  "\\.+*?()|[]\x7b\x7d^$#&-~".toList.contains c

/-- the characters a backslash leaves as they are: ASCII marks other than the angles -/
def isEscapable (c : Char) : Bool :=
  isMeta c || (c.toNat < 0x80 && !c.isAlphanum && c != '<' && c != '>')

def hexDigit? (c : Char) : Option Nat :=
  if '0' ≤ c ∧ c ≤ '9' then some (c.toNat - '0'.toNat)
  else if 'a' ≤ c ∧ c ≤ 'f' then some (c.toNat - 'a'.toNat + 10)
  else if 'A' ≤ c ∧ c ≤ 'F' then some (c.toNat - 'A'.toNat + 10)
  else none

/-- the character with a code, unless it is a surrogate or out of range -/
def scalar? (n : Nat) : Option Char :=
  if h : n.isValidChar then some (Char.ofNatAux n h) else none

/-- exactly `count` more hexadecimal digits -/
def hexDigits : Nat → Nat → Parse Nat
  | 0, value => return value
  | count + 1, value => do
    let c ← next .badEscape
    match hexDigit? c with
    | none => fail .badHex
    | some d =>
      bumpSkip
      hexDigits count (value * 16 + d)

/-- hexadecimal digits up to the closing brace; `none` when there are none -/
def hexUntilBrace : Nat → Option Nat → Parse (Option Nat)
  | 0, _ => fail .badHex
  | fuel + 1, value => do
    let c ← next .badEscape
    if c = '\x7d' then return value
    match hexDigit? c with
    | none => fail .badHex
    | some d =>
      bumpSkip
      hexUntilBrace fuel (some (min (value.getD 0 * 16 + d) 0x110000))

/-- a character given by its code, the letter after the backslash being `kind` -/
def parseHex (kind : Char) : Parse Literal := do
  bumpSkip
  let c ← next .badEscape
  if c = '\x7b' then
    bumpSkip
    let value ← hexUntilBrace ((← get).rest.length + 1) none
    bumpSkip
    match value.bind scalar? with
    | some ch => return { char := ch }
    | none => fail .badHex
  else
    let count := if kind = 'x' then 2 else if kind = 'u' then 4 else 8
    let value ← hexDigits count 0
    match scalar? value with
    | some ch => return { char := ch, twoDigitHex := kind = 'x' }
    | none => fail .badHex

/-- splits a property at the first of its separators -/
def splitProperty (name : List Char) : PropertyQuery :=
  let text (cs : List Char) := String.ofList cs
  match findPair name with
  | some (before, after) => .valued (text before) (text after) true
  | none =>
    match name.span (· != ':') with
    | (before, _ :: after) => .valued (text before) (text after) false
    | (_, []) =>
      match name.span (· != '=') with
      | (before, _ :: after) => .valued (text before) (text after) false
      | (_, []) => .named (text name)
where
  findPair : List Char → Option (List Char × List Char)
    | '!' :: '=' :: rest => some ([], rest)
    | c :: rest => (findPair rest).map fun (before, after) => (c :: before, after)
    | [] => none

/-- the name of a property up to the closing brace -/
def propertyName : Nat → Parse (List Char)
  | 0 => fail .badEscape
  | fuel + 1 => do
    let c ← next .badEscape
    if c = '\x7d' then return []
    bumpSkip
    return c :: (← propertyName fuel)

def parseProperty : Parse PropertyQuery := do
  bumpSkip
  let c ← next .badEscape
  if c = '\x7b' then
    bumpSkip
    let name ← propertyName ((← get).rest.length + 1)
    bump
    return splitProperty name
  else if c = '\\' then fail .badEscape
  else
    bumpSkip
    return .named c.toString

/-- what an escape can stand for -/
inductive Primitive where
  | literal (l : Literal)
  | assertion (a : Assertion)
  | dot
  | perl (cls : PerlClass) (negated : Bool)
  | property (query : PropertyQuery) (negated : Bool)

def isBoundaryChar (c : Char) : Bool := c.isAlpha || c = '-'

/-- the letters of a named word boundary -/
def boundaryName : Nat → Parse (List Char)
  | 0 => return []
  | fuel + 1 => do
    match ← peek? with
    | some c =>
      if isBoundaryChar c then
        bumpSkip
        return c :: (← boundaryName fuel)
      else return []
    | none => return []

/-- a word boundary, possibly with a name in braces; braces around anything but a name are left to be read as a
repetition -/
def parseWordBoundary : Parse Assertion := do
  if (← peek?) != some '\x7b' then return .wordBoundary
  let before ← get
  bumpSkip
  let c ← next .badWordBoundary
  if !isBoundaryChar c then
    set before
    return .wordBoundary
  let name ← boundaryName ((← get).rest.length + 1)
  if (← peek?) != some '\x7d' then fail .badWordBoundary
  bump
  match String.ofList name with
  | "start" => return .wordStart
  | "end" => return .wordEnd
  | "start-half" => return .wordStartHalf
  | "end-half" => return .wordEndHalf
  | _ => fail .badWordBoundary

def parseEscape : Parse Primitive := do
  bump
  let c ← next .badEscape
  if c.isDigit then fail .backReference
  else if c = 'x' || c = 'u' || c = 'U' then return .literal (← parseHex c)
  else if c = 'p' || c = 'P' then return .property (← parseProperty) (c = 'P')
  else
    bump
    let plain (ch : Char) : Parse Primitive := return .literal { char := ch }
    if isEscapable c then plain c
    else match c with
    | 'd' => return .perl .digit false
    | 'D' => return .perl .digit true
    | 's' => return .perl .space false
    | 'S' => return .perl .space true
    | 'w' => return .perl .word false
    | 'W' => return .perl .word true
    | 'a' => plain '\x07'
    | 'f' => plain '\x0c'
    | 't' => plain '\t'
    | 'n' => plain '\n'
    | 'r' => plain '\r'
    | 'v' => plain '\x0b'
    | 'A' => return .assertion .startText
    | 'z' => return .assertion .endText
    | 'b' => return .assertion (← parseWordBoundary)
    | 'B' => return .assertion .notWordBoundary
    | '<' => return .assertion .wordStart
    | '>' => return .assertion .wordEnd
    | _ => fail .badEscape

def parsePrimitive : Parse Primitive := do
  match ← next .badEscape with
  | '\\' => parseEscape
  | '.' => bump; return .dot
  | '^' => bump; return .assertion .startLine
  | '$' => bump; return .assertion .endLine
  | c => bump; return .literal { char := c }

def Primitive.toAst : Primitive → Ast
  | .literal l => .literal l
  | .assertion a => .assertion a
  | .dot => .dot
  | .perl cls negated => .perl cls negated
  | .property query negated => .property query negated

/-! ## classes -/

def asciiClass? : String → Option AsciiClass
  | "alnum" => some .alnum
  | "alpha" => some .alpha
  | "ascii" => some .ascii
  | "blank" => some .blank
  | "cntrl" => some .cntrl
  | "digit" => some .digit
  | "graph" => some .graph
  | "lower" => some .lower
  | "print" => some .print
  | "punct" => some .punct
  | "space" => some .space
  | "upper" => some .upper
  | "word" => some .word
  | "xdigit" => some .xdigit
  | _ => none

/-- a class such as `[:alpha:]`; anything else is left unread -/
def parseAsciiClass? : Parse (Option ClassSet) := do
  let s ← get
  match s.rest with
  | '[' :: ':' :: rest =>
    let (negated, rest) := match rest with
      | '^' :: more => (true, more)
      | _ => (false, rest)
    let (name, after) := rest.span (· != ':')
    match after, asciiClass? (String.ofList name) with
    | ':' :: ']' :: more, some cls =>
      set { s with rest := more }
      return some (.ascii cls negated)
    | _, _ => return none
  | _ => return none

def parseClassItem : Parse Primitive := do
  match ← next .unclosedClass with
  | '\\' => parseEscape
  | c => bump; return .literal { char := c }

def Primitive.toClassSet : Primitive → Parse ClassSet
  | .literal l => return .literal l
  | .perl cls negated => return .perl cls negated
  | .property query negated => return .property query negated
  | .assertion _ => fail .badClassItem
  | .dot => fail .badClassItem

def Primitive.toBound : Primitive → Parse Literal
  | .literal l => return l
  | _ => fail .badClassRange

/-- an item of a class or a range of characters; a minus sign before a bracket or another minus sign makes no range -/
def parseClassRange : Parse ClassSet := do
  let first ← parseClassItem
  skipBlanks
  let c ← next .unclosedClass
  let second ← peekSecondSpaced?
  if c != '-' || second = some ']' || second = some '-' then first.toClassSet
  else
    bumpSkip
    if ← atEnd then fail .unclosedClass
    let last ← parseClassItem
    let lo ← first.toBound
    let hi ← last.toBound
    if hi.char < lo.char then fail .badClassRange
    return .range lo hi

/-- the minus signs at the start of a class stand for themselves -/
def leadingMinuses : Nat → Parse (List ClassSet)
  | 0 => return []
  | fuel + 1 => do
    if (← next .unclosedClass) = '-' then
      bumpSkip
      return .literal { char := '-' } :: (← leadingMinuses fuel)
    else return []

/-- reads the opening of a class: its negation and the items that stand for themselves only there -/
def openClass : Parse (Bool × List ClassSet) := do
  bumpSkip
  let negated := (← next .unclosedClass) = '^'
  if negated then bumpSkip
  let minuses ← leadingMinuses ((← get).rest.length + 1)
  if minuses.isEmpty && (← next .unclosedClass) = ']' then
    bumpSkip
    if ← atEnd then fail .unclosedClass
    return (negated, [.literal { char := ']' }])
  return (negated, minuses)

/-- closes the pending set operation, if there is one -/
def closeOp (pending : Option (SetOp × ClassSet)) (rhs : ClassSet) : ClassSet :=
  match pending with
  | none => rhs
  | some (kind, lhs) => .op kind lhs rhs

/-- reads a class up to its closing bracket. The items since the last operation are kept in reverse. -/
def classBody : Nat → Option (SetOp × ClassSet) → List ClassSet → Parse ClassSet
  | 0, _, _ => fail .unclosedClass
  | fuel + 1, pending, items => do
    skipBlanks
    let c ← next .unclosedClass
    let doubled := (← peekSecond?) = some c
    let operate (kind : SetOp) : Parse ClassSet := do
      bump; bump
      classBody fuel (some (kind, closeOp pending (ClassSet.ofItems items.reverse))) []
    if c = '[' then
      match ← parseAsciiClass? with
      | some cls => classBody fuel pending (cls :: items)
      | none =>
        let (negated, first) ← openClass
        let inner ← classBody fuel none first.reverse
        classBody fuel pending (.bracketed negated inner :: items)
    else if c = ']' then
      bump
      return closeOp pending (ClassSet.ofItems items.reverse)
    else if c = '&' && doubled then operate .intersection
    else if c = '-' && doubled then operate .difference
    else if c = '~' && doubled then operate .symmetricDifference
    else
      let item ← parseClassRange
      classBody fuel pending (item :: items)

def parseClass : Parse Ast := do
  let (negated, first) ← openClass
  let set ← classBody ((← get).rest.length + 1) none first.reverse
  return .cls negated set

/-! ## groups and repetitions -/

def flagOf? : Char → Option Flag
  | 'i' => some .caseInsensitive
  | 'm' => some .multiLine
  | 's' => some .dotMatchesNewline
  | 'U' => some .swapGreed
  | 'u' => some .unicode
  | 'R' => some .crlf
  | 'x' => some .ignoreBlanks
  | _ => none

/-- the flags up to a colon or a parenthesis; none may come twice and the minus sign may not come last -/
def parseFlags : Nat → List FlagItem → Parse (List FlagItem)
  | 0, _ => fail .badFlags
  | fuel + 1, items => do
    let c ← next .badFlags
    if c = ':' || c = ')' then
      if items.getLast? = some .minus then fail .badFlags
      return items
    let item ← if c = '-' then pure FlagItem.minus else
      match flagOf? c with
      | some f => pure (FlagItem.flag f)
      | none => fail .badFlags
    if items.contains item then fail .badFlags
    bump
    parseFlags fuel (items ++ [item])

def isNameStart (c : Char) : Bool := c = '_' || Unicode.alphabetic.contains c.toNat

def isNameChar (c : Char) : Bool :=
  isNameStart c || c = '.' || c = '[' || c = ']' || Unicode.numbers.contains c.toNat

/-- the name of a group and the angle that closes it -/
def parseGroupName : Parse String := do
  let s ← get
  match s.rest.span (· != '>') with
  | (name, _ :: rest) =>
    match name with
    | [] => fail .badGroupName
    | first :: others =>
      if !isNameStart first || !others.all isNameChar then fail .badGroupName
      let text := String.ofList name
      if s.names.contains text then fail .duplicateGroupName
      set { s with rest := rest, names := text :: s.names }
      return text
  | (_, []) => fail .badGroupName

/-- what follows an opening parenthesis: flags for the rest of the enclosing group, or the kind of a new group -/
def openGroup : Parse (List FlagItem ⊕ GroupKind) := do
  bump
  skipBlanks
  for ahead in ["?=", "?!", "?<=", "?<!"] do
    if ← accept ahead then fail .lookAround
  let capture (name : Option String) : Parse (List FlagItem ⊕ GroupKind) := do
    let s ← get
    set { s with groups := s.groups + 1 }
    return .inr (.capture (s.groups + 1) name)
  if (← accept "?P<") || (← accept "?<") then
    let s ← get
    set { s with groups := s.groups + 1 }
    let name ← parseGroupName
    return .inr (.capture (s.groups + 1) (some name))
  else if ← accept "?" then
    let flags ← parseFlags ((← get).rest.length + 1) []
    let closer ← next .unclosedGroup
    bump
    if closer = ')' then
      if flags.isEmpty then fail .missingOperand
      return .inl flags
    return .inr (.flagged flags)
  else capture none

/-- decimal digits with blanks around them; `none` when there are none -/
def parseDecimal? : Parse (Option Nat) := do
  modify fun s => { s with rest := s.rest.dropWhile isBlankChar }
  let digits ← decimalDigits ((← get).rest.length + 1)
  modify fun s => { s with rest := s.rest.dropWhile isBlankChar }
  skipBlanks
  if digits.isEmpty then return none
  let value := digits.foldl (fun n c => n * 10 + (c.toNat - '0'.toNat)) 0
  if value ≥ 1 <<< 32 then fail .badRepetition
  return some value
where
  decimalDigits : Nat → Parse (List Char)
    | 0 => return []
    | fuel + 1 => do
      match ← peek? with
      | some c =>
        if c.isDigit then
          bumpSkip
          return c :: (← decimalDigits fuel)
        else return []
      | none => return []

/-- the operand of a repetition is the last part read; flags and nothing cannot be repeated -/
def popOperand (parts : List Ast) : Parse (Ast × List Ast) :=
  match parts with
  | [] => fail .missingOperand
  | .empty :: _ => fail .missingOperand
  | .setFlags _ :: _ => fail .missingOperand
  | ast :: rest => return (ast, rest)

/-- a question mark right behind an operator makes it lazy -/
def parseGreedy : Parse Bool := do
  if (← peek?) = some '?' then
    bump
    return false
  return true

def parseRepeatMark (c : Char) (parts : List Ast) : Parse (List Ast) := do
  let (ast, rest) ← popOperand parts
  bump
  let greedy ← parseGreedy
  let (min, max) := if c = '?' then (0, some 1) else if c = '*' then (0, none) else (1, none)
  return .repetition min max greedy ast :: rest

def parseCounted (parts : List Ast) : Parse (List Ast) := do
  let (ast, rest) ← popOperand parts
  bumpSkip
  if ← atEnd then fail .badRepetition
  let some min ← parseDecimal? | fail .badRepetition
  let c ← next .badRepetition
  let max ← if c = ',' then
      bumpSkip
      if (← next .badRepetition) = '\x7d' then pure none
      else
        let some max ← parseDecimal? | fail .badRepetition
        pure (some max)
    else pure (some min)
  if (← next .badRepetition) != '\x7d' then fail .badRepetition
  bumpSkip
  let greedy ← parseGreedy
  if max.any (· < min) then fail .badRepetition
  return .repetition min max greedy ast :: rest

/-- reads alternatives up to the end or to the parenthesis that closes the group around them, which is left unread.
Finished branches and the parts of the current one are kept in reverse. -/
def parseBranches : Nat → List Ast → List Ast → Parse Ast
  | 0, _, _ => fail .nestedTooDeeply
  | fuel + 1, branches, parts => do
    skipBlanks
    match ← peek? with
    | none => return close branches parts
    | some ')' => return close branches parts
    | some '|' =>
      bump
      parseBranches fuel (Ast.ofParts parts.reverse :: branches) []
    | some '(' =>
      match ← openGroup with
      | .inl flags =>
        modify fun s => { s with ignoreBlanks := (flagState .ignoreBlanks flags).getD s.ignoreBlanks }
        parseBranches fuel branches (.setFlags flags :: parts)
      | .inr kind =>
        let outer := (← get).ignoreBlanks
        if let .flagged flags := kind then
          modify fun s => { s with ignoreBlanks := (flagState .ignoreBlanks flags).getD outer }
        let inner ← parseBranches fuel [] []
        if ← atEnd then fail .unclosedGroup
        modify fun s => { s with ignoreBlanks := outer }
        bump
        parseBranches fuel branches (.group kind inner :: parts)
    | some '[' =>
      let cls ← parseClass
      parseBranches fuel branches (cls :: parts)
    | some '\x7b' => parseBranches fuel branches (← parseCounted parts)
    | some c =>
      if c = '?' || c = '*' || c = '+' then parseBranches fuel branches (← parseRepeatMark c parts)
      else
        let primitive ← parsePrimitive
        parseBranches fuel branches (primitive.toAst :: parts)
where
  close (branches parts : List Ast) : Ast :=
    if branches.isEmpty then Ast.ofParts parts.reverse
    else Ast.ofBranches (Ast.ofParts parts.reverse :: branches).reverse

/-- patterns nested more deeply than this are refused -/
def nestLimit : Nat := 250

/-- the syntax tree of a pattern -/
def parse (pattern : String) : Except PatternError Ast := do
  let chars := pattern.toList
  let (ast, cursor) ← (parseBranches (chars.length + 1) [] []).run { rest := chars }
  if !cursor.rest.isEmpty then throw .unopenedGroup
  if ast.depth > nestLimit then throw .nestedTooDeeply
  return ast

end Gleaner.Regex
