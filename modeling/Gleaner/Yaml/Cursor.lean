/-
A place in a YAML text, and the characters that matter for its layout. Five characters end a line; a carriage return
and a line feed together end one line.
-/

namespace Gleaner.Yaml

/-- why a text is no YAML document -/
inductive YamlError where
  | forbiddenCharacter
  | badDirective
  | badAnchor
  | badTag
  | badBlockHeader
  | tabInIndentation
  | badEscape
  | unterminatedText
  | colonInPlainText
  | unexpectedCharacter
  | misplacedEntry
  | misplacedKey
  | misplacedValue
  | keyWithoutValue
  | unexpectedToken
  | undefinedTagHandle
  | unknownAnchor
  | keyNotText
  | tooManyAliases
  | severalDocuments
  deriving DecidableEq, Repr

structure Cursor where
  rest : List Char
  index : Nat := 0
  line : Nat := 0
  column : Nat := 0

def isBreak (c : Char) : Bool :=
  c = '\n' || c = '\r' || c.toNat = 0x85 || c.toNat = 0x2028 || c.toNat = 0x2029

def isBlank (c : Char) : Bool := c = ' ' || c = '\t'

/-- letters of names: Latin letters, digits, `_` and `-` -/
def isNameChar (c : Char) : Bool := c.isAlphanum || c = '_' || c = '-'

/-- the characters a document may hold -/
def isAllowed (c : Char) : Bool :=
  let n := c.toNat
  n = 0x09 || n = 0x0A || n = 0x0D || (0x20 ≤ n && n ≤ 0x7E) || n = 0x85 || (0xA0 ≤ n && n ≤ 0xD7FF) ||
    (0xE000 ≤ n && n ≤ 0xFFFD) || 0x10000 ≤ n

/-- end of the text, a line break or a blank -/
def isGap (c : Option Char) : Bool := c.all fun c => isBlank c || isBreak c

/-- end of the text or a line break -/
def isLineEnd (c : Option Char) : Bool := c.all isBreak

namespace Cursor

def peek (c : Cursor) : Option Char := c.rest.head?

/-- the character some places further on -/
def peekAt (c : Cursor) (n : Nat) : Option Char := c.rest[n]?

def is (c : Cursor) (x : Char) : Bool := c.peek == some x

/-- moves on within the line -/
def skip (c : Cursor) (n : Nat) : Cursor :=
  { c with rest := c.rest.drop n, index := c.index + n, column := c.column + n }

/-- the characters up to the first that fails a test, and the place behind them -/
def takeWhile (c : Cursor) (p : Char → Bool) : List Char × Cursor :=
  let (taken, rest) := c.rest.span p
  (taken, { c with rest := rest, index := c.index + taken.length, column := c.column + taken.length })

def skipWhile (c : Cursor) (p : Char → Bool) : Cursor := (c.takeWhile p).2

/-- the place behind a line break, and the break as it counts in a text -/
def lineBreak? (c : Cursor) : Option (Char × Cursor) :=
  let next (n : Nat) : Cursor := { rest := c.rest.drop n, index := c.index + n, line := c.line + 1, column := 0 }
  match c.rest with
  | '\r' :: '\n' :: _ => some ('\n', next 2)
  | x :: _ =>
    if x = '\n' || x = '\r' || x.toNat = 0x85 then some ('\n', next 1)
    else if isBreak x then some (x, next 1)
    else none
  | [] => none

/-- whether a line starts here with three dashes or three dots and nothing right behind them -/
def atDocumentMark (c : Cursor) (mark : Char) : Bool :=
  c.column = 0 && c.rest.take 3 = [mark, mark, mark] && isGap (c.peekAt 3)

def atAnyDocumentMark (c : Cursor) : Bool := c.atDocumentMark '-' || c.atDocumentMark '.'

end Cursor

end Gleaner.Yaml
