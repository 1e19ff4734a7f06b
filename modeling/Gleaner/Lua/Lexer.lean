/-
The words of a Lua program. The program is given byte by byte, each byte as the character of that number; texts keep
the bytes as they are.
-/
import Gleaner.Lua.Syntax
import Gleaner.Lua.Number
import Gleaner.Text.Utf8

namespace Gleaner.Lua

inductive Word where
  | name (s : String)
  | keyword (s : String)
  | sign (s : String)
  | int (i : Int64)
  | float (f : Float)
  | text (s : Bytes)
  | eof
  deriving Inhabited

/-- a word and the line it ends on -/
structure Lexeme where
  line : Nat
  word : Word
  deriving Inhabited

/-- a program that is none, and the line where that shows -/
structure SyntaxError where
  line : Nat
  text : String

def toBytes (cs : List Char) : Bytes := ByteArray.mk (cs.map fun c => c.toNat.toUInt8).toArray

/-- bytes as characters of their numbers -/
def byteChars (b : Bytes) : List Char := b.toList.map fun x => Char.ofNat x.toNat

def ofText (s : String) : Bytes := s.toUTF8

def keywords : List String :=
  ["and", "break", "do", "else", "elseif", "end", "false", "for", "function", "goto", "if", "in", "local", "nil", "not",
   "or", "repeat", "return", "then", "true", "until", "while"]

/-- signs of several characters come before those they begin with -/
def signs : List String :=
  ["...", "..", "==", "~=", "<=", ">=", "//", "::", "<<", ">>", "+", "-", "*", "/", "%", "^", "#", "&", "~", "|", "<",
   ">", "=", "(", ")", "\x7b", "\x7d", "[", "]", ";", ":", ",", "."]

def isNameStart (c : Char) : Bool := c.isAlpha || c = '_'
def isNamePart (c : Char) : Bool := c.isAlphanum || c = '_'

/-- the level of a long bracket that opens here, and what stands behind it -/
def longOpen? (cs : List Char) : Option (Nat × List Char) :=
  match cs with
  | '[' :: rest =>
    let (marks, rest) := rest.span (· = '=')
    match rest with
    | '[' :: after => some (marks.length, after)
    | _ => none
  | _ => none

/-- what stands behind a long bracket of some level that closes here -/
def longClose? (level : Nat) (cs : List Char) : Option (List Char) :=
  match cs with
  | ']' :: rest =>
    let (marks, rest) := rest.span (· = '=')
    match rest with
    | ']' :: after => if marks.length = level then some after else none
    | _ => none
  | _ => none

/-- a line break of one or two characters -/
def lineBreak? : List Char → Option (List Char)
  | '\r' :: '\n' :: rest => some rest
  | '\n' :: '\r' :: rest => some rest
  | '\n' :: rest => some rest
  | '\r' :: rest => some rest
  | _ => none

/-- the inside of a long bracket, in reverse -/
def longInside (level : Nat) : Nat → List Char → Nat → List Char → Except SyntaxError (List Char × Nat × List Char)
  | 0, _, line, _ => .error ⟨line, "unfinished long bracket"⟩
  | fuel + 1, acc, line, cs =>
    match longClose? level cs with
    | some rest => .ok (acc, line, rest)
    | none =>
      match lineBreak? cs, cs with
      | some rest, _ => longInside level fuel ('\n' :: acc) (line + 1) rest
      | none, c :: rest => longInside level fuel (c :: acc) line rest
      | none, [] => .error ⟨line, "unfinished long bracket"⟩

/-- a long bracket, the first line break in it left out -/
def longText (level line : Nat) (cs : List Char) : Except SyntaxError (List Char × Nat × List Char) :=
  let (line, cs) := match lineBreak? cs with
    | some rest => (line + 1, rest)
    | none => (line, cs)
  (longInside level (cs.length + 1) [] line cs).map fun (acc, line, rest) => (acc.reverse, line, rest)

/-- bytes of a code point, also of those that are no characters -/
def utf8Bytes (n : Nat) : List Char :=
  let cont (k : Nat) : Char := Char.ofNat (0x80 + k % 64)
  if n < 0x80 then [Char.ofNat n]
  else if n < 0x800 then [Char.ofNat (0xC0 + n / 64), cont n]
  else if n < 0x10000 then [Char.ofNat (0xE0 + n / 4096), cont (n / 64), cont n]
  else if n < 0x200000 then [Char.ofNat (0xF0 + n / 262144), cont (n / 4096), cont (n / 64), cont n]
  else if n < 0x4000000 then
    [Char.ofNat (0xF8 + n / 16777216), cont (n / 262144), cont (n / 4096), cont (n / 64), cont n]
  else
    [Char.ofNat (0xFC + n / 1073741824), cont (n / 16777216), cont (n / 262144), cont (n / 4096), cont (n / 64), cont n]

/-- blanks and line breaks behind `\z` -/
def skipSpace : Nat → Nat → List Char → Nat × List Char
  | 0, line, cs => (line, cs)
  | fuel + 1, line, cs =>
    match lineBreak? cs, cs with
    | some rest, _ => skipSpace fuel (line + 1) rest
    | none, c :: rest => if isSpace c then skipSpace fuel line rest else (line, cs)
    | none, [] => (line, cs)

def simpleEscape? (c : Char) : Option Char :=
  match c with
  | 'a' => some '\x07'
  | 'b' => some '\x08'
  | 'f' => some '\x0c'
  | 'n' => some '\n'
  | 'r' => some '\r'
  | 't' => some '\t'
  | 'v' => some '\x0b'
  | '\\' => some '\\'
  | '"' => some '"'
  | '\'' => some '\''
  | _ => none

/-- a text up to its closing quote, in reverse -/
def quotedText (q : Char) : Nat → List Char → Nat → List Char → Except SyntaxError (List Char × Nat × List Char)
  | 0, _, line, _ => .error ⟨line, "unfinished string"⟩
  | fuel + 1, acc, line, cs =>
    match cs with
    | [] => .error ⟨line, "unfinished string"⟩
    | c :: rest =>
      if c = q then .ok (acc, line, rest)
      else if c = '\n' || c = '\r' then .error ⟨line, "unfinished string"⟩
      else if c ≠ '\\' then quotedText q fuel (c :: acc) line rest
      else
        match lineBreak? rest with
        | some after => quotedText q fuel ('\n' :: acc) (line + 1) after
        | none =>
          match rest with
          | 'x' :: a :: b :: after =>
            match hexValue? a, hexValue? b with
            | some x, some y => quotedText q fuel (Char.ofNat (x * 16 + y) :: acc) line after
            | _, _ => .error ⟨line, "hexadecimal digit expected"⟩
          | 'z' :: after =>
            let (line, after) := skipSpace (after.length + 1) line after
            quotedText q fuel acc line after
          | 'u' :: '\x7b' :: after =>
            let (digits, more) := after.span fun c => (hexValue? c).isSome
            match more with
            | '\x7d' :: more =>
              let n := digitsValue 16 digits
              if digits.isEmpty || n ≥ 2 ^ 31 then .error ⟨line, "UTF-8 value too large"⟩
              else quotedText q fuel ((utf8Bytes n).reverse ++ acc) line more
            | _ => .error ⟨line, "missing '\x7d' in \\u\x7bxxxx\x7d"⟩
          | e :: after =>
            match simpleEscape? e with
            | some x => quotedText q fuel (x :: acc) line after
            | none =>
              let digits := (rest.take 3).takeWhile Char.isDigit
              let n := digitsValue 10 digits
              if digits.isEmpty then .error ⟨line, "invalid escape sequence"⟩
              else if n > 255 then .error ⟨line, "decimal escape too large"⟩
              else quotedText q fuel (Char.ofNat n :: acc) line (rest.drop digits.length)
          | [] => .error ⟨line, "unfinished string"⟩

/-- the characters that a numeral goes on with -/
def numeralRun (hex : Bool) : List Char → List Char → List Char × List Char
  | acc, c :: s :: rest =>
    let isMark := if hex then c = 'p' || c = 'P' else c = 'e' || c = 'E'
    if isMark && (s = '+' || s = '-') then numeralRun hex (s :: c :: acc) rest
    else if c.isAlphanum || c = '.' || c = '_' then numeralRun hex (c :: acc) (s :: rest)
    else (acc.reverse, c :: s :: rest)
  | acc, [c] => if c.isAlphanum || c = '.' || c = '_' then ((c :: acc).reverse, []) else (acc.reverse, [c])
  | acc, [] => (acc.reverse, [])

/-- the next word -/
def nextWord : Nat → Nat → List Char → Except SyntaxError (Lexeme × List Char)
  | 0, line, _ => .ok (⟨line, .eof⟩, [])
  | fuel + 1, line, cs =>
    match lineBreak? cs with
    | some rest => nextWord fuel (line + 1) rest
    | none =>
      match cs with
      | [] => .ok (⟨line, .eof⟩, [])
      | '-' :: '-' :: rest =>
        match longOpen? rest with
        | some (level, inside) => do
          let (_, line, after) ← longText level line inside
          nextWord fuel line after
        | none => nextWord fuel line (rest.dropWhile fun c => c ≠ '\n' && c ≠ '\r')
      | c :: rest =>
        if isSpace c then nextWord fuel line rest
        else if isNameStart c then
          let (name, after) := cs.span isNamePart
          let s := String.ofList name
          .ok (⟨line, if keywords.contains s then .keyword s else .name s⟩, after)
        else if c.isDigit || (c = '.' && rest.head?.any Char.isDigit) then
          let hex := c = '0' && rest.head?.any fun x => x = 'x' || x = 'X'
          let (numeral, after) := numeralRun hex [] cs
          match readNumeral? numeral with
          | some (.int i) => .ok (⟨line, .int i⟩, after)
          | some (.float f) => .ok (⟨line, .float f⟩, after)
          | none => .error ⟨line, "malformed number"⟩
        else if c = '"' || c = '\'' then do
          let (acc, line, after) ← quotedText c (rest.length + 1) [] line rest
          return (⟨line, .text (toBytes acc.reverse)⟩, after)
        else
          match longOpen? cs with
          | some (level, inside) => do
            let (text, line, after) ← longText level line inside
            return (⟨line, .text (toBytes text)⟩, after)
          | none =>
            match signs.find? fun s => s.toList.isPrefixOf cs with
            | some s => .ok (⟨line, .sign s⟩, cs.drop s.length)
            | none => .error ⟨line, "unexpected symbol"⟩

/-- all words, the last being the end -/
def wordsFrom : Nat → Nat → Array Lexeme → List Char → Except SyntaxError (Array Lexeme)
  | 0, line, acc, _ => .ok (acc.push ⟨line, .eof⟩)
  | fuel + 1, line, acc, cs => do
    let (lexeme, rest) ← nextWord (cs.length + 1) line cs
    match lexeme.word with
    | .eof => return acc.push lexeme
    | _ => wordsFrom fuel lexeme.line (acc.push lexeme) rest

def words (cs : List Char) : Except SyntaxError (List Lexeme) :=
  (wordsFrom (cs.length + 1) 1 #[] cs).map Array.toList

end Gleaner.Lua
