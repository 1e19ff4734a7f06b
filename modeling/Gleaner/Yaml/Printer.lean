/-
The YAML text of a tree of texts, lists and tables.

Tables and lists stand in block form, a list at the column of its table; empty ones are written with brackets. A text
is plain where that reads back as the same text, and in single quotes where it would read as a null, a truth value or a
number or begins or ends like something else. A text of several lines is a block of lines, and one that holds
characters that cannot be written is in double quotes. Lines are never folded.
-/
import Gleaner.Document.Tree
import Gleaner.Yaml.Cursor

namespace Gleaner.Yaml

/-! ## Texts that read as something else -/

def isNullWord (s : String) : Bool := s.isEmpty || s = "null" || s = "Null" || s = "NULL" || s = "~"

def isBoolWord (s : String) : Bool :=
  s = "true" || s = "True" || s = "TRUE" || s = "false" || s = "False" || s = "FALSE"

/-- drops one sign -/
def dropSign : List Char → List Char
  | '+' :: rest => rest
  | '-' :: rest => rest
  | cs => cs

/-- digits only, the first of several being 0 -/
def isZeroPadded (cs : List Char) : Bool :=
  let cs := dropSign cs
  cs.length > 1 && cs.head? = some '0' && cs.all Char.isDigit

def digitValue? (base : Nat) (c : Char) : Option Nat :=
  let n := c.toNat
  let v? :=
    if c.isDigit then some (n - 48)
    else if 'a' ≤ c && c ≤ 'z' then some (n - 87)
    else if 'A' ≤ c && c ≤ 'Z' then some (n - 55)
    else none
  v?.filter (· < base)

/-- the number some digits write -/
def numeral? (base : Nat) (cs : List Char) : Option Nat :=
  if cs.isEmpty then none
  else cs.foldl (fun n c => do return (← n) * base + (← digitValue? base c)) (some 0)

/-- the digits behind a mark for a base other than ten -/
def baseDigits? (cs : List Char) : Option (Nat × List Char) :=
  match cs with
  | '0' :: 'x' :: rest => some (16, rest)
  | '0' :: 'o' :: rest => some (8, rest)
  | '0' :: 'b' :: rest => some (2, rest)
  | _ => none

/-- integers of 128 bits, in any of the bases -/
def isInteger (cs : List Char) : Bool :=
  let negative := cs.head? = some '-'
  let limit := if negative then (1 <<< 127) + 1 else 1 <<< 128
  let digits := dropSign cs
  match baseDigits? digits with
  | some (base, rest) => (numeral? base rest).any (· < limit)
  | none => !isZeroPadded cs && (numeral? 10 digits).any (· < limit)

/-- whether `mantissa · 10 ^ exponent` is below the least number that rounds to infinity -/
def isFinite (mantissa : Nat) (exponent : Int) : Bool :=
  let size : Int := (Nat.toDigits 10 mantissa).length + exponent
  if mantissa = 0 || size < 300 then true
  else if size > 310 then false
  else
    let limit := (1 <<< 1024) - (1 <<< 970)
    if exponent ≥ 0 then mantissa * Nat.pow 10 exponent.toNat < limit
    else mantissa < limit * Nat.pow 10 (-exponent).toNat

/-- the digits of an exponent; no mark stands for 0 -/
def exponent? (cs : List Char) : Option Int :=
  match cs with
  | [] => some 0
  | c :: rest =>
    if c = 'e' || c = 'E' then
      (numeral? 10 (dropSign rest)).map fun n => if rest.head? = some '-' then -(n : Int) else n
    else none

/-- decimal numbers that are not too large -/
def isDecimal (cs : List Char) : Bool :=
  let (whole, rest) := (dropSign cs).span Char.isDigit
  let (fraction, rest) := match rest with
    | '.' :: rest => rest.span Char.isDigit
    | _ => ([], rest)
  match exponent? rest, numeral? 10 (whole ++ fraction) with
  | some e, some m => isFinite m (e - fraction.length)
  | _, _ => false

def isFloatWord (s : String) : Bool :=
  [".inf", ".Inf", ".INF", "+.inf", "+.Inf", "+.INF", "-.inf", "-.Inf", "-.INF", ".nan", ".NaN", ".NAN"].contains s

/-- whether a plain text would be read as something else than a text -/
def readsOtherwise (s : String) : Bool :=
  let cs := s.toList
  isNullWord s || isBoolWord s || isInteger cs || isZeroPadded cs || isFloatWord s || isDecimal cs

/-! ## Styles -/

/-- characters that are written as they are -/
def isPrintable (c : Char) : Bool :=
  let n := c.toNat
  n = 0x0A || (0x20 ≤ n && n ≤ 0x7E) || (0xA0 ≤ n && n ≠ 0xFEFF && n ≠ 0xFFFE && n ≠ 0xFFFF)

/-- whether a character ends or begins a word of YAML where it stands -/
def isIndicatorAt (first afterGap beforeGap : Bool) (c : Char) : Bool :=
  if first then
    "#,[]\x7b\x7d&*!|>'\"%@\x60".contains c || ("?:-".contains c && beforeGap)
  else (c = ':' && beforeGap) || (c = '#' && afterGap)

/-- whether an indicator occurs, the text before being empty or ending with `last` -/
def hasIndicator : Option Char → List Char → Bool
  | _, [] => false
  | last, c :: rest => isIndicatorAt last.isNone (isGap last) (isGap rest.head?) c || hasIndicator (some c) rest

/-- whether one kind of character stands right before another -/
def hasPair (p q : Char → Bool) : List Char → Bool
  | a :: b :: rest => (p a && q b) || hasPair p q (b :: rest)
  | _ => false

inductive Style where
  | plain
  | singleQuoted
  | doubleQuoted
  | block
  deriving DecidableEq, Repr

def isSpace (c : Char) : Bool := c = ' '

def style (s : String) : Style :=
  let cs := s.toList
  let needsEscapes := cs.any (!isPrintable ·) || hasPair isSpace isBreak cs
  let edge (p : Char → Bool) : Bool := cs.head?.any p || cs.getLast?.any p
  if cs.contains '\n' then
    if needsEscapes || cs.getLast? = some ' ' then .doubleQuoted else .block
  else if needsEscapes || hasPair isBreak isSpace cs then .doubleQuoted
  else if readsOtherwise s || edge isSpace || cs.any isBreak || hasIndicator none cs ||
      cs.take 3 = ['-', '-', '-'] || cs.take 3 = ['.', '.', '.'] then .singleQuoted
  else .plain

/-! ## Writing -/

def hexDigits (width n : Nat) : List Char :=
  let digits := (Nat.toDigits 16 n).map Char.toUpper
  List.replicate (width - digits.length) '0' ++ digits

/-- the escaped form of a character in double quotes -/
def escapeChar (c : Char) : List Char :=
  let n := c.toNat
  match n with
  | 0x00 => ['\\', '0']
  | 0x07 => ['\\', 'a']
  | 0x08 => ['\\', 'b']
  | 0x09 => ['\\', 't']
  | 0x0A => ['\\', 'n']
  | 0x0B => ['\\', 'v']
  | 0x0C => ['\\', 'f']
  | 0x0D => ['\\', 'r']
  | 0x1B => ['\\', 'e']
  | 0x22 => ['\\', '"']
  | 0x5C => ['\\', '\\']
  | 0x85 => ['\\', 'N']
  | 0xA0 => ['\\', '_']
  | 0x2028 => ['\\', 'L']
  | 0x2029 => ['\\', 'P']
  | _ =>
    if n ≤ 0xFF then '\\' :: 'x' :: hexDigits 2 n
    else if n ≤ 0xFFFF then '\\' :: 'u' :: hexDigits 4 n
    else '\\' :: 'U' :: hexDigits 8 n

def doubleQuoted (cs : List Char) : List Char :=
  '"' :: cs.flatMap (fun c => if isPrintable c && !isBreak c && c ≠ '"' && c ≠ '\\' then [c] else escapeChar c) ++ ['"']

def indentation (n : Nat) : List Char := List.replicate n ' '

/-- the lines of a text, each indented; `fresh` tells whether a line begins here -/
def indentLines (indent : Nat) : Bool → List Char → List Char
  | _, [] => []
  | fresh, c :: rest =>
    if isBreak c then c :: indentLines indent true rest
    else (if fresh then indentation indent else []) ++ c :: indentLines indent false rest

/-- a text in single quotes; what follows a line break is indented -/
def singleQuoted (indent : Nat) (cs : List Char) : List Char :=
  let inside := indentLines indent false (cs.flatMap fun c => if c = '\'' then ['\'', '\''] else [c])
  let tail := if cs.getLast?.any isBreak then indentation indent else []
  '\'' :: inside ++ tail ++ ['\'']

/-- the header and the lines of a block. A first line that begins with a blank or is empty needs the indentation in the
header; the end of the text decides about the line breaks there. -/
def blockLines (indent : Nat) (cs : List Char) : List Char :=
  let indentHint := if cs.head?.any fun c => c = ' ' || isBreak c then ['2'] else []
  let chompHint :=
    match cs.reverse with
    | [] => ['-']
    | [c] => if isBreak c then ['+'] else ['-']
    | c :: d :: _ => if !isBreak c then ['-'] else if isBreak d then ['+'] else []
  let lines := indentLines indent true cs
  '|' :: indentHint ++ chompHint ++ '\n' :: lines ++ (if cs.getLast?.any isBreak then [] else ['\n'])

/-- a text behind its key or dash, with the end of its line -/
def scalar (indent : Nat) (s : String) : String :=
  let cs := s.toList
  String.ofList <|
    match style s with
    | .plain => cs ++ ['\n']
    | .singleQuoted => singleQuoted indent cs ++ ['\n']
    | .doubleQuoted => doubleQuoted cs ++ ['\n']
    | .block => blockLines indent cs

def indent (n : Nat) : String := String.ofList (indentation n)

mutual
/-- what follows a key of a table at column `column` -/
def fieldValue (column : Nat) : Tree → String
  | .list _ [] => " []\n"
  | .list _ items => "\n" ++ listItems column items
  | .table [] => " \x7b\x7d\n"
  | .table fields => "\n" ++ indent (column + 2) ++ tableFields (column + 2) fields
  | .text s => " " ++ scalar (column + 2) s
  | _ => " null\n"

/-- the items of a list at column `column` -/
def listItems (column : Nat) : List Tree → String
  | [] => ""
  | item :: rest => indent column ++ "-" ++ itemValue column item ++ listItems column rest

/-- what follows the dash of an item -/
def itemValue (column : Nat) : Tree → String
  | .list _ [] => " []\n"
  | .list _ items => "\n" ++ listItems (column + 2) items
  | .table [] => " \x7b\x7d\n"
  | .table fields => " " ++ tableFields (column + 2) fields
  | .text s => " " ++ scalar (column + 2) s
  | _ => " null\n"

/-- the fields of a table at column `column`, the first of which stands where the table begins -/
def tableFields (column : Nat) : List (String × Tree) → String
  | [] => ""
  | [(key, value)] => key ++ ":" ++ fieldValue column value
  | (key, value) :: rest =>
    key ++ ":" ++ fieldValue column value ++ indent column ++ tableFields column rest
end

/-- the text of a tree; the keys of its tables are words -/
def print : Tree → String
  | .list _ [] => "[]\n"
  | .list _ items => listItems 0 items
  | .table [] => "\x7b\x7d\n"
  | .table fields => tableFields 0 fields
  | .text s => scalar 0 s
  | _ => "null\n"

end Gleaner.Yaml
