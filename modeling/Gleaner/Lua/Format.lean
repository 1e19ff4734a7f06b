/-
Texts made from a format: `%` introduces a directive with flags, a width and a precision, and the values behind the
format fill the directives in order.
-/
import Gleaner.Lua.Operate

namespace Gleaner.Lua.Format

structure Directive where
  left : Bool := false
  plus : Bool := false
  space : Bool := false
  alternate : Bool := false
  zeros : Bool := false
  width : Nat := 0
  precision : Option Nat := none
  conversion : Char

inductive Part where
  | text (cs : List Char)
  | directive (d : Directive)

/-- up to two digits, and what follows them -/
def twoDigits (cs : List Char) : Nat × List Char :=
  let digits := (cs.take 2).takeWhile Char.isDigit
  (digitsValue 10 digits, cs.drop digits.length)

def flagChars : List Char := ['-', '+', ' ', '#', '0']

/-- the directive behind a percent sign -/
def readDirective (cs : List Char) : Except String (Directive × List Char) :=
  let (flags, rest) := cs.span flagChars.contains
  let (width, rest) := twoDigits rest
  let (precision, rest) := match rest with
    | '.' :: more => let (n, more) := twoDigits more; (some n, more)
    | _ => (none, rest)
  let whole := '%' :: cs.take (cs.length - rest.length + 1)
  match rest with
  | c :: after =>
    if flags.length > 5 || !"diuoxXcaAeEfFgGpqs".toList.contains c then
      .error ("invalid conversion '" ++ String.ofList whole ++ "' to 'format'")
    else
      .ok ({ left := flags.contains '-', plus := flags.contains '+', space := flags.contains ' ',
             alternate := flags.contains '#', zeros := flags.contains '0', width := width, precision := precision,
             conversion := c }, after)
  | [] => .error ("invalid conversion '" ++ String.ofList whole ++ "' to 'format'")

/-- the parts of a format; fuel is its length -/
def parts : Nat → List Char → Except String (List Part)
  | 0, _ => .ok []
  | _, [] => .ok []
  | fuel + 1, '%' :: '%' :: rest => do return .text ['%'] :: (← parts fuel rest)
  | fuel + 1, '%' :: rest => do
    let (d, after) ← readDirective rest
    return .directive d :: (← parts fuel after)
  | fuel + 1, c :: rest =>
    let (plain, after) := rest.span (· ≠ '%')
    do return .text (c :: plain) :: (← parts fuel after)

/-- fills up to the width; zeros go between the sign and the digits -/
def pad (d : Directive) (zerosAllowed : Bool) (sign body : List Char) : List Char :=
  let missing := d.width - (sign.length + body.length)
  if d.left then sign ++ body ++ List.replicate missing ' '
  else if d.zeros && zerosAllowed then sign ++ List.replicate missing '0' ++ body
  else List.replicate missing ' ' ++ sign ++ body

def signText (d : Directive) (negative : Bool) : List Char :=
  if negative then ['-'] else if d.plus then ['+'] else if d.space then [' '] else []

/-- at least as many digits as the precision says -/
def withPrecision (d : Directive) (digits : List Char) : List Char :=
  match d.precision with
  | some 0 => if digits = ['0'] then [] else digits
  | some n => List.replicate (n - digits.length) '0' ++ digits
  | none => digits

def intBody (d : Directive) (i : Int64) : List Char :=
  let unsigned (base : Nat) (mark : List Char) : List Char :=
    let n := i.toUInt64.toNat
    let digits := withPrecision d (Nat.toDigits base n)
    pad d d.precision.isNone (if d.alternate && n ≠ 0 then mark else []) digits
  match d.conversion with
  | 'o' => unsigned 8 ['0']
  | 'x' => unsigned 16 ['0', 'x']
  | 'X' => (unsigned 16 ['0', 'x']).map Char.toUpper
  | 'u' => unsigned 10 []
  | _ =>
    let n := i.toInt
    pad d d.precision.isNone (signText d (n < 0)) (withPrecision d (Nat.toDigits 10 n.natAbs))

/-- the hexadecimal form of a number: digits of the fraction and a binary exponent -/
def hexBody (d : Directive) (f : Float) (upper : Bool) : List Char :=
  let (m, e) := binaryParts f
  let cs :=
    if m = 0 then ['0', 'x', '0', 'p', '+', '0']
    else
      let normal := m ≥ 1 <<< 52
      let lead : Nat := if normal then 1 else 0
      let fraction := if normal then m - (1 <<< 52) else m
      let exponent : Int := e + 52
      let digits := Nat.toDigits 16 fraction
      let digits := dropTrailingZeros (List.replicate (13 - digits.length) '0' ++ digits)
      let digits := match d.precision with
        | some n => (digits ++ List.replicate n '0').take n
        | none => digits
      ['0', 'x'] ++ Nat.toDigits 10 lead ++ (if digits.isEmpty then [] else '.' :: digits) ++
        ['p', if exponent < 0 then '-' else '+'] ++ Nat.toDigits 10 exponent.natAbs
  if upper then cs.map Char.toUpper else cs

def floatBody (d : Directive) (f : Float) : List Char :=
  let upper := d.conversion.isUpper
  let sign := signText d (isNegative f || (f.isNaN && !isNegative f))
  match unusualText? f with
  | some cs => pad d false sign (if upper then cs.map Char.toUpper else cs)
  | none =>
    let places := d.precision.getD 6
    let body := match d.conversion.toLower with
      | 'f' => fixedText f places d.alternate
      | 'e' => scientificText f places d.alternate upper
      | 'a' => hexBody d f upper
      | _ => generalText f places d.alternate upper
    pad d true sign body

/-- a text in quotes that reads back as itself -/
def quoteText : List Char → List Char
  | [] => []
  | c :: rest =>
    let nextDigit := rest.head?.any Char.isDigit
    let here :=
      if c = '"' || c = '\\' then ['\\', c]
      else if c = '\n' then ['\\', '\n']
      else if c.toNat < 32 || c.toNat = 127 then
        let digits := Nat.toDigits 10 c.toNat
        '\\' :: (if nextDigit then List.replicate (3 - digits.length) '0' ++ digits else digits)
      else [c]
    here ++ quoteText rest

/-- a value as it would be written in a program -/
def quoted? (v : Value) : Option (List Char) :=
  match v with
  | .text s => some ('"' :: quoteText (byteChars s) ++ ['"'])
  | .int i => some (if i.toInt = -9223372036854775808 then "0x8000000000000000".toList else (intText i).toList)
  | .float f =>
    if f.isInf then some (if f > 0.0 then "1e9999".toList else "-1e9999".toList)
    else if f.isNaN then some "(0/0)".toList
    else if f == f.floor then some ((floatText f).toList)
    else some ((if isNegative f then ['-'] else []) ++ hexBody { conversion := 'a' } f false)
  | .nil => some "nil".toList
  | .bool b => some (if b then "true".toList else "false".toList)
  | _ => none

end Gleaner.Lua.Format
