/-
Reading of JSON text, strictly: one value with nothing but blanks around it, numbers without needless zeros, no bare
control characters in texts, surrogates only in pairs, and less than 128 values inside one another.
-/
import Gleaner.Json.Basic

namespace Gleaner.Json

inductive ReadError where
  | unexpectedEnd
  | unexpected (c : Char)
  | badNumber
  | badText
  | nestedTooDeeply
  | trailing
  deriving DecidableEq, Repr

def isBlankChar (c : Char) : Bool := c = ' ' || c = '\n' || c = '\t' || c = '\r'

def skipBlanks (cs : List Char) : List Char := cs.dropWhile isBlankChar

def hexValue? (c : Char) : Option Nat :=
  if c.isDigit then some (c.toNat - 48)
  else if 'a' ≤ c ∧ c ≤ 'f' then some (c.toNat - 87)
  else if 'A' ≤ c ∧ c ≤ 'F' then some (c.toNat - 55)
  else none

/-- four hexadecimal digits -/
def readHex4 (cs : List Char) : Except ReadError (Nat × List Char) :=
  match cs with
  | a :: b :: c :: d :: rest =>
    match hexValue? a, hexValue? b, hexValue? c, hexValue? d with
    | some a, some b, some c, some d => .ok (((a * 16 + b) * 16 + c) * 16 + d, rest)
    | _, _, _, _ => .error .badText
  | _ => .error .unexpectedEnd

/-- the character behind `\u`; a high surrogate needs the low one right behind it -/
def readUnicode (cs : List Char) : Except ReadError (Char × List Char) := do
  let (hi, rest) ← readHex4 cs
  if 0xDC00 ≤ hi && hi ≤ 0xDFFF then throw .badText
  if 0xD800 ≤ hi && hi ≤ 0xDBFF then
    match rest with
    | '\\' :: 'u' :: more =>
      let (lo, after) ← readHex4 more
      if 0xDC00 ≤ lo && lo ≤ 0xDFFF then
        return (Char.ofNat (0x10000 + (hi - 0xD800) * 0x400 + (lo - 0xDC00)), after)
      else throw .badText
    | _ => throw .badText
  return (Char.ofNat hi, rest)

/-- the rest of a text behind its opening quote; the characters read are kept in reverse -/
def readText : Nat → List Char → List Char → Except ReadError (String × List Char)
  | 0, _, _ => .error .unexpectedEnd
  | fuel + 1, acc, cs =>
    match cs with
    | [] => .error .unexpectedEnd
    | '"' :: rest => .ok (String.ofList acc.reverse, rest)
    | '\\' :: rest =>
      match rest with
      | '"' :: more => readText fuel ('"' :: acc) more
      | '\\' :: more => readText fuel ('\\' :: acc) more
      | '/' :: more => readText fuel ('/' :: acc) more
      | 'b' :: more => readText fuel ('\x08' :: acc) more
      | 'f' :: more => readText fuel ('\x0c' :: acc) more
      | 'n' :: more => readText fuel ('\n' :: acc) more
      | 'r' :: more => readText fuel ('\r' :: acc) more
      | 't' :: more => readText fuel ('\t' :: acc) more
      | 'u' :: more =>
        match readUnicode more with
        | .ok (c, after) => readText fuel (c :: acc) after
        | .error e => .error e
      | _ => .error .badText
    | c :: rest => if c.toNat < 0x20 then .error .badText else readText fuel (c :: acc) rest

/-- digits, at least one -/
def readDigits (cs : List Char) : Except ReadError (List Char × List Char) :=
  match cs.span Char.isDigit with
  | ([], _) => .error .badNumber
  | (digits, rest) => .ok (digits, rest)

/-- a number, as written -/
def readNumber (cs : List Char) : Except ReadError (String × List Char) := do
  let (sign, cs) := match cs with
    | '-' :: rest => (['-'], rest)
    | _ => ([], cs)
  let (whole, cs) ← match cs with
    | '0' :: rest =>
      if rest.head?.any Char.isDigit then throw .badNumber
      pure (['0'], rest)
    | _ => readDigits cs
  let (fraction, cs) ← match cs with
    | '.' :: rest => do
      let (digits, after) ← readDigits rest
      pure ('.' :: digits, after)
    | _ => pure ([], cs)
  let (exponent, cs) ← match cs with
    | c :: rest =>
      if c = 'e' || c = 'E' then
        let (mark, rest) := match rest with
          | '+' :: more => ([c, '+'], more)
          | '-' :: more => ([c, '-'], more)
          | _ => ([c], rest)
        let (digits, after) ← readDigits rest
        pure (mark ++ digits, after)
      else pure ([], cs)
    | [] => pure ([], cs)
  return (String.ofList (sign ++ whole ++ fraction ++ exponent), cs)

/-- takes a fixed word -/
def readWord (word : String) (value : Json) (cs : List Char) : Except ReadError (Json × List Char) :=
  if word.toList.isPrefixOf cs then .ok (value, cs.drop word.length) else .error .unexpectedEnd

mutual
/-- one value; `depth` is how many more values may enclose one another -/
def readValue : Nat → Nat → List Char → Except ReadError (Json × List Char)
  | 0, _, _ => .error .unexpectedEnd
  | fuel + 1, depth, cs =>
    match skipBlanks cs with
    | [] => .error .unexpectedEnd
    | '"' :: rest => (readText (rest.length + 1) [] rest).map fun (s, after) => (.string s, after)
    | '[' :: rest =>
      if depth ≤ 1 then .error .nestedTooDeeply
      else
        match skipBlanks rest with
        | ']' :: after => .ok (.array [], after)
        | _ => (readItems fuel (depth - 1) rest).map fun (items, after) => (.array items, after)
    | '\x7b' :: rest =>
      if depth ≤ 1 then .error .nestedTooDeeply
      else
        match skipBlanks rest with
        | '\x7d' :: after => .ok (.object [], after)
        | _ => (readFields fuel (depth - 1) rest).map fun (fields, after) => (.object fields, after)
    | 'n' :: _ => readWord "null" .null (skipBlanks cs)
    | 't' :: _ => readWord "true" (.bool true) (skipBlanks cs)
    | 'f' :: _ => readWord "false" (.bool false) (skipBlanks cs)
    | c :: rest =>
      if c = '-' || c.isDigit then (readNumber (c :: rest)).map fun (n, after) => (.number n, after)
      else .error (.unexpected c)

/-- the items of a list up to its bracket -/
def readItems : Nat → Nat → List Char → Except ReadError (List Json × List Char)
  | 0, _, _ => .error .unexpectedEnd
  | fuel + 1, depth, cs => do
    let (item, rest) ← readValue fuel depth cs
    match skipBlanks rest with
    | ',' :: more =>
      let (items, after) ← readItems fuel depth more
      return (item :: items, after)
    | ']' :: after => return ([item], after)
    | [] => throw .unexpectedEnd
    | c :: _ => throw (.unexpected c)

/-- the fields of an object up to its brace -/
def readFields : Nat → Nat → List Char → Except ReadError (List (String × Json) × List Char)
  | 0, _, _ => .error .unexpectedEnd
  | fuel + 1, depth, cs => do
    match skipBlanks cs with
    | '"' :: rest =>
      let (key, rest) ← readText (rest.length + 1) [] rest
      match skipBlanks rest with
      | ':' :: rest =>
        let (value, rest) ← readValue fuel depth rest
        match skipBlanks rest with
        | ',' :: more =>
          let (fields, after) ← readFields fuel depth more
          return ((key, value) :: fields, after)
        | '\x7d' :: after => return ([(key, value)], after)
        | [] => throw .unexpectedEnd
        | c :: _ => throw (.unexpected c)
      | _ => throw .unexpectedEnd
    | [] => throw .unexpectedEnd
    | c :: _ => throw (.unexpected c)
end

/-- the value of a whole text -/
def parse (text : String) : Except ReadError Json := do
  let cs := text.toList
  let (value, rest) ← readValue (cs.length + 1) 128 cs
  if !(skipBlanks rest).isEmpty then throw .trailing
  return value

end Gleaner.Json
