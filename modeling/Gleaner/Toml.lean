/-
TOML documents of texts, lists and tables.

Keys are bare words or quoted, and dots between them lead into tables. A header in brackets opens a table, one in
double brackets adds a table to a list. A table that has been written out, in braces or by its own header or by dots,
cannot be opened again by a header, and no key can be given twice. Values of other kinds are refused, as nothing here
reads them.
-/
import Gleaner.Document.Tree

namespace Gleaner.Toml

inductive TomlError where
  | unexpectedEnd
  | unexpectedCharacter
  | badEscape
  | badKey
  | duplicateKey
  | notATable
  | otherValue
  | trailing
  deriving DecidableEq, Repr

/-! ## Letters -/

def isBlank (c : Char) : Bool := c = ' ' || c = '\t'

/-- characters that cannot stand in comments and quotes -/
def isControl (c : Char) : Bool := (c.toNat < 0x20 && c ≠ '\t') || c.toNat = 0x7F

def isBare (c : Char) : Bool := c.isAlphanum || c = '_' || c = '-'

def skipBlanks (cs : List Char) : List Char := cs.dropWhile isBlank

/-- what stands behind a line break -/
def lineBreak? : List Char → Option (List Char)
  | '\n' :: rest => some rest
  | '\r' :: '\n' :: rest => some rest
  | _ => none

/-- skips a comment up to its line break -/
def skipComment (cs : List Char) : Except TomlError (List Char) :=
  match cs with
  | '#' :: rest =>
    let after := rest.dropWhile (!isControl ·)
    if after.isEmpty || (lineBreak? after).isSome then .ok after else .error .unexpectedCharacter
  | _ => .ok cs

/-- skips blanks, comments and line breaks -/
def skipLines : Nat → List Char → Except TomlError (List Char)
  | 0, cs => .ok cs
  | fuel + 1, cs => do
    let cs ← skipComment (skipBlanks cs)
    match lineBreak? cs with
    | some rest => skipLines fuel rest
    | none => return cs

/-- the end of a line behind a key and its value or a header -/
def endLine (cs : List Char) : Except TomlError (List Char) := do
  let cs ← skipComment (skipBlanks cs)
  if cs.isEmpty then return []
  match lineBreak? cs with
  | some rest => return rest
  | none => throw .trailing

/-! ## Texts -/

def hexValue? (c : Char) : Option Nat :=
  if c.isDigit then some (c.toNat - 48)
  else if 'a' ≤ c ∧ c ≤ 'f' then some (c.toNat - 87)
  else if 'A' ≤ c ∧ c ≤ 'F' then some (c.toNat - 55)
  else none

def readHex (n : Nat) (cs : List Char) : Except TomlError (Char × List Char) :=
  let digits := cs.take n
  if digits.length < n then .error .badEscape
  else
    match digits.foldl (fun v d => do return (← v) * 16 + (← hexValue? d)) (some 0) with
    | none => .error .badEscape
    | some code => if code.isValidChar then .ok (Char.ofNat code, cs.drop n) else .error .badEscape

/-- the character written behind a backslash -/
def readEscape (cs : List Char) : Except TomlError (Char × List Char) :=
  match cs with
  | 'b' :: rest => .ok ('\x08', rest)
  | 't' :: rest => .ok ('\t', rest)
  | 'n' :: rest => .ok ('\n', rest)
  | 'f' :: rest => .ok ('\x0c', rest)
  | 'r' :: rest => .ok ('\r', rest)
  | 'e' :: rest => .ok ('\x1b', rest)
  | '"' :: rest => .ok ('"', rest)
  | '\\' :: rest => .ok ('\\', rest)
  | 'x' :: rest => readHex 2 rest
  | 'u' :: rest => readHex 4 rest
  | 'U' :: rest => readHex 8 rest
  | _ => .error .badEscape

/-- a text in double quotes, behind the first; collected in reverse -/
def readBasic : Nat → List Char → List Char → Except TomlError (String × List Char)
  | 0, _, _ => .error .unexpectedEnd
  | fuel + 1, acc, cs =>
    match cs with
    | [] => .error .unexpectedEnd
    | '"' :: rest => .ok (String.ofList acc.reverse, rest)
    | '\\' :: rest => do
      let (c, rest) ← readEscape rest
      readBasic fuel (c :: acc) rest
    | c :: rest => if isControl c then .error .unexpectedCharacter else readBasic fuel (c :: acc) rest

/-- a text in single quotes, behind the first -/
def readLiteral (cs : List Char) : Except TomlError (String × List Char) :=
  match cs.span (fun c => c ≠ '\'' && !isControl c) with
  | (text, '\'' :: rest) => .ok (String.ofList text, rest)
  | _ => .error .unexpectedEnd

/-- blanks and line breaks behind a backslash at the end of a line -/
def skipJoin : Nat → List Char → List Char
  | 0, cs => cs
  | fuel + 1, cs =>
    match lineBreak? (skipBlanks cs) with
    | some rest => skipJoin fuel rest
    | none => skipBlanks cs

/-- a text between triple quotes `q`, behind the first three; up to two quotes may stand before the last three -/
def readLong (q : Char) : Nat → List Char → List Char → Except TomlError (String × List Char)
  | 0, _, _ => .error .unexpectedEnd
  | fuel + 1, acc, cs =>
    let quotes := (cs.takeWhile (· = q)).length
    if quotes ≥ 3 then
      let inside := min (quotes - 3) 2
      .ok (String.ofList (List.replicate inside q ++ acc).reverse, cs.drop (inside + 3))
    else
      match cs with
      | [] => .error .unexpectedEnd
      | c :: rest =>
        match lineBreak? cs with
        | some after => readLong q fuel ('\n' :: acc) after
        | none =>
          if c = '\\' && q = '"' then
            if (lineBreak? (skipBlanks rest)).isSome then readLong q fuel acc (skipJoin (rest.length + 1) rest)
            else do
              let (x, rest) ← readEscape rest
              readLong q fuel (x :: acc) rest
          else if isControl c then .error .unexpectedCharacter
          else readLong q fuel (c :: acc) rest

/-- the line break right behind opening triple quotes does not count -/
def dropBreak (cs : List Char) : List Char := (lineBreak? cs).getD cs

/-- a quoted value -/
def readText? (cs : List Char) : Option (Except TomlError (String × List Char)) :=
  match cs with
  | '"' :: '"' :: '"' :: rest => some (readLong '"' (rest.length + 1) [] (dropBreak rest))
  | '\'' :: '\'' :: '\'' :: rest => some (readLong '\'' (rest.length + 1) [] (dropBreak rest))
  | '"' :: rest => some (readBasic (rest.length + 1) [] rest)
  | '\'' :: rest => some (readLiteral rest)
  | _ => none

/-! ## Keys -/

def readKeyPart (cs : List Char) : Except TomlError (String × List Char) :=
  match cs with
  | '"' :: rest => readBasic (rest.length + 1) [] rest
  | '\'' :: rest => readLiteral rest
  | _ =>
    match cs.span isBare with
    | ([], _) => .error .badKey
    | (name, rest) => .ok (String.ofList name, rest)

/-- keys joined by dots -/
def readKey : Nat → List Char → Except TomlError (List String × List Char)
  | 0, _ => .error .badKey
  | fuel + 1, cs => do
    let (part, rest) ← readKeyPart (skipBlanks cs)
    match skipBlanks rest with
    | '.' :: more =>
      let (parts, after) ← readKey fuel more
      return (part :: parts, after)
    | after => return ([part], after)

/-! ## Values -/

/-- how a table came about -/
inductive Origin where
  /-- on the way to another one, by headers -/
  | implied
  /-- by its own header -/
  | header
  /-- by dots in a key -/
  | dotted
  /-- in braces -/
  | inline
  deriving DecidableEq

inductive Value where
  | text (s : String)
  | list (items : List Value)
  /-- a list whose items are added by headers -/
  | tables (items : List Value)
  | table (origin : Origin) (fields : List (String × Value))
  deriving Inhabited

/-- puts a value at the end of a path of keys in the fields of a table -/
def putPath (value : Value) (origin : Origin) : List String → List (String × Value) →
    Except TomlError (List (String × Value))
  | [], _ => .error .badKey
  | [key], fields => if fields.any (·.1 == key) then .error .duplicateKey else .ok (fields ++ [(key, value)])
  | key :: more, fields =>
    match fields.find? (·.1 == key) with
    | none => do return fields ++ [(key, .table origin (← putPath value origin more []))]
    | some (_, .table before inner) => do
      if before ≠ .dotted && before ≠ .implied then throw .duplicateKey
      let inner ← putPath value origin more inner
      return fields.map fun (k, v) => if k == key then (k, .table before inner) else (k, v)
    | some _ => .error .duplicateKey

mutual
def readValue : Nat → Nat → List Char → Except TomlError (Value × List Char)
  | 0, _, _ => .error .unexpectedEnd
  | fuel + 1, depth, cs =>
    match readText? cs with
    | some read => read.map fun (s, rest) => (.text s, rest)
    | none =>
      match cs with
      | '[' :: rest =>
        if depth = 0 then .error .otherValue
        else (readItems fuel (depth - 1) [] rest).map fun (items, rest) => (.list items, rest)
      | '\x7b' :: rest =>
        if depth = 0 then .error .otherValue
        else (readInline fuel (depth - 1) [] rest).map fun (fields, rest) => (.table .inline fields, rest)
      | [] => .error .unexpectedEnd
      | _ => .error .otherValue

/-- the items of a list, over any number of lines -/
def readItems : Nat → Nat → List Value → List Char → Except TomlError (List Value × List Char)
  | 0, _, _, _ => .error .unexpectedEnd
  | fuel + 1, depth, acc, cs => do
    let cs ← skipLines (cs.length + 1) cs
    match cs with
    | ']' :: rest => return (acc.reverse, rest)
    | _ =>
      let (item, rest) ← readValue fuel depth cs
      match ← skipLines (rest.length + 1) rest with
      | ',' :: more => readItems fuel depth (item :: acc) more
      | ']' :: after => return ((item :: acc).reverse, after)
      | _ => throw .unexpectedCharacter

/-- the fields of a table in braces, over any number of lines -/
def readInline : Nat → Nat → List (String × Value) → List Char → Except TomlError (List (String × Value) × List Char)
  | 0, _, _, _ => .error .unexpectedEnd
  | fuel + 1, depth, fields, cs => do
    let cs ← skipLines (cs.length + 1) cs
    match cs with
    | '\x7d' :: rest => return (fields, rest)
    | _ =>
      let (path, rest) ← readKey (cs.length + 1) cs
      match rest with
      | '=' :: rest =>
        let (value, rest) ← readValue fuel depth (skipBlanks rest)
        let fields ← putPath value .dotted path fields
        match ← skipLines (rest.length + 1) rest with
        | ',' :: more => readInline fuel depth fields more
        | '\x7d' :: after => return (fields, after)
        | _ => throw .unexpectedCharacter
      | _ => throw .unexpectedCharacter
end

/-! ## Headers -/

/-- changes the fields of the table at the end of a path from a header. Tables on the way come about where there are
none; of a list the last table is meant. -/
def onPath (change : List (String × Value) → Except TomlError (List (String × Value))) :
    List String → List (String × Value) → Except TomlError (List (String × Value))
  | [], fields => change fields
  | key :: more, fields =>
    let put (v : Value) : List (String × Value) := fields.map fun (k, old) => if k == key then (k, v) else (k, old)
    match fields.find? (·.1 == key) with
    | none => do return fields ++ [(key, .table .implied (← onPath change more []))]
    | some (_, .table .inline _) => .error .duplicateKey
    | some (_, .table origin inner) => do return put (.table origin (← onPath change more inner))
    | some (_, .tables items) =>
      match items.getLast? with
      | some (.table origin inner) => do
        return put (.tables (items.dropLast ++ [.table origin (← onPath change more inner)]))
      | _ => .error .notATable
    | some _ => .error .notATable

/-- opens the table of a header in single brackets -/
def openTable (key : String) (fields : List (String × Value)) : Except TomlError (List (String × Value)) :=
  match fields.find? (·.1 == key) with
  | none => .ok (fields ++ [(key, .table .header [])])
  | some (_, .table .implied inner) =>
    .ok (fields.map fun (k, v) => if k == key then (k, .table .header inner) else (k, v))
  | some _ => .error .duplicateKey

/-- adds the table of a header in double brackets -/
def addTable (key : String) (fields : List (String × Value)) : Except TomlError (List (String × Value)) :=
  match fields.find? (·.1 == key) with
  | none => .ok (fields ++ [(key, .tables [.table .header []])])
  | some (_, .tables items) =>
    .ok (fields.map fun (k, v) => if k == key then (k, .tables (items ++ [.table .header []])) else (k, v))
  | some _ => .error .duplicateKey

/-- the lines of a document; `path` leads to the table the keys belong to -/
def readLines : Nat → List String → List (String × Value) → List Char → Except TomlError (List (String × Value))
  | 0, _, _, _ => .error .unexpectedEnd
  | fuel + 1, path, root, cs => do
    let cs ← skipLines (cs.length + 1) cs
    match cs with
    | [] => return root
    | '[' :: '[' :: rest =>
      let (keys, rest) ← readKey (rest.length + 1) rest
      match rest, keys.getLast? with
      | ']' :: ']' :: rest, some last =>
        let root ← onPath (addTable last) keys.dropLast root
        readLines fuel keys root (← endLine rest)
      | _, _ => throw .unexpectedCharacter
    | '[' :: rest =>
      let (keys, rest) ← readKey (rest.length + 1) rest
      match rest, keys.getLast? with
      | ']' :: rest, some last =>
        let root ← onPath (openTable last) keys.dropLast root
        readLines fuel keys root (← endLine rest)
      | _, _ => throw .unexpectedCharacter
    | _ =>
      let (keys, rest) ← readKey (cs.length + 1) cs
      match rest with
      | '=' :: rest =>
        let (value, rest) ← readValue (rest.length + 1) 80 (skipBlanks rest)
        let root ← onPath (putPath value .dotted keys) path root
        readLines fuel path root (← endLine rest)
      | _ => throw .unexpectedCharacter

mutual
def Value.tree : Value → Tree
  | .text s => .text s
  | .list items => .list .openRecord (treeItems items)
  | .tables items => .list .openRecord (treeItems items)
  | .table _ fields => .table (treeFields fields)

def treeItems : List Value → List Tree
  | [] => []
  | v :: rest => v.tree :: treeItems rest

def treeFields : List (String × Value) → List (String × Tree)
  | [] => []
  | (key, v) :: rest => (key, v.tree) :: treeFields rest
end

/-- the tree of a document -/
def parse (text : String) : Except TomlError Tree := do
  let cs := match text.toList with
    | '\ufeff' :: rest => rest
    | cs => cs
  let root ← readLines (cs.length + 1) [] [] cs
  return .table (treeFields root)

end Gleaner.Toml
