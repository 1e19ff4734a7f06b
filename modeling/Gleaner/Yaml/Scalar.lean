/-
Texts in a YAML document: in single or double quotes, plain, or as a block of lines.

A line break inside a text is folded: a single one counts as a blank, of several the first is dropped. Blocks marked
with a bar keep their breaks. Every reader takes the place where the text begins and gives the text with the place
behind it; texts are collected in reverse.
-/
import Gleaner.Yaml.Cursor

namespace Gleaner.Yaml

/-! ## Folding -/

/-- blanks and line breaks between two words -/
structure Gap where
  blanks : List Char := []
  broken : Bool := false
  first : List Char := []
  more : List Char := []

/-- what a gap counts as, in reverse -/
def Gap.text (g : Gap) : List Char :=
  if !g.broken then g.blanks
  else if g.first = ['\n'] then (if g.more.isEmpty then [' '] else g.more)
  else g.more ++ g.first

/-- reads a gap. A tab before column `indent` of a further line is refused. -/
def readGap (indent : Nat) : Nat → Gap → Cursor → Except YamlError (Gap × Cursor)
  | 0, g, c => .ok (g, c)
  | fuel + 1, g, c =>
    match c.peek with
    | none => .ok (g, c)
    | some x =>
      if isBlank x then
        if g.broken then
          if x = '\t' && c.column < indent then .error .tabInIndentation else readGap indent fuel g (c.skip 1)
        else readGap indent fuel { g with blanks := x :: g.blanks } (c.skip 1)
      else
        match c.lineBreak? with
        | none => .ok (g, c)
        | some (b, after) =>
          if g.broken then readGap indent fuel { g with more := b :: g.more } after
          else readGap indent fuel { g with blanks := [], broken := true, first := [b] } after

/-! ## Quotes -/

def hexValue? (c : Char) : Option Nat :=
  if c.isDigit then some (c.toNat - 48)
  else if 'a' ≤ c ∧ c ≤ 'f' then some (c.toNat - 87)
  else if 'A' ≤ c ∧ c ≤ 'F' then some (c.toNat - 55)
  else none

/-- the number some hexadecimal digits write -/
def hexNumber? (digits : List Char) : Option Nat :=
  digits.foldl (fun n d => do return (← n) * 16 + (← hexValue? d)) (some 0)

/-- the characters that one letter behind a backslash stands for -/
def shortEscape? (c : Char) : Option Char :=
  match c with
  | '0' => some '\x00'
  | 'a' => some '\x07'
  | 'b' => some '\x08'
  | 't' => some '\t'
  | '\t' => some '\t'
  | 'n' => some '\n'
  | 'v' => some '\x0b'
  | 'f' => some '\x0c'
  | 'r' => some '\r'
  | 'e' => some '\x1b'
  | ' ' => some ' '
  | '"' => some '"'
  | '/' => some '/'
  | '\\' => some '\\'
  | 'N' => some '\u0085'
  | '_' => some '\u00a0'
  | 'L' => some '\u2028'
  | 'P' => some '\u2029'
  | _ => none

/-- how many hexadecimal digits follow a letter behind a backslash -/
def escapeDigits? (c : Char) : Option Nat :=
  match c with
  | 'x' => some 2
  | 'u' => some 4
  | 'U' => some 8
  | _ => none

/-- the character written by the letters behind a backslash, and how many there are -/
def readEscape (cs : List Char) : Except YamlError (Char × Nat) :=
  match cs with
  | [] => .error .badEscape
  | c :: rest =>
    match shortEscape? c with
    | some x => .ok (x, 1)
    | none =>
      match escapeDigits? c with
      | none => .error .badEscape
      | some n =>
        if rest.length < n then .error .badEscape
        else
          match hexNumber? (rest.take n) with
          | none => .error .badEscape
          | some code =>
            if code.isValidChar then .ok (Char.ofNat code, n + 1) else .error .badEscape

/-- a run of characters between the gaps of a quoted text. `true` says that the run ended at an escaped line break. -/
def quotedRun (single : Bool) : Nat → List Char → Cursor → Except YamlError (List Char × Bool × Cursor)
  | 0, acc, c => .ok (acc, false, c)
  | fuel + 1, acc, c =>
    match c.rest with
    | [] => .ok (acc, false, c)
    | x :: rest =>
      if isBlank x || isBreak x then .ok (acc, false, c)
      else if single then
        if x = '\'' then
          if rest.head? = some '\'' then quotedRun single fuel ('\'' :: acc) (c.skip 2) else .ok (acc, false, c)
        else quotedRun single fuel (x :: acc) (c.skip 1)
      else if x = '"' then .ok (acc, false, c)
      else if x = '\\' then
        match (c.skip 1).lineBreak? with
        | some (_, after) => .ok (acc, true, after)
        | none =>
          match readEscape rest with
          | .error e => .error e
          | .ok (y, n) => quotedRun single fuel (y :: acc) (c.skip (n + 1))
      else quotedRun single fuel (x :: acc) (c.skip 1)

/-- the rest of a quoted text up to its closing quote -/
def readQuotedFrom (single : Bool) : Nat → List Char → Cursor → Except YamlError (String × Cursor)
  | 0, _, _ => .error .unterminatedText
  | fuel + 1, acc, c => do
    if c.atAnyDocumentMark || c.rest.isEmpty then throw .unterminatedText
    let (acc, joined, c) ← quotedRun single (c.rest.length + 1) acc c
    if c.is (if single then '\'' else '"') then return (String.ofList acc.reverse, c.skip 1)
    let (gap, c) ← readGap 0 (c.rest.length + 1) { broken := joined } c
    readQuotedFrom single fuel (gap.text ++ acc) c

def readQuoted (c : Cursor) : Except YamlError (String × Cursor) :=
  readQuotedFrom (c.is '\'') (c.rest.length + 1) [] (c.skip 1)

/-! ## Plain texts -/

/-- a run of characters of a plain text. A colon ends it before a gap; inside brackets, brackets and commas do. -/
def plainRun (inFlow : Bool) (acc : List Char) : List Char → Except YamlError (List Char)
  | [] => .ok acc
  | x :: rest =>
    if isBlank x || isBreak x then .ok acc
    else if inFlow && x = ':' && rest.head?.any (",?[]\x7b\x7d".contains ·) then .error .colonInPlainText
    else if x = ':' && isGap rest.head? then .ok acc
    else if inFlow && ",[]\x7b\x7d".contains x then .ok acc
    else plainRun inFlow (x :: acc) rest

/-- the rest of a plain text whose further lines are indented by `indent` at least, unless it stands inside brackets.
The flag tells whether a line break was read behind its last word. -/
def readPlainFrom (inFlow : Bool) (indent : Nat) :
    Nat → List Char → Gap → Cursor → Except YamlError (String × Bool × Cursor)
  | 0, acc, gap, c => .ok (String.ofList acc.reverse, gap.broken, c)
  | fuel + 1, acc, gap, c => do
    let finish (gap : Gap) (acc : List Char) (c : Cursor) : String × Bool × Cursor :=
      (String.ofList acc.reverse, gap.broken, c)
    if c.atAnyDocumentMark || c.is '#' then return finish gap acc c
    let run ← plainRun inFlow [] c.rest
    let acc := if run.isEmpty then acc else run ++ gap.text ++ acc
    let gap := if run.isEmpty then gap else {}
    let c := c.skip run.length
    if c.rest.isEmpty || !isGap c.peek then return finish gap acc c
    let (gap, c) ← readGap indent (c.rest.length + 1) gap c
    if !inFlow && c.column < indent then return finish gap acc c
    readPlainFrom inFlow indent fuel acc gap c

def readPlain (inFlow : Bool) (indent : Nat) (c : Cursor) : Except YamlError (String × Bool × Cursor) :=
  readPlainFrom inFlow indent (c.rest.length + 1) [] {} c

/-! ## Blocks -/

/-- what becomes of the line breaks at the end of a block -/
inductive Chomp where
  | strip
  | clip
  | keep
  deriving DecidableEq

def readChomp (c : Cursor) : Option (Chomp × Cursor) :=
  if c.is '+' then some (.keep, c.skip 1) else if c.is '-' then some (.strip, c.skip 1) else none

/-- the indentation a block header asks for -/
def readIncrement (c : Cursor) : Except YamlError (Option Nat × Cursor) :=
  match c.peek with
  | some x =>
    if x = '0' then .error .badBlockHeader
    else if x.isDigit then .ok (some (x.toNat - 48), c.skip 1)
    else .ok (none, c)
  | none => .ok (none, c)

/-- the header of a block behind its bar or angle, and the place where its lines begin -/
def readBlockHeader (c : Cursor) : Except YamlError (Chomp × Option Nat × Cursor) := do
  let (chomp, increment, c) ← match readChomp c with
    | some (chomp, c) => do
      let (increment, c) ← readIncrement c
      pure (chomp, increment, c)
    | none => do
      let (increment, c) ← readIncrement c
      match increment, readChomp c with
      | some _, some (chomp, c) => pure (chomp, increment, c)
      | _, _ => pure (Chomp.clip, increment, c)
  let c := c.skipWhile isBlank
  let c := if c.is '#' then c.skipWhile (!isBreak ·) else c
  if !isLineEnd c.peek then throw .badBlockHeader
  return (chomp, increment, (c.lineBreak?.map (·.2)).getD c)

/-- the empty lines before the next line of a block, and the indentation of the block. An indentation of 0 is yet to be
found: it is that of the longest run of blanks up to the first line, and at least `least`. -/
def readBlockBreaks (least indent : Nat) :
    Nat → Nat → List Char → Cursor → Except YamlError (Nat × List Char × Cursor)
  | 0, _, breaks, c => .ok (indent, breaks, c)
  | fuel + 1, deepest, breaks, c => do
    let blanks := (c.rest.takeWhile (· = ' ')).length
    let c := c.skip (if indent = 0 then blanks else min blanks (indent - c.column))
    let deepest := max deepest c.column
    if (indent = 0 || c.column < indent) && c.is '\t' then throw .tabInIndentation
    match c.lineBreak? with
    | some (b, after) => readBlockBreaks least indent fuel deepest (b :: breaks) after
    | none => return (if indent = 0 then max 1 (max deepest least) else indent, breaks, c)

/-- the lines of a block. `last` is the break behind the line before, `breaks` are the empty lines behind it. -/
def readBlockLines (folded : Bool) (indent : Nat) :
    Nat → List Char → List Char → List Char → Bool → Cursor →
      Except YamlError (List Char × List Char × List Char × Cursor)
  | 0, acc, last, breaks, _, c => .ok (acc, last, breaks, c)
  | fuel + 1, acc, last, breaks, lastBlank, c => do
    if c.column ≠ indent || c.rest.isEmpty then return (acc, last, breaks, c)
    let startsBlank := c.peek.any isBlank
    let joint :=
      if folded && last = ['\n'] && !lastBlank && !startsBlank then (if breaks.isEmpty then [' '] else []) else last
    let (line, c) := c.takeWhile (!isBreak ·)
    let acc := line.reverse ++ (breaks ++ (joint ++ acc))
    let (last, c) := match c.lineBreak? with
      | some (b, after) => ([b], after)
      | none => ([], c)
    let (_, breaks, c) ← readBlockBreaks 0 indent (c.rest.length + 1) 0 [] c
    readBlockLines folded indent fuel acc last breaks startsBlank c

/-- a block; `level` is the column behind which its lines must begin, or 0 at the top -/
def readBlock (level : Nat) (c : Cursor) : Except YamlError (String × Cursor) := do
  let folded := c.is '>'
  let (chomp, increment, c) ← readBlockHeader (c.skip 1)
  let indent := match increment with
    | some n => level - 1 + n
    | none => 0
  let (indent, breaks, c) ← readBlockBreaks level indent (c.rest.length + 1) 0 [] c
  let (acc, last, breaks, c) ← readBlockLines folded indent (c.rest.length + 1) [] [] breaks false c
  let tail := match chomp with
    | .strip => []
    | .clip => last
    | .keep => breaks ++ last
  return (String.ofList (tail ++ acc).reverse, c)

end Gleaner.Yaml
