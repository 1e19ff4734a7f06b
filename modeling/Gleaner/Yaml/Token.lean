/-
The tokens of a YAML text.

Most tokens are read off the text where they stand. Two kinds come from the layout: a block begins where a line is
indented deeper than the one around it and ends where a line is indented less, and a text becomes a key once a colon
follows it. The place of a possible key is remembered until then; a key must stand on one line and within 1024
characters of its colon. At a place where only a key can stand, a missing colon is an error.

`level` is the column of the current block plus one, 0 outside all blocks.
-/
import Gleaner.Yaml.Scalar

namespace Gleaner.Yaml

inductive Token where
  | version (major minor : Nat)
  | tagShorthand (handle expansion : String)
  | documentStart
  | documentEnd
  | blockListStart
  | blockTableStart
  | blockEnd
  | flowListStart
  | flowListEnd
  | flowTableStart
  | flowTableEnd
  | listEntry
  | flowEntry
  | key
  | value
  | alias (name : String)
  | anchor (name : String)
  | tag (handle suffix : String)
  | text (s : String) (plain : Bool)
  deriving DecidableEq, Repr

/-! ## Names and tags -/

/-- a name behind `*` or `&` -/
def readAnchorName (c : Cursor) : Except YamlError (String × Cursor) :=
  let (name, c) := c.takeWhile isNameChar
  if name.isEmpty || !(isGap c.peek || c.peek.any ("?:,]\x7d%@\x60".contains ·)) then .error .badAnchor
  else .ok (String.ofList name, c)

/-- the letters of tags; some are letters only where the whole tag is written out -/
def isTagChar (whole : Bool) (c : Char) : Bool :=
  isNameChar c || ";/?:@&=+$.%!~*'()".contains c || (whole && ",[]".contains c)

/-- undoes percent signs: each stands for the bytes of one character -/
def readTagText : Nat → List Char → Except YamlError (List Char)
  | 0, cs => .ok cs
  | fuel + 1, cs =>
    let byteAt (cs : List Char) : Option Nat :=
      match cs with
      | '%' :: a :: b :: _ => do return (← hexValue? a) * 16 + (← hexValue? b)
      | _ => none
    match cs with
    | [] => .ok []
    | '%' :: _ => do
      let some first := byteAt cs | throw .badTag
      let width := if first < 0x80 then 1 else if first / 32 = 6 then 2 else if first / 16 = 14 then 3
        else if first / 8 = 30 then 4 else 0
      if width = 0 then throw .badTag
      let start := if width = 1 then first else if width = 2 then first % 32 else if width = 3 then first % 16
        else first % 8
      let code ← (List.range (width - 1)).foldlM (fun code i => do
        let some next := byteAt (cs.drop (3 * (i + 1))) | throw .badTag
        if next / 64 ≠ 2 then throw .badTag
        return code * 64 + next % 64) start
      return Char.ofNat code :: (← readTagText fuel (cs.drop (3 * width)))
    | c :: rest => do return c :: (← readTagText fuel rest)

/-- the text of a tag behind what has been read of it -/
def readTagSuffix (whole : Bool) (before : List Char) (c : Cursor) : Except YamlError (String × Cursor) := do
  let (cs, c) := c.takeWhile (isTagChar whole)
  let text ← readTagText (cs.length + 1) cs
  if before.isEmpty && cs.isEmpty then throw .badTag
  return (String.ofList (before.drop 1 ++ text), c)

/-- a handle: an exclamation mark, letters, and a second mark if there is one -/
def readTagHandle (c : Cursor) : Except YamlError (List Char × Cursor) := do
  if !c.is '!' then throw .badTag
  let (name, c) := (c.skip 1).takeWhile isNameChar
  if c.is '!' then return ('!' :: name ++ ['!'], c.skip 1) else return ('!' :: name, c)

def readTag (inFlow : Bool) (c : Cursor) : Except YamlError (Token × Cursor) := do
  let (token, c) ←
    if c.peekAt 1 = some '<' then do
      let (suffix, c) ← readTagSuffix true [] (c.skip 2)
      if !c.is '>' then throw .badTag
      pure (Token.tag "" suffix, c.skip 1)
    else do
      let (handle, c) ← readTagHandle c
      if handle.length > 1 && handle.getLast? = some '!' then do
        let (suffix, c) ← readTagSuffix false [] c
        pure (Token.tag (String.ofList handle) suffix, c)
      else do
        let (suffix, c) ← readTagSuffix false handle c
        pure (if suffix.isEmpty then Token.tag "" "!" else Token.tag "!" suffix, c)
  if !(isGap c.peek || (inFlow && c.is ',')) then throw .badTag
  return (token, c)

/-! ## Directives -/

def readVersionNumber (c : Cursor) : Except YamlError (Nat × Cursor) :=
  let (digits, c) := c.takeWhile Char.isDigit
  if digits.isEmpty || digits.length > 9 then .error .badDirective
  else .ok (digits.foldl (fun n d => n * 10 + (d.toNat - 48)) 0, c)

/-- a line that begins with a percent sign -/
def readDirective (c : Cursor) : Except YamlError (Token × Cursor) := do
  let (name, c) := (c.skip 1).takeWhile isNameChar
  if name.isEmpty || !isGap c.peek then throw .badDirective
  let (token, c) ←
    if name = "YAML".toList then do
      let (major, c) ← readVersionNumber (c.skipWhile isBlank)
      if !c.is '.' then throw .badDirective
      let (minor, c) ← readVersionNumber (c.skip 1)
      pure (Token.version major minor, c)
    else if name = "TAG".toList then do
      let (handle, c) ← readTagHandle (c.skipWhile isBlank)
      if handle.length > 1 && handle.getLast? ≠ some '!' then throw .badDirective
      if !c.peek.any isBlank then throw .badDirective
      let (expansion, c) ← readTagSuffix true [] (c.skipWhile isBlank)
      if !isGap c.peek then throw .badDirective
      pure (Token.tagShorthand (String.ofList handle) expansion, c)
    else throw .badDirective
  let c := c.skipWhile isBlank
  let c := if c.is '#' then c.skipWhile (!isBreak ·) else c
  if !isLineEnd c.peek then throw .badDirective
  return (token, (c.lineBreak?.map (·.2)).getD c)

/-! ## Layout -/

/-- a token that becomes a key if a colon follows -/
structure KeyPlace where
  token : Nat
  index : Nat
  line : Nat
  column : Nat
  /-- whether nothing but a key can stand there -/
  required : Bool

structure Layout where
  cursor : Cursor
  tokens : Array Token := #[]
  level : Nat := 0
  /-- the levels of the blocks around the current one -/
  outer : List Nat := []
  keyAllowed : Bool := true
  key : Option KeyPlace := none
  /-- the possible keys before each open bracket -/
  outerKeys : List (Option KeyPlace) := []

namespace Layout

def inFlow (l : Layout) : Bool := !l.outerKeys.isEmpty

def push (l : Layout) (t : Token) : Layout := { l with tokens := l.tokens.push t }

/-- opens a block at a column unless one is open there; its token goes to place `at?` or to the end -/
def openBlock (l : Layout) (column : Nat) (at? : Option Nat) (t : Token) : Layout :=
  if l.inFlow || l.level > column then l
  else
    let tokens := match at? with
      | some i => l.tokens.insertIdxIfInBounds i t
      | none => l.tokens.push t
    { l with tokens := tokens, level := column + 1, outer := l.level :: l.outer }

/-- ends every block whose level is above the given one -/
def closeBlocks (level : Nat) : List Nat → Layout → Layout
  | outer, l =>
    if l.inFlow || l.level ≤ level then l
    else
      match outer with
      | [] => { l with level := 0, outer := [] }.push .blockEnd
      | next :: rest => closeBlocks level rest ({ l with level := next, outer := rest }.push .blockEnd)

def closeTo (l : Layout) (level : Nat) : Layout := closeBlocks level l.outer l

/-- gives up the possible key at the current depth -/
def dropKey (l : Layout) : Except YamlError Layout :=
  if l.key.any (·.required) then .error .keyWithoutValue else .ok { l with key := none }

/-- notes that the next token may be a key -/
def noteKey (l : Layout) : Except YamlError Layout :=
  if !l.keyAllowed then .ok l
  else do
    let c := l.cursor
    let place : KeyPlace := { token := l.tokens.size, index := c.index, line := c.line, column := c.column,
                              required := !l.inFlow && l.level = c.column + 1 }
    return { (← l.dropKey) with key := some place }

/-- whether the colon would come too late for a key -/
def isStale (c : Cursor) (k : KeyPlace) : Bool := k.line < c.line || k.index + 1024 < c.index

/-- gives up every possible key whose colon would come too late -/
def dropStale (l : Layout) : Except YamlError Layout :=
  let stale (k : Option KeyPlace) : Bool := k.any (isStale l.cursor)
  let keys := l.key :: l.outerKeys
  if keys.any fun k => stale k && k.any (·.required) then .error .keyWithoutValue
  else .ok { l with key := if stale l.key then none else l.key,
                    outerKeys := l.outerKeys.map fun k => if stale k then none else k }

/-- skips blanks, comments and line breaks. Tabs count as blanks where no key can begin. -/
def skipToToken : Nat → Layout → Layout
  | 0, l => l
  | fuel + 1, l =>
    let c := if l.cursor.index = 0 && l.cursor.is '\ufeff' then l.cursor.skip 1 else l.cursor
    let tabs := l.inFlow || !l.keyAllowed
    let c := c.skipWhile fun x => x = ' ' || (tabs && x = '\t')
    let c := if c.is '#' then c.skipWhile (!isBreak ·) else c
    match c.lineBreak? with
    | some (_, after) => skipToToken fuel { l with cursor := after, keyAllowed := l.keyAllowed || !l.inFlow }
    | none => { l with cursor := c }

/-- a token of some characters that the layout does not change -/
def take (l : Layout) (n : Nat) (t : Token) : Layout := { l.push t with cursor := l.cursor.skip n }

def openFlow (l : Layout) (t : Token) : Except YamlError Layout := do
  let l ← l.noteKey
  return { l with key := none, outerKeys := l.key :: l.outerKeys, keyAllowed := true }.take 1 t

def closeFlow (l : Layout) (t : Token) : Except YamlError Layout := do
  let l ← l.dropKey
  let l := match l.outerKeys with
    | [] => l
    | key :: rest => { l with key := key, outerKeys := rest }
  return { l with keyAllowed := false }.take 1 t

def listEntry (l : Layout) : Except YamlError Layout := do
  if !l.inFlow && !l.keyAllowed then throw .misplacedEntry
  let l := l.openBlock l.cursor.column none .blockListStart
  return { (← l.dropKey) with keyAllowed := true }.take 1 .listEntry

def explicitKey (l : Layout) : Except YamlError Layout := do
  if !l.inFlow && !l.keyAllowed then throw .misplacedKey
  let l := l.openBlock l.cursor.column none .blockTableStart
  return { (← l.dropKey) with keyAllowed := !l.inFlow }.take 1 .key

/-- a colon: what stands at the remembered place is its key -/
def value (l : Layout) : Except YamlError Layout :=
  match l.key with
  | some place =>
    let l := { l with tokens := l.tokens.insertIdxIfInBounds place.token .key, key := none, keyAllowed := false }
    .ok ((l.openBlock place.column (some place.token) .blockTableStart).take 1 .value)
  | none =>
    if !l.inFlow && !l.keyAllowed then .error .misplacedValue
    else
      let l := l.openBlock l.cursor.column none .blockTableStart
      .ok ({ l with keyAllowed := !l.inFlow }.take 1 .value)

/-- a token that may be a key -/
def keyLike (l : Layout) (read : Cursor → Except YamlError (Token × Cursor)) : Except YamlError Layout := do
  let l ← l.noteKey
  let (t, c) ← read l.cursor
  return { l.push t with cursor := c, keyAllowed := false }

/-- characters no plain text begins with -/
def isIndicator (c : Char) : Bool := "-?:,[]\x7b\x7d#&*!|>'\"%@\x60".contains c

def startsPlain (l : Layout) : Bool :=
  match l.cursor.peek with
  | none => false
  | some x =>
    !(isIndicator x) || (x = '-' && !(l.cursor.peekAt 1).any isBlank) ||
      (!l.inFlow && (x = '?' || x = ':') && !isGap (l.cursor.peekAt 1))

def plainText (l : Layout) : Except YamlError Layout := do
  let l ← l.noteKey
  let (s, broken, c) ← readPlain l.inFlow l.level l.cursor
  return { l.push (.text s true) with cursor := c, keyAllowed := broken }

/-- reads the token at the cursor; `none` at the end of the text -/
def step (l : Layout) : Except YamlError (Option Layout) := do
  let l := skipToToken (l.cursor.rest.length + 1) l
  let l ← l.dropStale
  let l := l.closeTo (l.cursor.column + 1)
  let c := l.cursor
  match c.peek with
  | none => return none
  | some x =>
    let indicated := l.inFlow || isGap (c.peekAt 1)
    if c.column = 0 && x = '%' then
      let l ← (l.closeTo 0).dropKey
      let (t, c) ← readDirective l.cursor
      return some { l.push t with cursor := c, keyAllowed := false }
    if c.atDocumentMark '-' then
      return some ({ (← (l.closeTo 0).dropKey) with keyAllowed := false }.take 3 .documentStart)
    if c.atDocumentMark '.' then
      return some ({ (← (l.closeTo 0).dropKey) with keyAllowed := false }.take 3 .documentEnd)
    if x = '[' then return some (← l.openFlow .flowListStart)
    if x = '\x7b' then return some (← l.openFlow .flowTableStart)
    if x = ']' then return some (← l.closeFlow .flowListEnd)
    if x = '\x7d' then return some (← l.closeFlow .flowTableEnd)
    if x = ',' then return some ({ (← l.dropKey) with keyAllowed := true }.take 1 .flowEntry)
    if x = '-' && isGap (c.peekAt 1) then return some (← l.listEntry)
    if x = '?' && indicated then return some (← l.explicitKey)
    if x = ':' && indicated then return some (← l.value)
    if x = '*' then
      return some (← l.keyLike fun c => do let (s, c) ← readAnchorName (c.skip 1); return (.alias s, c))
    if x = '&' then
      return some (← l.keyLike fun c => do let (s, c) ← readAnchorName (c.skip 1); return (.anchor s, c))
    if x = '!' then return some (← l.keyLike (readTag l.inFlow))
    if (x = '|' || x = '>') && !l.inFlow then
      let l ← l.dropKey
      let (s, c) ← readBlock l.level l.cursor
      return some { l.push (.text s false) with cursor := c, keyAllowed := true }
    if x = '\'' || x = '"' then
      return some (← l.keyLike fun c => do let (s, c) ← readQuoted c; return (.text s false, c))
    if l.startsPlain then return some (← l.plainText)
    throw .unexpectedCharacter

/-- reads tokens until the text ends, where all blocks end -/
def run : Nat → Layout → Except YamlError Layout
  | 0, _ => .error .unexpectedCharacter
  | fuel + 1, l => do
    match ← l.step with
    | some l => run fuel l
    | none =>
      let l ← (skipToToken (l.cursor.rest.length + 1) l).dropStale
      (l.closeTo 0).dropKey

end Layout

/-- the tokens of a text -/
def tokens (text : String) : Except YamlError (List Token) := do
  let cs := text.toList
  if !cs.all isAllowed then throw .forbiddenCharacter
  let l ← Layout.run (cs.length + 1) { cursor := { rest := cs } }
  return l.tokens.toList

end Gleaner.Yaml
