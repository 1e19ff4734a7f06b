/-
Lua's patterns: classes of characters, repetitions of single ones, captures, balanced pairs and frontiers.

A match is found by trying: the longest repetition first, or the shortest for `-`. `matchAt` gives the end of a match
that starts at a place, and the captures.
-/
import Gleaner.Lua.Value

namespace Gleaner.Lua.Pattern

/-- a capture by its start: where it ends is not known yet, it is a position, or it has a length -/
inductive Extent where
  | unfinished
  | position
  | length (n : Nat)
  deriving DecidableEq, Inhabited

abbrev Captures := Array (Nat × Extent)

def maxCaptures : Nat := 32

def escape : UInt8 := 37

/-- the byte at a place; 0 behind the end -/
def byteAt (b : Bytes) (i : Nat) : UInt8 := if h : i < b.size then b[i] else 0

def code (c : Char) : UInt8 := c.toNat.toUInt8

def isAlphaByte (c : UInt8) : Bool := (65 ≤ c && c ≤ 90) || (97 ≤ c && c ≤ 122)
def isDigitByte (c : UInt8) : Bool := 48 ≤ c && c ≤ 57
def isLowerByte (c : UInt8) : Bool := 97 ≤ c && c ≤ 122
def isUpperByte (c : UInt8) : Bool := 65 ≤ c && c ≤ 90
def isSpaceByte (c : UInt8) : Bool := c = 32 || (9 ≤ c && c ≤ 13)
def isControlByte (c : UInt8) : Bool := c < 32 || c = 127
def isGraphByte (c : UInt8) : Bool := 33 ≤ c && c ≤ 126
def isHexByte (c : UInt8) : Bool := isDigitByte c || (65 ≤ c && c ≤ 70) || (97 ≤ c && c ≤ 102)
def lowerByte (c : UInt8) : UInt8 := if isUpperByte c then c + 32 else c
def upperByte (c : UInt8) : UInt8 := if isLowerByte c then c - 32 else c

/-- whether a byte belongs to the class of a letter behind `%`; an upper-case letter stands for all other bytes -/
def inClass (c cl : UInt8) : Bool :=
  let plain? : Option Bool := match Char.ofNat (lowerByte cl).toNat with
    | 'a' => some (isAlphaByte c)
    | 'c' => some (isControlByte c)
    | 'd' => some (isDigitByte c)
    | 'g' => some (isGraphByte c)
    | 'l' => some (isLowerByte c)
    | 'p' => some (isGraphByte c && !isAlphaByte c && !isDigitByte c)
    | 's' => some (isSpaceByte c)
    | 'u' => some (isUpperByte c)
    | 'w' => some (isAlphaByte c || isDigitByte c)
    | 'x' => some (isHexByte c)
    | _ => none
  match plain? with
  | some b => if isUpperByte cl then !b else b
  | none => cl = c

/-- the end of a set, `p` being behind its bracket; the first member may be a closing bracket -/
def setEnd (pat : Bytes) : Nat → Nat → Bool → Except String Nat
  | 0, _, _ => .error "malformed pattern (missing ']')"
  | fuel + 1, p, start =>
    if p ≥ pat.size then .error "malformed pattern (missing ']')"
    else if byteAt pat p = code ']' && !start then .ok (p + 1)
    else if byteAt pat p = escape then setEnd pat fuel (p + 2) false
    else setEnd pat fuel (p + 1) false

/-- the place behind the single character, class or set at `p` -/
def itemEnd (pat : Bytes) (p : Nat) : Except String Nat :=
  if byteAt pat p = escape then
    if p + 1 ≥ pat.size then .error "malformed pattern (ends with '%')" else .ok (p + 2)
  else if byteAt pat p = code '[' then
    let start := if byteAt pat (p + 1) = code '^' then p + 2 else p + 1
    setEnd pat (pat.size + 1) start true
  else .ok (p + 1)

/-- whether a byte is a member between `p` and the closing bracket at `last` -/
def inMembers (pat : Bytes) (c : UInt8) (last : Nat) : Nat → Nat → Bool
  | 0, _ => false
  | fuel + 1, p =>
    if p ≥ last then false
    else if byteAt pat p = escape then inClass c (byteAt pat (p + 1)) || inMembers pat c last fuel (p + 2)
    else if byteAt pat (p + 1) = code '-' && p + 2 < last then
      (byteAt pat p ≤ c && c ≤ byteAt pat (p + 2)) || inMembers pat c last fuel (p + 3)
    else byteAt pat p = c || inMembers pat c last fuel (p + 1)

/-- whether a byte is in the set whose bracket opens at `p` and closes at `last` -/
def inSet (pat : Bytes) (c : UInt8) (p last : Nat) : Bool :=
  if byteAt pat (p + 1) = code '^' then !inMembers pat c last (pat.size + 1) (p + 2)
  else inMembers pat c last (pat.size + 1) (p + 1)

/-- whether the item between `p` and `ep` fits the byte at `s` -/
def itemFits (src pat : Bytes) (s p ep : Nat) : Bool :=
  if s ≥ src.size then false
  else
    let c := byteAt src s
    let q := byteAt pat p
    if q = code '.' then true
    else if q = escape then inClass c (byteAt pat (p + 1))
    else if q = code '[' then inSet pat c p (ep - 1)
    else q = c

/-- the place behind a balanced pair -/
def balancedEnd? (src : Bytes) (opening closing : UInt8) : Nat → Nat → Nat → Option Nat
  | 0, _, _ => none
  | fuel + 1, depth, s =>
    if s ≥ src.size then none
    else
      let c := byteAt src s
      if c = closing then if depth = 1 then some (s + 1) else balancedEnd? src opening closing fuel (depth - 1) (s + 1)
      else if c = opening then balancedEnd? src opening closing fuel (depth + 1) (s + 1)
      else balancedEnd? src opening closing fuel depth (s + 1)

/-- how often the item fits in a row from `s` on -/
def runLength (src pat : Bytes) (s p ep : Nat) : Nat → Nat → Nat
  | 0, n => n
  | fuel + 1, n => if itemFits src pat (s + n) p ep then runLength src pat s p ep fuel (n + 1) else n

/-- the capture that a closing parenthesis ends -/
def lastUnfinished? (caps : Captures) : Option Nat :=
  (List.range caps.size).reverse.find? fun i => (caps.getD i (0, .position)).2 = .unfinished

/-- the text of a finished capture -/
def captured? (src : Bytes) (caps : Captures) (i : Nat) : Option Bytes :=
  match caps[i]? with
  | some (start, .length n) => some (src.extract start (start + n))
  | _ => none

abbrev Found := Except String (Option (Nat × Captures))

/-- the first of some attempts that ends in a match -/
def firstOf {α : Type} (attempt : α → Found) : List α → Found
  | [] => .ok none
  | a :: rest => do
    match ← attempt a with
    | some found => return some found
    | none => firstOf attempt rest

/-- matches the pattern from `p` on at the place `s` -/
def matchFrom (src pat : Bytes) : Nat → Nat → Nat → Captures → Found
  | 0, _, _, _ => .error "pattern too complex"
  | fuel + 1, s, p, caps =>
    if p ≥ pat.size then .ok (some (s, caps))
    else
      let c := byteAt pat p
      let next := byteAt pat (p + 1)
      if c = code '(' then
        if caps.size ≥ maxCaptures then .error "too many captures"
        else if next = code ')' then matchFrom src pat fuel s (p + 2) (caps.push (s, .position))
        else matchFrom src pat fuel s (p + 1) (caps.push (s, .unfinished))
      else if c = code ')' then
        match lastUnfinished? caps with
        | none => .error "invalid pattern capture"
        | some i =>
          let start := (caps.getD i (0, .position)).1
          matchFrom src pat fuel s (p + 1) (caps.setIfInBounds i (start, .length (s - start)))
      else if c = code '$' && p + 1 = pat.size then
        if s = src.size then .ok (some (s, caps)) else .ok none
      else if c = escape && next = code 'b' then
        if p + 3 ≥ pat.size then .error "malformed pattern (missing arguments to '%b')"
        else if s < src.size && byteAt src s = byteAt pat (p + 2) then
          match balancedEnd? src (byteAt pat (p + 2)) (byteAt pat (p + 3)) (src.size + 1) 1 (s + 1) with
          | some after => matchFrom src pat fuel after (p + 4) caps
          | none => .ok none
        else .ok none
      else if c = escape && next = code 'f' then
        if byteAt pat (p + 2) ≠ code '[' then .error "missing '[' after '%f' in pattern"
        else do
          let ep ← itemEnd pat (p + 2)
          let before : UInt8 := if s = 0 then 0 else byteAt src (s - 1)
          if !inSet pat before (p + 2) (ep - 1) && inSet pat (byteAt src s) (p + 2) (ep - 1) then
            matchFrom src pat fuel s ep caps
          else return none
      else if c = escape && isDigitByte next then
        let i := next.toNat - 48
        match if i = 0 then none else captured? src caps (i - 1) with
        | none => .error ("invalid capture index %" ++ toString i)
        | some text =>
          if src.extract s (s + text.size) = text then matchFrom src pat fuel (s + text.size) (p + 2) caps
          else .ok none
      else do
        let ep ← itemEnd pat p
        let mark := byteAt pat ep
        if mark = code '?' then
          if itemFits src pat s p ep then
            match ← matchFrom src pat fuel (s + 1) (ep + 1) caps with
            | some found => return some found
            | none => matchFrom src pat fuel s (ep + 1) caps
          else matchFrom src pat fuel s (ep + 1) caps
        else if mark = code '+' || mark = code '*' then
          let n := runLength src pat s p ep (src.size + 1) 0
          let least := if mark = code '+' then 1 else 0
          if n < least then return none
          else
            firstOf (fun k => matchFrom src pat fuel (s + k) (ep + 1) caps)
              ((List.range (n + 1 - least)).map (n - ·))
        else if mark = code '-' then
          let n := runLength src pat s p ep (src.size + 1) 0
          firstOf (fun k => matchFrom src pat fuel (s + k) (ep + 1) caps) (List.range (n + 1))
        else if itemFits src pat s p ep then matchFrom src pat fuel (s + 1) ep caps
        else return none

/-- matches a pattern, without the mark that ties it to the start, at a place -/
def matchAt (src pat : Bytes) (s : Nat) : Found :=
  matchFrom src pat (src.size + 4 * pat.size + 8) s 0 #[]

def isAnchored (pat : Bytes) : Bool := byteAt pat 0 = code '^' && pat.size > 0

/-- the first match at or behind a place: its start, end and captures -/
def searchFrom (src pat : Bytes) (anchored : Bool) : Nat → Nat → Except String (Option (Nat × Nat × Captures))
  | 0, _ => .ok none
  | fuel + 1, s =>
    if s > src.size then .ok none
    else do
      match ← matchAt src pat s with
      | some (stop, caps) => return some (s, stop, caps)
      | none => if anchored then return none else searchFrom src pat anchored fuel (s + 1)

def search (src pat : Bytes) (start : Nat) : Except String (Option (Nat × Nat × Captures)) :=
  if isAnchored pat then searchFrom src (pat.extract 1 pat.size) true 1 start
  else searchFrom src pat false (src.size + 2) start

/-- the value of a capture -/
def captureValue (src : Bytes) (cap : Nat × Extent) : Except String Value :=
  match cap with
  | (start, .position) => .ok (.int (Int64.ofNat (start + 1)))
  | (start, .length n) => .ok (.text (src.extract start (start + n)))
  | (_, .unfinished) => .error "unfinished capture"

/-- the values of all captures -/
def captureValues (src : Bytes) (caps : Captures) : Except String (List Value) := caps.toList.mapM (captureValue src)

/-- the values of all captures, or the whole match if there are none -/
def matchValues (src : Bytes) (start stop : Nat) (caps : Captures) : Except String (List Value) :=
  if caps.isEmpty then .ok [.text (src.extract start stop)] else captureValues src caps

/-- where a text occurs first at or behind a place -/
def plainFrom (src word : Bytes) : Nat → Nat → Option Nat
  | 0, _ => none
  | fuel + 1, s =>
    if s + word.size > src.size then none
    else if src.extract s (s + word.size) = word then some s
    else plainFrom src word fuel (s + 1)

/-- whether a pattern has no character of a special meaning -/
def isPlain (pat : Bytes) : Bool := pat.toList.all fun c => !("^$*+?.([%-".toList.map code).contains c

end Gleaner.Lua.Pattern
