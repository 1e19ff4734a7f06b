/-
The library of code points in texts.
-/
import Gleaner.Lua.Library.Text

namespace Gleaner.Lua.Library

def isContinuation (b : UInt8) : Bool := b &&& 0xC0 = 0x80

/-- the code point that starts at a place, and how many bytes it takes -/
def codeAt? (strict : Bool) (s : Bytes) (i : Nat) : Option (Nat × Nat) :=
  let byte (k : Nat) : Nat := (Pattern.byteAt s (i + k)).toNat
  let lead := byte 0
  let tail (n : Nat) (first least : Nat) : Option (Nat × Nat) :=
    let parts := (List.range n).map fun k => Pattern.byteAt s (i + k + 1)
    if i + n ≥ s.size || !parts.all isContinuation then none
    else
      let value := parts.foldl (fun v b => v * 64 + (b.toNat - 0x80)) first
      if value < least then none
      else if strict && (value > 0x10FFFF || (0xD800 ≤ value && value ≤ 0xDFFF)) then none
      else some (value, n + 1)
  if i ≥ s.size then none
  else if lead < 0x80 then some (lead, 1)
  else if lead < 0xC0 then none
  else if lead < 0xE0 then tail 1 (lead - 0xC0) 0x80
  else if lead < 0xF0 then tail 2 (lead - 0xE0) 0x800
  else if lead < 0xF8 then tail 3 (lead - 0xF0) 0x10000
  else if lead < 0xFC then tail 4 (lead - 0xF8) 0x200000
  else if lead < 0xFE then tail 5 (lead - 0xFC) 0x4000000
  else none

/-- the code points between two places, or the place of one that is none -/
def codesBetween (strict : Bool) (s : Bytes) (hi : Nat) : Nat → Nat → Except Nat (List Nat)
  | 0, _ => .ok []
  | fuel + 1, i =>
    if i ≥ hi then .ok []
    else
      match codeAt? strict s i with
      | none => .error i
      | some (c, n) => do return c :: (← codesBetween strict s hi fuel (i + n))

/-- the place a number means, counted from the end if it is negative -/
def placeOf (i : Int) (size : Nat) : Int := if i ≥ 0 then i else if -i > (size : Int) then 0 else size + i + 1

/-- the place where the character before ends -/
def backToStart (s : Bytes) : Nat → Nat → Nat
  | 0, i => i
  | fuel + 1, i => if i > 0 && isContinuation (Pattern.byteAt s i) then backToStart s fuel (i - 1) else i

/-- the first place from `i` on where a character can start -/
def nextStart (s : Bytes) : Nat → Nat → Nat
  | 0, i => i
  | fuel + 1, i => if isContinuation (Pattern.byteAt s i) then nextStart s fuel (i + 1) else i

/-- goes over `n` characters forward -/
def forwardBy (s : Bytes) : Nat → Nat → Option Nat
  | 0, i => some i
  | n + 1, i => if i ≥ s.size then none else forwardBy s n (nextStart s s.size (i + 1))

/-- goes over `n` characters backward -/
def backwardBy (s : Bytes) : Nat → Nat → Option Nat
  | 0, i => some i
  | n + 1, i => if i = 0 then none else backwardBy s n (backToStart s s.size (i - 1))

def offsetAction (a : Arguments) : Action := do
  let s ← a.text 0
  let n ← a.int 1
  let i := placeOf (← a.intOr 2 (if n > 0 then 1 else s.size + 1)) s.size - 1
  if i < 0 || i > s.size then a.fault 2 "position out of bounds"
  let i := i.toNat
  let answer (found : Option Nat) : Action :=
    Action.give [(found.map fun k => Value.int (.ofNat (k + 1))).getD .nil]
  if n = 0 then answer (some (backToStart s s.size i))
  else if isContinuation (Pattern.byteAt s i) then throw "initial position is a continuation byte"
  else if n < 0 then answer (backwardBy s (-n).toNat i)
  else answer (forwardBy s (n - 1).toNat i)

/-- the pattern that matches one character -/
def charPattern : Bytes := toBytes ("[\x00-\x7F".toList ++ [Char.ofNat 0xC2, '-', Char.ofNat 0xFD, ']', '[',
  Char.ofNat 0x80, '-', Char.ofNat 0xBF, ']', '*'])

def codeNames : List String := ["char", "codepoint", "codes", "len", "offset"]

/-- a step of a walk over the characters: the place behind the one at `i`, and the code point there -/
def stepCodes (a : Arguments) : Action := do
  let s ← a.text 0
  let i ← a.int 1
  let start := if i ≤ 0 then 0 else nextStart s s.size i.toNat
  if start ≥ s.size then Action.give [.nil]
  else
    match codeAt? true s start with
    | some (c, n) =>
      if isContinuation (Pattern.byteAt s (start + n)) then throw "invalid UTF-8 code"
      Action.give [.int (.ofNat (start + 1)), .int (.ofNat c)]
    | none => throw "invalid UTF-8 code"

def codeLibrary? (a : Arguments) : Option Action :=
  match a.name with
  | "utf8.char" => some do
    let parts ← (List.range a.values.size).mapM fun i => do
      let n ← a.int i
      if n < 0 || n > 0x7FFFFFFF then a.fault i "value out of range" else return utf8Bytes n.toNat
    Action.text (toBytes parts.flatten)
  | "utf8.codepoint" => some do
    let s ← a.text 0
    let i := placeOf (← a.intOr 1 1) s.size
    let j := placeOf (← a.intOr 2 i) s.size
    if i < 1 then a.fault 1 "out of bounds"
    if j > s.size then a.fault 2 "out of bounds"
    match codesBetween (!(a.get 3).truthy) s j.toNat (s.size + 1) (i.toNat - 1) with
    | .ok cs => Action.give (cs.map fun c => .int (.ofNat c))
    | .error _ => throw "invalid UTF-8 code"
  | "utf8.codes" => some do
    let s ← a.text 0
    Action.give [.native "utf8.codes step", .text s, .int 0]
  | "utf8.codes step" => some (stepCodes a)
  | "utf8.len" => some do
    let s ← a.text 0
    let i := placeOf (← a.intOr 1 1) s.size
    let j := placeOf (← a.intOr 2 (-1)) s.size
    if i < 1 || i > s.size + 1 then a.fault 1 "initial position out of bounds"
    if j > s.size then a.fault 2 "final position out of bounds"
    match codesBetween (!(a.get 3).truthy) s j.toNat (s.size + 1) (i.toNat - 1) with
    | .ok cs => Action.int cs.length
    | .error k => Action.give [.nil, .int (.ofNat (k + 1))]
  | "utf8.offset" => some (offsetAction a)
  | _ => none

end Gleaner.Lua.Library
