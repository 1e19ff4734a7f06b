/-
The library of texts. Places in a text are counted from 1, and from the end if they are negative.
-/
import Gleaner.Lua.Format
import Gleaner.Lua.Library.Arguments
import Gleaner.Lua.Pattern

namespace Gleaner.Lua.Library

def mapBytes (f : UInt8 → UInt8) (b : Bytes) : Bytes := ByteArray.mk (b.data.map f)

/-- the place a number means in a text of some length: where a part starts -/
def startPlace (i : Int) (size : Nat) : Nat :=
  if i > 0 then i.toNat else if i = 0 then 1 else if i < -(size : Int) then 1 else (size + i + 1).toNat

/-- where a part ends -/
def endPlace (i : Int) (size : Nat) : Nat :=
  if i > (size : Int) then size else if i ≥ 0 then i.toNat else if i < -(size : Int) then 0 else (size + i + 1).toNat

def substring (s : Bytes) (i j : Int) : Bytes :=
  let lo := startPlace i s.size
  let hi := endPlace j s.size
  if lo > hi then ByteArray.empty else s.extract (lo - 1) hi

/-- the most bytes of a text that is made at once -/
def maxText : Nat := 1 <<< 30

def repeatText (s sep : Bytes) (n : Nat) : Bytes :=
  let rec go : Nat → Bytes → Bytes
    | 0, acc => acc
    | k + 1, acc => go k (acc ++ sep ++ s)
  match n with
  | 0 => ByteArray.empty
  | k + 1 => go k s

/-- what `find` and `match` give -/
def findMatch (a : Arguments) (wantPlaces : Bool) : Action := do
  let s ← a.text 0
  let p ← a.text 1
  let start := startPlace (← a.intOr 2 1) s.size - 1
  if start > s.size then Action.give [.nil]
  else if wantPlaces && ((a.get 3).truthy || Pattern.isPlain p) then
    match Pattern.plainFrom s p (s.size + 1) start with
    | some i => Action.give [.int (.ofNat (i + 1)), .int (.ofNat (i + p.size))]
    | none => Action.give [.nil]
  else
    match ← Pattern.search s p start with
    | none => Action.give [.nil]
    | some (lo, hi, caps) =>
      if wantPlaces then
        Action.give ([.int (.ofNat (lo + 1)), .int (.ofNat hi)] ++ (← Pattern.captureValues s caps))
      else Action.give (← Pattern.matchValues s lo hi caps)

/-! ## Replacing -/

/-- fills in the captures of a replacement -/
def fillReplacement (s : ReplaceState) (caps : Pattern.Captures) (stop : Nat) : List Char → Except String (List Char)
  | [] => .ok []
  | '%' :: c :: rest => do
    let more ← fillReplacement s caps stop rest
    if c = '%' then return '%' :: more
    else if c.isDigit then
      let i := c.toNat - 48
      let whole := s.text.extract s.position stop
      if i = 0 then return byteChars whole ++ more
      else if i = 1 && caps.isEmpty then return byteChars whole ++ more
      else
        match caps[i - 1]? with
        | some cap =>
          match (← Pattern.captureValue s.text cap).asText? with
          | some b => return byteChars b ++ more
          | none => return more
        | none => throw ("invalid capture index %" ++ toString i ++ " in replacement string")
    else throw "invalid use of '%' in replacement string"
  | ['%'] => .error "invalid use of '%' in replacement string"
  | c :: rest => do return c :: (← fillReplacement s caps stop rest)

/-- what is done about a match: the text for it, or the value that has to be asked for it -/
inductive Answer where
  | text (b : Bytes)
  | ask (act : Machine → Machine)

def answerMatch (s : ReplaceState) (caps : Pattern.Captures) (stop : Nat) : Except String Answer := do
  match s.replacement with
  | .text r => return .text (toBytes (← fillReplacement s caps stop (byteChars r)))
  | r =>
    let values ← Pattern.matchValues s.text s.position stop caps
    match r with
    | .table _ => return .ask (Machine.index none (fun _ => "") r (values.headD .nil))
    | _ => return .ask (Machine.call r values none)

/-- replaces matches from a place on, up to the first that has to be asked for -/
def replaceFrom (site : Option Site) : Nat → ReplaceState → Machine → Machine
  | 0, _, m => m.fail site "pattern too complex"
  | fuel + 1, s, m =>
    let finish (s : ReplaceState) : Machine :=
      m.give [.text (s.out ++ s.text.extract s.position s.text.size), .int (.ofNat s.count)]
    if s.count ≥ s.most then finish s
    else
      match Pattern.matchAt s.text s.pattern s.position with
      | .error e => m.fail site e
      | .ok found =>
        match found.filter fun (stop, _) => s.ended ≠ some stop with
        | some (stop, caps) =>
          match answerMatch s caps stop with
          | .error e => m.fail site e
          | .ok answer =>
            let next := { s with position := stop, ended := some stop, count := s.count + 1 }
            match answer with
            | .text b =>
              let next := { next with out := s.out ++ b }
              if s.anchored then finish next else replaceFrom site fuel next m
            | .ask act =>
              act (m.push (.replacing { next with found := s.text.extract s.position stop } site))
        | none =>
          if s.position < s.text.size && !s.anchored then
            replaceFrom site fuel
              { s with out := s.out.push (Pattern.byteAt s.text s.position), position := s.position + 1 } m
          else finish s

/-- goes on with the value for a match -/
def resumeReplace (s : ReplaceState) (site : Option Site) (v : Value) (m : Machine) : Machine :=
  let go (b : Bytes) : Machine :=
    let s := { s with out := s.out ++ b }
    let s := if s.anchored then { s with most := s.count } else s
    replaceFrom site (s.text.size + 2) s m
  if !v.truthy then go s.found
  else
    match v.asText? with
    | some b => go b
    | none => m.fail site ("invalid replacement value (a " ++ v.typeName ++ ")")

def replaceAll (a : Arguments) : Action := do
  let s ← a.text 0
  let p ← a.text 1
  let r := a.get 2
  let replacement ← match r with
    | .table _ => pure r
    | r =>
      match r.asText? with
      | some b => pure (Value.text b)
      | none => if r.isFunction then pure r else a.wrongType 2 "string/function/table"
  let most ← a.intOr 3 (s.size + 1)
  let anchored := Pattern.isAnchored p
  let state : ReplaceState :=
    { text := s, pattern := if anchored then p.extract 1 p.size else p, anchored := anchored,
      replacement := replacement, position := 0, ended := none, count := 0, most := most.toNat, out := ByteArray.empty, found := ByteArray.empty }
  return replaceFrom a.site (s.size + 2) state

/-! ## Matches one after the other -/

/-- the next match of a walk through a text -/
def nextMatch (s p : Bytes) (ended : Option Nat) : Nat → Nat → Except String (Option (List Value × Nat))
  | 0, _ => .ok none
  | fuel + 1, at_ =>
    if at_ > s.size then .ok none
    else do
      match ← Pattern.matchAt s p at_ with
      | some (stop, caps) =>
        if ended = some stop then nextMatch s p ended fuel (at_ + 1)
        else return some (← Pattern.matchValues s at_ stop caps, stop)
      | none => nextMatch s p ended fuel (at_ + 1)

/-- a step of the function that `gmatch` gives -/
def stepMatches (i : Nat) (site : Option Site) (m : Machine) : Machine :=
  match (m.bounds.getD i default).values with
  | #[.text s, .text p, .int at_, .int ended] =>
    let last := if ended < 0 then none else some ended.toInt.toNat
    match nextMatch s p last (s.size + 2) at_.toInt.toNat with
    | .error e => m.fail site e
    | .ok none => m.give1 .nil
    | .ok (some (values, stop)) =>
      let place := Value.int (.ofNat stop)
      { m with bounds := m.bounds.setIfInBounds i ⟨"gmatch", #[.text s, .text p, place, place]⟩ }.give values
  | _ => m.give1 .nil

def startMatches (a : Arguments) : Action := do
  let s ← a.text 0
  let p ← a.text 1
  let start := startPlace (← a.intOr 2 1) s.size - 1
  return fun m =>
    let (i, m) := m.newBound ⟨"gmatch", #[.text s, .text p, .int (.ofNat (min start (s.size + 1))), .int (-1)]⟩
    m.give1 (.bound i)

/-! ## Formats -/

/-- the text of a value in a format, the values asked for their texts before -/
def plainText (v : Value) : Bytes :=
  match v with
  | .nil => ofText "nil"
  | .bool b => ofText (if b then "true" else "false")
  | v => v.asText?.getD (ofText v.typeName)

def formatDirective (a : Arguments) (i : Nat) (d : Format.Directive) : Except String (List Char) := do
  if "diuoxX".toList.contains d.conversion then
    return Format.intBody d (.ofInt (← a.int i))
  else if d.conversion = 'c' then
    return Format.pad d false [] [Char.ofNat ((← a.int i) % 256).toNat]
  else if d.conversion = 's' then
    let cs := byteChars (plainText (← a.any i))
    return Format.pad d false [] (match d.precision with
      | some n => cs.take n
      | none => cs)
  else if d.conversion = 'q' then
    match Format.quoted? (← a.any i) with
    | some cs => return cs
    | none => a.fault i "value has no literal form"
  else if d.conversion = 'p' then return Format.pad d false [] "(null)".toList
  else return Format.floatBody d (← a.float i)

/-- fills in a format; argument `i` is the next -/
def formatParts (a : Arguments) : Nat → List Format.Part → Except String (List Char)
  | _, [] => .ok []
  | i, .text cs :: rest => do return cs ++ (← formatParts a i rest)
  | i, .directive d :: rest => do
    if !a.has i then a.fault i "no value"
    else
      let here ← formatDirective a i d
      return here ++ (← formatParts a (i + 1) rest)

def formatText (a : Arguments) : Action := do
  let format := byteChars (← a.text 0)
  Action.text (toBytes (← formatParts a 1 (← Format.parts (format.length + 1) format)))

/-! ## The library -/

def textNames : List String :=
  ["byte", "char", "find", "format", "gmatch", "gsub", "len", "lower", "match", "rep", "reverse", "sub", "upper"]

def textLibrary? (a : Arguments) : Option Action :=
  match a.name with
  | "string.byte" => some do
    let s ← a.text 0
    let i ← a.intOr 1 1
    let lo := startPlace i s.size
    let hi := endPlace (← a.intOr 2 (if i > 0 then (lo : Int) else i)) s.size
    Action.give (if lo > hi then [] else (s.extract (lo - 1) hi).toList.map fun b => .int (.ofNat b.toNat))
  | "string.char" => some do
    let bytes ← (List.range a.values.size).mapM fun i => do
      let n ← a.int i
      if n < 0 || n > 255 then a.fault i "value out of range" else return n.toNat.toUInt8
    Action.text (ByteArray.mk bytes.toArray)
  | "string.find" => some (findMatch a true)
  | "string.match" => some (findMatch a false)
  | "string.gmatch" => some (startMatches a)
  | "string.gsub" => some (replaceAll a)
  | "string.format" => some (formatText a)
  | "string.len" => some do Action.int (← a.text 0).size
  | "string.lower" => some do Action.text (mapBytes Pattern.lowerByte (← a.text 0))
  | "string.upper" => some do Action.text (mapBytes Pattern.upperByte (← a.text 0))
  | "string.rep" => some do
    let s ← a.text 0
    let n ← a.int 1
    let sep ← a.textOr 2 ""
    if n ≤ 0 then Action.text ByteArray.empty
    else if (s.size + sep.size) * n.toNat > maxText then throw "resulting string too large"
    else if s.size + sep.size = 0 then Action.text ByteArray.empty
    else Action.text (repeatText s sep n.toNat)
  | "string.reverse" => some do
    let s ← a.text 0
    Action.text (ByteArray.mk s.data.reverse)
  | "string.sub" => some do
    let s ← a.text 0
    Action.text (substring s (← a.int 1) (← a.intOr 2 (-1)))
  | _ => none

end Gleaner.Lua.Library
