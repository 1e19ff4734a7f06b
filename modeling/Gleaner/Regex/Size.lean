/-
The size of a pattern. Matching reads the text as bytes of UTF-8 in both directions, so a class counts as the byte
automaton that recognises its characters, and every copy a counted repetition makes counts. Patterns over the limit
are refused.

Sizes are in bytes: a state takes 32, each byte range of a state with several 8, each way out of a choice 4. Forwards,
equal tails of a class are shared; backwards, equal heads.
-/
import Gleaner.Regex.Expr

namespace Gleaner.Regex

/-- the largest code points that take one, two and three bytes -/
def utf8Limits : List Nat := [0x7F, 0x7FF, 0xFFFF]

/-- the bytes of a code point -/
def utf8Bytes (c : Nat) : List Nat :=
  if c ≤ 0x7F then [c]
  else if c ≤ 0x7FF then [0xC0 + c / 64, 0x80 + c % 64]
  else if c ≤ 0xFFFF then [0xE0 + c / 4096, 0x80 + c / 64 % 64, 0x80 + c % 64]
  else [0xF0 + c / 262144, 0x80 + c / 4096 % 64, 0x80 + c / 64 % 64, 0x80 + c % 64]

/-- where to cut a span so that its parts are closer to products of byte ranges; `none` when it is one -/
def cutAt (s : Span) : Option Nat :=
  match utf8Limits.find? fun limit => s.lo ≤ limit && limit < s.hi with
  | some limit => some limit
  | none =>
    if s.hi ≤ 0x7F then none
    else [64, 4096, 262144].findSome? fun block =>
      if s.lo / block = s.hi / block then none
      else if s.lo % block ≠ 0 then some (s.lo / block * block + block - 1)
      else if s.hi % block ≠ block - 1 then some (s.hi / block * block - 1)
      else none

/-- the sequences of byte ranges that make up a span, in order -/
def byteSequences : Nat → Span → List (List Span)
  | 0, _ => []
  | fuel + 1, s =>
    match cutAt s with
    | some mid => byteSequences fuel ⟨s.lo, mid⟩ ++ byteSequences fuel ⟨mid + 1, s.hi⟩
    | none => [(utf8Bytes s.lo).zipWith (fun a b => ⟨a, b⟩) (utf8Bytes s.hi)]

def CharSet.byteSequences (s : CharSet) : List (List Span) :=
  s.spans.toList.flatMap (Regex.byteSequences 64)

/-- the states of a class so far: each by its ranges and their targets -/
abbrev SharedStates := List (List (Span × Nat))

/-- the position of a state, added if it is new -/
def share (node : List (Span × Nat)) (states : SharedStates) : Nat × SharedStates :=
  match states.findIdx? (· == node) with
  | some i => (states.length - i, states)
  | none => (states.length + 1, node :: states)

/-- groups neighbouring sequences by their first range -/
def groupHeads : List (List Span) → List (Span × List (List Span))
  | [] => []
  | [] :: rest => groupHeads rest
  | (head :: tail) :: rest =>
    match groupHeads rest with
    | (h, tails) :: more => if h = head then (h, tail :: tails) :: more else (head, [tail]) :: (h, tails) :: more
    | [] => [(head, [tail])]

/-- adds the states for sequences of at most `depth` ranges; the end is state 0 -/
def shareTails : Nat → List (List Span) → SharedStates → Nat × SharedStates
  | 0, _, states => (0, states)
  | depth + 1, seqs, states =>
    if seqs.all (·.isEmpty) then (0, states)
    else
      let (node, states) := (groupHeads seqs).foldl (fun (node, states) (head, tails) =>
        let (target, states) := shareTails depth tails states
        (node ++ [(head, target)], states)) ([], states)
      share node states

/-- all beginnings of sequences, each once -/
def heads (seqs : List (List Span)) : List (List Span) :=
  (seqs.flatMap fun seq => (List.range seq.length).map fun i => seq.take (i + 1)).eraseDups

def stateSize : Nat := 32

/-- the size of a class read forwards -/
def setSize (s : CharSet) : Nat :=
  if s.isAscii then 2 * stateSize + 8 * s.spans.size
  else
    let (_, states) := shareTails 5 (CharSet.byteSequences s) []
    states.foldl (fun total node => total + stateSize + 8 * node.length) stateSize

/-- the size of a class read backwards -/
def setSizeBack (s : CharSet) : Nat :=
  if s.isAscii then 2 * stateSize + 8 * s.spans.size
  else
    let seqs := CharSet.byteSequences s
    2 * stateSize + 4 * seqs.length + stateSize * (heads seqs).length

mutual
/-- the size of an expression, given the sizes of classes and of a group's marks -/
def Expr.sizeBy (ofSet : CharSet → Nat) (ofGroup : Nat) : Expr → Nat
  | .empty => stateSize
  | .char c => (utf8Bytes c.toNat).length * stateSize
  | .set s => ofSet s
  | .look _ => stateSize
  | .capture _ _ e => e.sizeBy ofSet ofGroup + ofGroup
  | .concat parts => Expr.sizeByList ofSet ofGroup parts
  | .alternation branches => Expr.sizeByList ofSet ofGroup branches + 4 * branches.length + 2 * stateSize
  | .repetition min max _ e =>
    let one := e.sizeBy ofSet ofGroup
    let choice := stateSize + 8
    match max with
    | some m =>
      if m = min then min * one
      else m * one + (m - min) * choice + stateSize + (if min = 0 then stateSize else 0)
    | none =>
      if min = 0 then one + choice + (if e.consumes then 0 else choice + stateSize)
      else min * one + choice

def Expr.sizeByList (ofSet : CharSet → Nat) (ofGroup : Nat) : List Expr → Nat
  | [] => 0
  | e :: rest => e.sizeBy ofSet ofGroup + Expr.sizeByList ofSet ofGroup rest
end

/-- ten mebibytes -/
def sizeLimit : Nat := 10 * (1 <<< 20)

/-- a size no smaller than the exact ones, quick to find -/
def roughSetSize (s : CharSet) : Nat := 4096 + s.spans.size * 2048

/-- the pattern is within the limit in both directions -/
def Expr.fits (e : Expr) : Bool :=
  e.sizeBy roughSetSize (2 * stateSize) + 1024 ≤ sizeLimit ||
    (e.sizeBy setSize (2 * stateSize) + 8 * stateSize ≤ sizeLimit &&
      e.sizeBy setSizeBack 0 + 4 * stateSize ≤ sizeLimit)

end Gleaner.Regex
