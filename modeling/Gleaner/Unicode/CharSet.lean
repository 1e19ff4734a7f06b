/-
Sets of characters as sorted, disjoint spans of code points.

`CharSet.ofSpans` sorts and joins any list of spans, so every set built here keeps its spans in order with a gap
between neighbours; `contains` then needs a binary search only. The complement is taken among the scalar values: the
code points up to 0x10FFFF without the surrogates. `unpack` reads the compact text form in which the tables of this
library are kept: alternately the gap to the next span and the span's length less one, each a number in base 32 with
the low digit first and a mark on every digit but the last.
-/

namespace Gleaner

/-- the code points from `lo` to `hi`, both included -/
structure Span where
  lo : Nat
  hi : Nat
  deriving DecidableEq, Repr, Inhabited

/-- a set of characters -/
structure CharSet where
  spans : Array Span
  deriving DecidableEq, Repr, Inhabited

namespace CharSet

/-- joins a span to the last of the spans read so far (kept in reverse), if they touch -/
def joinSpan (acc : List Span) (s : Span) : List Span :=
  match acc with
  | [] => [s]
  | last :: rest => if s.lo ≤ last.hi + 1 then ⟨last.lo, max last.hi s.hi⟩ :: rest else s :: acc

/-- the set of all code points in some span of a list; a span that ends before it starts is empty -/
def ofSpans (spans : List Span) : CharSet :=
  let proper := spans.filter fun s => s.lo ≤ s.hi
  let sorted := proper.mergeSort fun a b => a.lo ≤ b.lo
  ⟨(sorted.foldl joinSpan []).reverse.toArray⟩

def empty : CharSet := ⟨#[]⟩

/-- the scalar values -/
def all : CharSet := ⟨#[⟨0, 0xD7FF⟩, ⟨0xE000, 0x10FFFF⟩]⟩

def isEmpty (s : CharSet) : Bool := s.spans.isEmpty

/-- binary search among the spans with index from `lo` up to `hi` -/
def searchSpan (spans : Array Span) (c lo hi : Nat) : Bool :=
  if _h : lo < hi then
    let mid := (lo + hi) / 2
    match spans[mid]? with
    | none => false
    | some s =>
      if c < s.lo then searchSpan spans c lo mid
      else if s.hi < c then searchSpan spans c (mid + 1) hi
      else true
  else false
termination_by hi - lo

def contains (s : CharSet) (c : Nat) : Bool :=
  searchSpan s.spans c 0 s.spans.size

def ofChar (c : Nat) : CharSet := ⟨#[⟨c, c⟩]⟩

def union (s t : CharSet) : CharSet :=
  ofSpans (s.spans.toList ++ t.spans.toList)

def unionAll (sets : List CharSet) : CharSet :=
  ofSpans (sets.flatMap fun s => s.spans.toList)

/-- the gaps between sorted spans, from `start` on up to `0x10FFFF` -/
def gaps : Nat → List Span → List Span
  | start, [] => [⟨start, 0x10FFFF⟩]
  | start, s :: rest =>
    if start < s.lo then ⟨start, s.lo - 1⟩ :: gaps (s.hi + 1) rest else gaps (s.hi + 1) rest

/-- cuts the surrogates out of a span -/
def cutSurrogates (s : Span) : List Span :=
  if s.hi < 0xD800 || 0xDFFF < s.lo then [s]
  else [⟨s.lo, min s.hi 0xD7FF⟩, ⟨max s.lo 0xE000, s.hi⟩]

/-- the scalar values outside a set -/
def compl (s : CharSet) : CharSet :=
  ofSpans ((gaps 0 s.spans.toList).flatMap cutSurrogates)

def inter (s t : CharSet) : CharSet := (s.compl.union t.compl).compl

def diff (s t : CharSet) : CharSet := s.inter t.compl

/-- the characters in exactly one of two sets -/
def symmDiff (s t : CharSet) : CharSet := (s.union t).diff (s.inter t)

/-- all characters are below 0x80 -/
def isAscii (s : CharSet) : Bool := s.spans.all fun span => span.hi < 0x80

/-- the digit of a character of the packed form, up to 31 for a last digit and from 32 for any other -/
def packedDigit (c : Char) : Nat :=
  if 'A' ≤ c ∧ c ≤ 'Z' then c.toNat - 'A'.toNat
  else if 'a' ≤ c ∧ c ≤ 'z' then c.toNat - 'a'.toNat + 26
  else if '0' ≤ c ∧ c ≤ '9' then c.toNat - '0'.toNat + 52
  else if c = '-' then 62 else 63

/-- reads one packed digit; the state holds the numbers read so far in reverse, and the value and weight of the
number being read -/
def unpackStep (state : List Nat × Nat × Nat) (c : Char) : List Nat × Nat × Nat :=
  let (done, value, weight) := state
  let d := packedDigit c
  if d < 32 then ((value + d * weight) :: done, 0, 1)
  else (done, value + (d - 32) * weight, weight * 32)

/-- the numbers of a packed text -/
def unpackNumbers (text : String) : List Nat :=
  (text.foldl unpackStep ([], 0, 1)).1.reverse

/-- spans from alternate gaps and lengths, starting at `start` -/
def spansOf : Nat → List Nat → List Span
  | start, gap :: length :: rest =>
    let lo := start + gap
    ⟨lo, lo + length⟩ :: spansOf (lo + length + 1) rest
  | _, _ => []

/-- reads the packed form of a set -/
def unpack (text : String) : CharSet :=
  ⟨(spansOf 0 (unpackNumbers text)).toArray⟩

end CharSet

end Gleaner
