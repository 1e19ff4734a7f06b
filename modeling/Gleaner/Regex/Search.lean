/-
Running programs.

All places that a match may have reached are advanced together, one character at a time, in order of preference. A
place reached twice at the same character is kept once, by the preferred way to it, so the time is bounded by the
length of the text times the size of the program. When a way through is complete, the less preferred ones are given
up and the more preferred ones go on. `search` finds the leftmost match and, among the matches that start there, the
preferred one; `findAll` goes on from the end of each match, and skips an empty match right behind another match.
-/
import Gleaner.Regex.Program

namespace Gleaner.Regex

/-- the positions captured so far, by slot -/
abbrev Slots := Array (Option Nat)

/-- a character that counts as part of a word -/
def isWordChar (ascii : Bool) (c : Char) : Bool :=
  if c.toNat < 0x80 then c.isAlphanum || c = '_'
  else !ascii && Unicode.wordChars.contains c.toNat

/-- whether a condition holds at a position -/
def Look.holds (l : Look) (text : Array Char) (pos : Nat) : Bool :=
  let before := if pos = 0 then none else text[pos - 1]?
  let after := text[pos]?
  let wordBefore (ascii : Bool) := before.any (isWordChar ascii)
  let wordAfter (ascii : Bool) := after.any (isWordChar ascii)
  match l with
  | .textStart => pos == 0
  | .textEnd => after.isNone
  | .lineStart => before.all (· == '\n')
  | .lineEnd => after.all (· == '\n')
  | .crlfStart => before.all fun b => b == '\n' || (b == '\r' && after != some '\n')
  | .crlfEnd => after.all fun a => a == '\r' || (a == '\n' && before != some '\r')
  | .word ascii => wordBefore ascii != wordAfter ascii
  | .notWord ascii => wordBefore ascii == wordAfter ascii
  | .wordStart ascii => !wordBefore ascii && wordAfter ascii
  | .wordEnd ascii => wordBefore ascii && !wordAfter ascii
  | .wordStartHalf ascii => !wordBefore ascii
  | .wordEndHalf ascii => !wordAfter ascii

/-- a way through the program so far: the instruction reached and the positions captured -/
structure Thread where
  pc : Nat
  slots : Slots
  deriving Inhabited

/-- the threads waiting at a position, most preferred first; `seen` holds for each instruction one more than the last
position at which it was reached -/
structure Frontier where
  threads : Array Thread
  seen : Array Nat

/-- follows all instructions that take no character. The stack holds the places still to visit, the preferred ones on
top. Every visited instruction pushes at most two places, which is what the fuel counts. -/
def follow (insts : Array Inst) (text : Array Char) (pos : Nat) : Nat → List Thread → Frontier → Frontier
  | 0, _, f => f
  | _, [], f => f
  | fuel + 1, t :: stack, f =>
    if f.seen.getD t.pc 0 == pos + 1 then follow insts text pos fuel stack f
    else
      let ⟨threads, seen⟩ := f
      let seen := seen.set! t.pc (pos + 1)
      match insts[t.pc]? with
      | some (.split a b) => follow insts text pos fuel (⟨a, t.slots⟩ :: ⟨b, t.slots⟩ :: stack) ⟨threads, seen⟩
      | some (.look l next) =>
        if l.holds text pos then follow insts text pos fuel (⟨next, t.slots⟩ :: stack) ⟨threads, seen⟩
        else follow insts text pos fuel stack ⟨threads, seen⟩
      | some (.save slot next) =>
        follow insts text pos fuel (⟨next, t.slots.setIfInBounds slot (some pos)⟩ :: stack) ⟨threads, seen⟩
      | _ => follow insts text pos fuel stack ⟨threads.push t, seen⟩

/-- visits a place and everything behind it -/
def Program.enter (p : Program) (text : Array Char) (pos : Nat) (t : Thread) (f : Frontier) : Frontier :=
  follow p.insts text pos (2 * p.insts.size + 2) [t] f

/-- takes one character along the threads in order; a completed match ends the round -/
def Program.advance (p : Program) (text : Array Char) (pos : Nat) :
    List Thread → Frontier → Frontier × Option Slots
  | [], next => (next, none)
  | t :: rest, next =>
    match p.insts[t.pc]? with
    | some .accept => (next, some t.slots)
    | some (.char c target) =>
      if text[pos]? == some c then p.advance text pos rest (p.enter text (pos + 1) ⟨target, t.slots⟩ next)
      else p.advance text pos rest next
    | some (.set s target) =>
      match text[pos]? with
      | some c =>
        if s.contains c.toNat then p.advance text pos rest (p.enter text (pos + 1) ⟨target, t.slots⟩ next)
        else p.advance text pos rest next
      | none => p.advance text pos rest next
    | _ => p.advance text pos rest next

/-- goes through the text from `pos` on, `fuel` positions at most; a new start is tried at each position until a match
is known -/
def Program.searchFrom (p : Program) (text : Array Char) : Nat → Nat → Frontier → Option Slots → Option Slots
  | 0, _, _, best => best
  | fuel + 1, pos, f, best =>
    let f := if best.isNone then p.enter text pos ⟨p.start, Array.replicate p.slots none⟩ f else f
    if f.threads.isEmpty && best.isSome then best
    else
      let ⟨threads, seen⟩ := f
      let (next, found) := p.advance text pos threads.toList ⟨#[], seen⟩
      p.searchFrom text fuel (pos + 1) next (found <|> best)

/-- the leftmost match at or behind `start` -/
def Program.search (p : Program) (text : Array Char) (start : Nat) : Option Slots :=
  p.searchFrom text (text.size + 1 - start) start ⟨#[], Array.replicate p.insts.size 0⟩ none

/-- the position in a slot -/
def slot (slots : Slots) (i : Nat) : Nat := (slots.getD i none).getD 0

/-- the matches from `start` on; `last` is the end of the match before -/
def Program.findFrom (p : Program) (text : Array Char) : Nat → Nat → Option Nat → List Slots
  | 0, _, _ => []
  | fuel + 1, start, last =>
    match p.search text start with
    | none => []
    | some found =>
      if slot found 0 = slot found 1 && some (slot found 1) == last then
        match p.search text (start + 1) with
        | none => []
        | some again => again :: p.findFrom text fuel (slot again 1) (some (slot again 1))
      else found :: p.findFrom text fuel (slot found 1) (some (slot found 1))

/-- all matches that do not overlap, from left to right -/
def Program.findAll (p : Program) (text : Array Char) : List Slots :=
  p.findFrom text (text.size + 2) 0 none

end Gleaner.Regex
