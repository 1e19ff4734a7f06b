/-
Producers of streams.

A producer looks at the signal from time to time and emits items in between. What it does is a list of moves, and
nothing else about it matters to whoever receives its items: `Move.items` are the items if the signal never goes up,
`Move.run` those under a signal, with the number of looks taken.

Results:
- `run_append`: the moves of two producers one behind the other;
- `run_silent`: under a signal that never goes up the items are `Move.items`;
- `run_cut`: under any signal they are `Move.items`, or a part of them from the first on and then one item that says
  that the signal was up;
- `readLines_eq_run`: the reader of lines is such a producer.
-/
import Gleaner.World
import Mathlib.Tactic

namespace Gleaner

/-- a move of a producer -/
inductive Move (α : Type) where
  /-- a look at the signal; if it is up, the stream ends with an item -/
  | look (last : α)
  | emit (item : α)
  /-- an item that ends the stream -/
  | close (item : α)

namespace Move

variable {α β : Type}

def map (f : α → β) : Move α → Move β
  | .look last => .look (f last)
  | .emit item => .emit (f item)
  | .close item => .close (f item)

/-- the items of moves if the signal never goes up -/
def items : List (Move α) → List α
  | [] => []
  | .look _ :: rest => items rest
  | .emit item :: rest => item :: items rest
  | .close item :: _ => [item]

/-- the items of moves under a signal, when a number of looks has been taken; the looks behind them, and whether the
stream goes on -/
def run (fires : Nat → Bool) (looks : Nat) : List (Move α) → List α × Nat × Bool
  | [] => ([], looks, true)
  | .look last :: rest => if fires looks then ([last], looks + 1, false) else run fires (looks + 1) rest
  | .emit item :: rest => (item :: (run fires looks rest).1, (run fires looks rest).2)
  | .close item :: _ => ([item], looks, false)

/-- no move ends the stream by itself -/
def Open (moves : List (Move α)) : Prop := ∀ item, .close item ∉ moves

/-- the items that show a signal that was up satisfy `cancelled` -/
def Heeds (cancelled : α → Prop) (moves : List (Move α)) : Prop := ∀ last, .look last ∈ moves → cancelled last

/-- some of the items from the first on, and an item that shows a signal that was up -/
def Cut (cancelled : α → Prop) (full found : List α) : Prop :=
  ∃ before last, found = before ++ [last] ∧ before <+: full ∧ cancelled last

theorem Heeds.append {cancelled : α → Prop} {xs ys : List (Move α)} (hx : Heeds cancelled xs)
    (hy : Heeds cancelled ys) : Heeds cancelled (xs ++ ys) := by
  intro last h
  rcases List.mem_append.1 h with h | h
  · exact hx last h
  · exact hy last h

theorem items_append_of_open {xs : List (Move α)} (hx : Open xs) (ys : List (Move α)) :
    items (xs ++ ys) = items xs ++ items ys := by
  induction xs with
  | nil => rfl
  | cons m rest ih =>
    have hrest : Open rest := fun item h => hx item (List.mem_cons_of_mem _ h)
    cases m with
    | look last => exact ih hrest
    | emit item => simp only [List.cons_append, items, ih hrest]
    | close item => exact absurd List.mem_cons_self (hx item)

theorem items_map (f : α → β) (moves : List (Move α)) : items (moves.map (map f)) = (items moves).map f := by
  induction moves with
  | nil => rfl
  | cons m rest ih => cases m <;> simp [map, items, ih]

theorem run_map (f : α → β) (fires : Nat → Bool) (looks : Nat) (moves : List (Move α)) :
    run fires looks (moves.map (map f)) =
      ((run fires looks moves).1.map f, (run fires looks moves).2) := by
  induction moves generalizing looks with
  | nil => rfl
  | cons m rest ih =>
    cases m with
    | look last =>
      simp only [List.map_cons, map, run]
      split
      · rfl
      · exact ih _
    | emit item => simp only [List.map_cons, map, run, ih]
    | close item => rfl

/-- **One producer behind another.** The second one comes to move only if the first lets the stream go on. -/
theorem run_append (fires : Nat → Bool) (looks : Nat) (xs ys : List (Move α)) :
    run fires looks (xs ++ ys) =
      if (run fires looks xs).2.2 then
        ((run fires looks xs).1 ++ (run fires (run fires looks xs).2.1 ys).1, (run fires (run fires looks xs).2.1 ys).2)
      else run fires looks xs := by
  induction xs generalizing looks with
  | nil => rfl
  | cons m rest ih =>
    cases m with
    | look last =>
      simp only [List.cons_append, run]
      split
      · rfl
      · exact ih _
    | emit item =>
      simp only [List.cons_append, run, ih]
      by_cases h : (run fires looks rest).2.2 = true
      · simp only [h, if_true]
      · simp only [h, Bool.false_eq_true, if_false]
    | close item => rfl

theorem run_silent {fires : Nat → Bool} (h : ∀ n, fires n = false) (looks : Nat) (moves : List (Move α)) :
    (run fires looks moves).1 = items moves := by
  induction moves generalizing looks with
  | nil => rfl
  | cons m rest ih =>
    cases m with
    | look last => simp only [run, items, h, Bool.false_eq_true, if_false, ih]
    | emit item => simp only [run, items, ih]
    | close item => rfl

theorem Cut.cons {cancelled : α → Prop} {full found : List α} (item : α) (h : Cut cancelled full found) :
    Cut cancelled (item :: full) (item :: found) := by
  obtain ⟨before, last, rfl, hbefore, hlast⟩ := h
  exact ⟨item :: before, last, rfl, List.cons_prefix_cons.2 ⟨rfl, hbefore⟩, hlast⟩

/-- **A signal only cuts a stream.** The items are those of a silent signal, or come to an end before them with an item
that shows the signal. -/
theorem run_cut {cancelled : α → Prop} {moves : List (Move α)} (hm : Heeds cancelled moves) (fires : Nat → Bool)
    (looks : Nat) :
    (run fires looks moves).1 = items moves ∨
      ((∃ n, fires n = true) ∧ Cut cancelled (items moves) (run fires looks moves).1) := by
  induction moves generalizing looks with
  | nil => exact .inl rfl
  | cons m rest ih =>
    have hrest : Heeds cancelled rest := fun last h => hm last (List.mem_cons_of_mem _ h)
    cases m with
    | look last =>
      simp only [run, items]
      split
      · rename_i hup
        exact .inr ⟨⟨looks, hup⟩, [], last, rfl, List.nil_prefix, hm last List.mem_cons_self⟩
      · exact ih hrest _
    | emit item =>
      simp only [run, items]
      rcases ih hrest looks with h | ⟨hup, h⟩
      · exact .inl (by rw [h])
      · exact .inr ⟨hup, h.cons item⟩
    | close item => exact .inl rfl

/-- if just the items of looks show the signal, the stream goes on unless one of them came -/
theorem run_goesOn (cancelled : α → Bool) {moves : List (Move α)} (hopen : Open moves)
    (hlook : ∀ last, .look last ∈ moves → cancelled last = true)
    (hemit : ∀ item, .emit item ∈ moves → cancelled item = false) (fires : Nat → Bool) (looks : Nat) :
    (run fires looks moves).2.2 = !(run fires looks moves).1.any cancelled := by
  induction moves generalizing looks with
  | nil => rfl
  | cons m rest ih =>
    have hrest := ih (fun item h => hopen item (List.mem_cons_of_mem _ h))
      (fun last h => hlook last (List.mem_cons_of_mem _ h)) fun item h => hemit item (List.mem_cons_of_mem _ h)
    cases m with
    | look last =>
      simp only [run]
      split
      · simp [hlook last List.mem_cons_self]
      · exact hrest _
    | emit item => simp only [run, List.any_cons, hemit item List.mem_cons_self, Bool.false_or, hrest]
    | close item => exact absurd List.mem_cons_self (hopen item)

end Move

/-! ## The reader of lines -/

/-- the moves of a reader of the lines left when `delivered` have been delivered -/
def readFrom (failure : Option IoError) : Nat → List Utf8.Bytes → List (Move ReadLine)
  | delivered, [] =>
    .look (.stop delivered .cancelled) :: (failure.map fun e => Move.emit (.stop delivered (.read e))).toList
  | delivered, line :: rest =>
    .look (.stop delivered .cancelled) :: .emit { number := delivered + 1, text := decodeLine line } ::
      readFrom failure (delivered + 1) rest

/-- the moves of a reader of lines -/
def Source.moves (s : Source) : List (Move ReadLine) := readFrom s.failure 0 s.lines

/-- the item shows that the signal was up -/
def ReadLine.IsCut (l : ReadLine) : Prop := l.error = some .cancelled

theorem scanFrom_eq_run (failure : Option IoError) (fires : Nat → Bool) (looks delivered : Nat)
    (lines : List Utf8.Bytes) :
    (scanFrom failure (fun n => fires (looks + n)) (fun _ => true) delivered lines).1 =
      (Move.run fires (looks + delivered) (readFrom failure delivered lines)).1 := by
  induction lines generalizing delivered with
  | nil =>
    simp only [scanFrom, readFrom, Move.run]
    split
    · rfl
    · cases failure <;> rfl
  | cons line rest ih =>
    simp only [scanFrom, readFrom, Move.run]
    split
    · rfl
    · simp only [if_true, ih, Nat.add_assoc]

/-- **Reading lines is a producer's work** -/
theorem readLines_eq_run (s : Source) (fires : Nat → Bool) (looks : Nat) :
    readLines s (fun n => fires (looks + n)) = (Move.run fires looks s.moves).1 :=
  scanFrom_eq_run s.failure fires looks 0 s.lines

theorem readFrom_heeds (failure : Option IoError) (delivered : Nat) (lines : List Utf8.Bytes) :
    Move.Heeds ReadLine.IsCut (readFrom failure delivered lines) := by
  induction lines generalizing delivered with
  | nil =>
    intro last h
    cases failure <;> simp [readFrom] at h <;> subst h <;> rfl
  | cons line rest ih =>
    intro last h
    simp only [readFrom, List.mem_cons, Move.look.injEq, reduceCtorEq, false_or] at h
    rcases h with rfl | h
    · rfl
    · exact ih _ last h

theorem readFrom_open (failure : Option IoError) (delivered : Nat) (lines : List Utf8.Bytes) :
    Move.Open (readFrom failure delivered lines) := by
  induction lines generalizing delivered with
  | nil => intro item h; cases failure <;> simp [readFrom] at h
  | cons line rest ih => intro item h; simp [readFrom] at h; exact ih _ item h

/-- only a look shows the signal -/
theorem readFrom_emits_uncut (failure : Option IoError) (delivered : Nat) (lines : List Utf8.Bytes) {item : ReadLine}
    (h : .emit item ∈ readFrom failure delivered lines) : item.error ≠ some .cancelled := by
  induction lines generalizing delivered with
  | nil =>
    cases failure with
    | none => simp [readFrom] at h
    | some e =>
      simp only [readFrom, Option.map_some, Option.toList_some, List.mem_cons, reduceCtorEq, Move.emit.injEq,
        List.not_mem_nil, or_false, false_or] at h
      rw [h]
      simp [ReadLine.stop]
  | cons line rest ih =>
    simp only [readFrom, List.mem_cons, Move.emit.injEq, reduceCtorEq, false_or] at h
    rcases h with rfl | h
    · exact nofun
    · exact ih _ h

/-- the looks that a reader takes: one before each line and one before the end -/
theorem run_readFrom_looks (failure : Option IoError) (fires : Nat → Bool) (looks delivered : Nat)
    (lines : List Utf8.Bytes) :
    (Move.run fires looks (readFrom failure delivered lines)).2.1 =
      looks + (Move.run fires looks (readFrom failure delivered lines)).1.countP (·.error.isNone) + 1 := by
  induction lines generalizing looks delivered with
  | nil =>
    simp only [readFrom, Move.run]
    split
    · simp [ReadLine.stop]
    · cases failure <;> simp [Move.run, ReadLine.stop]
  | cons line rest ih =>
    simp only [readFrom, Move.run]
    split
    · simp [ReadLine.stop]
    · simp only [ih, List.countP_cons, Option.isNone_none, if_true]
      omega

end Gleaner
