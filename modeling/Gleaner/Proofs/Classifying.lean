/-
Files by their lines.

A category rule that looks at lines runs its chain on one line of a file after the other, from the first on. A line
without a match is passed over (`Passed`); the first for which the chain gives anything else decides, and none behind it
is looked at. What can come of it is written out in `Classifies`, with the lines that the chain has been run on. A chain
may keep something from one line to the next: it is run in the world that the lines before have left.

Results:
- `firstMatch_passed`: lines without a match are passed over;
- `Classifies.unique`, `scanFile_finds`: what a scan gives under a signal that stays down;
- `scanFile_signal`: under any signal it gives the same or shows that it was cut short;
- `walker_lines`: a walk gives the same lines.
-/
import Gleaner.Proofs.Scanning
import Gleaner.Proofs.Selections
import Gleaner.Proofs.Visits

namespace Gleaner

open Act

/-! ## The lines of a reader -/

/-- the texts of the lines of a reader -/
def Source.texts (s : Source) : List String := s.rows.map decodeLine

/-- the items of a reader behind the first `count` lines -/
def Source.ahead (s : Source) (count : Nat) : List ReadLine :=
  numberedBehind count (s.texts.drop count) ++
    (s.failure.map fun e => ReadLine.stop s.texts.length (.read e)).toList

theorem items_readFrom (failure : Option IoError) (delivered : Nat) (lines : List Utf8.Bytes) :
    Move.items (readFrom failure delivered lines) = numberedBehind delivered (lines.map decodeLine) ++
      (failure.map fun e => ReadLine.stop (delivered + lines.length) (.read e)).toList := by
  induction lines generalizing delivered with
  | nil => cases failure <;> rfl
  | cons line rest ih =>
    rw [readFrom, Move.items, Move.items, ih, List.map_cons, numberedBehind_cons, List.cons_append, List.length_cons,
      Nat.add_assoc delivered 1, Nat.add_comm 1]

theorem Source.items_eq_ahead (s : Source) : Move.items s.moves = s.ahead 0 := by
  rw [Source.moves, items_readFrom, Source.lines_eq_rows, Source.ahead, List.drop_zero, Source.texts, List.length_map,
    Nat.zero_add]

/-- the next line -/
theorem Source.ahead_cons {s : Source} {count : Nat} {text : String} (h : s.texts[count]? = some text) :
    s.ahead count = { number := count + 1, text := text } :: s.ahead (count + 1) := by
  obtain ⟨hcount, hget⟩ := List.getElem?_eq_some_iff.1 h
  rw [Source.ahead, List.drop_eq_getElem_cons hcount, hget, numberedBehind_cons, List.cons_append, Source.ahead]

/-- the lines up to some place, and those behind it -/
theorem Source.ahead_split (s : Source) {count : Nat} (h : count ≤ s.texts.length) :
    s.ahead 0 = numberedBehind 0 (s.texts.take count) ++ s.ahead count := by
  have hlength : (s.texts.take count).length = count := List.length_take_of_le h
  have hlines : numberedBehind 0 s.texts =
      numberedBehind 0 (s.texts.take count) ++ numberedBehind count (s.texts.drop count) := by
    calc numberedBehind 0 s.texts
        = numberedBehind 0 (s.texts.take count ++ s.texts.drop count) := by rw [List.take_append_drop]
      _ = numberedBehind 0 (s.texts.take count) ++ numberedBehind count (s.texts.drop count) := by
        rw [numberedBehind_append, hlength, Nat.zero_add]
  rw [Source.ahead, Source.ahead, List.drop_zero, hlines, List.append_assoc]

/-- no line is left -/
theorem Source.ahead_last (s : Source) :
    s.ahead s.texts.length = (s.failure.map fun e => ReadLine.stop s.texts.length (.read e)).toList := by
  rw [Source.ahead, List.drop_length]
  rfl

/-! ## Lines without a match -/

/-- a result says that there is no match -/
def Unmatched (r : MatchResult) : Prop := ∃ e, r = .error e ∧ e.isUnmatched = true

namespace Chain

/-- runs a chain on texts one after the other -/
def runEach (c : Chain) : List String → Act (List MatchResult)
  | [] => return []
  | text :: rest => do
    let r ← c.run text
    return r :: (← runEach c rest)

theorem runEach_cons (c : Chain) (text : String) (rest : List String) (w : World) :
    c.runEach (text :: rest) w =
      ((c.run text w).1 :: (c.runEach rest (c.run text w).2).1, (c.runEach rest (c.run text w).2).2) := rfl

theorem runEach_snoc (c : Chain) (texts : List String) (text : String) (w : World) :
    c.runEach (texts ++ [text]) w =
      ((c.runEach texts w).1 ++ [(c.run text (c.runEach texts w).2).1], (c.run text (c.runEach texts w).2).2) := by
  induction texts generalizing w with
  | nil => rfl
  | cons first rest ih => rw [List.cons_append, runEach_cons, ih, runEach_cons, List.cons_append]

end Chain

/-- a chain has been run on the first `count` texts, one after the other, and none of them has a match -/
structure Passed (c : Chain) (w : World) (texts : List String) (count : Nat) (w' : World) : Prop where
  le : count ≤ texts.length
  unmatched : ∀ r ∈ (c.runEach (texts.take count) w).1, Unmatched r
  world : w'.core = (c.runEach (texts.take count) w).2.core

section

variable {c : Chain} {w w' w'' : World} {texts : List String} {count : Nat} {text : String}

theorem Passed.start (h : w'.core = w.core) : Passed c w texts 0 w' :=
  ⟨Nat.zero_le _, fun r hr => by simp [Chain.runEach, Act.pure_run] at hr, h⟩

/-- the chain gives the same as if nothing but the texts had been there -/
theorem Passed.run_eq (h : Passed c w texts count w') (text : String) :
    (c.run text w').1 = (c.run text (c.runEach (texts.take count) w).2).1 ∧
      (c.run text w').2.core = (c.run text (c.runEach (texts.take count) w).2).2.core :=
  (c.run_blind text).of_core h.world

/-- **One more line without a match** -/
theorem Passed.next (h : Passed c w texts count w') (htext : texts[count]? = some text)
    (hr : Unmatched (c.run text w').1) (hw : w''.core = (c.run text w').2.core) :
    Passed c w texts (count + 1) w'' := by
  obtain ⟨hsame, hworld⟩ := h.run_eq text
  have htake : texts.take (count + 1) = texts.take count ++ [text] := by rw [List.take_add_one, htext]; rfl
  refine ⟨(List.getElem?_eq_some_iff.1 htext).1, fun r hmem => ?_, ?_⟩
  · rw [htake, Chain.runEach_snoc] at hmem
    rcases List.mem_append.1 hmem with hmem | hmem
    · exact h.unmatched r hmem
    · rw [List.mem_singleton.1 hmem, ← hsame]
      exact hr
  · rw [htake, Chain.runEach_snoc, hw, hworld]

end

/-! ## What comes of the lines of a file -/

/-- **What comes of the lines of a file**, the lines that the chain has been run on, and the world behind them -/
inductive Classifies (c : Chain) (path : String) (w : World) : List ReadLine → MatchResult → World → Prop where
  | unopened {e : IoError} {w' : World} (hopen : w.files.openFile path = .error e) (hw : w'.core = w.core) :
      Classifies c path w [] (.error (.unmatched ("cannot open: " ++ e.message))) w'
  | found {source : Source} {count : Nat} {text : String} {outputs : List String} {w' w'' : World}
      (hopen : w.files.openFile path = .ok source) (hpassed : Passed c w source.texts count w')
      (htext : source.texts[count]? = some text) (hr : (c.run text w').1 = .ok outputs)
      (hw : w''.core = (c.run text w').2.core) :
      Classifies c path w (numberedBehind 0 (source.texts.take (count + 1))) (.ok outputs) w''
  | failed {source : Source} {count : Nat} {text : String} {e : MatchError} {w' w'' : World}
      (hopen : w.files.openFile path = .ok source) (hpassed : Passed c w source.texts count w')
      (htext : source.texts[count]? = some text) (hr : (c.run text w').1 = .error e) (hhard : e.isUnmatched = false)
      (hw : w''.core = (c.run text w').2.core) :
      Classifies c path w (numberedBehind 0 (source.texts.take (count + 1)))
        (.error (e.within ("line " ++ toString (count + 1)))) w''
  | exhausted {source : Source} {w' : World} (hopen : w.files.openFile path = .ok source)
      (hends : source.failure = none) (hpassed : Passed c w source.texts source.texts.length w') :
      Classifies c path w (numberedBehind 0 source.texts) (.error (.unmatched "no line matched")) w'
  | broken {source : Source} {e : IoError} {w' : World} (hopen : w.files.openFile path = .ok source)
      (hfails : source.failure = some e) (hpassed : Passed c w source.texts source.texts.length w') :
      Classifies c path w (numberedBehind 0 source.texts) (.error (.stream (.read e))) w'

/-- a world whose signal stays down -/
def World.silent (w : World) : World := { w with signal := fun _ => false }

namespace CategorySelector

theorem firstMatch_cons (c : Chain) {line : ReadLine} (h : line.error = none) (rest : List ReadLine) (w : World) :
    firstMatch c (line :: rest) w =
      match (c.run line.text w).1 with
      | .ok found => (.ok found, (c.run line.text w).2)
      | .error e =>
        if e.isUnmatched then firstMatch c rest (c.run line.text w).2
        else (.error (e.within ("line " ++ toString line.number)), (c.run line.text w).2) := by
  rw [firstMatch, h]
  simp only [Act.bind_run]
  cases (c.run line.text w).1 with
  | ok found => rfl
  | error e =>
    simp only
    split <;> rfl

theorem firstMatch_stop (c : Chain) {line : ReadLine} {e : StreamError} (h : line.error = some e)
    (rest : List ReadLine) (w : World) : firstMatch c (line :: rest) w = (.error (.stream e), w) := by
  rw [firstMatch, h]
  rfl

/-- **Lines without a match** are passed over. -/
theorem firstMatch_passed {c : Chain} {w : World} {texts : List String}
    (h : ∀ r ∈ (c.runEach texts w).1, Unmatched r) (before : Nat) (rest : List ReadLine) :
    firstMatch c (numberedBehind before texts ++ rest) w = firstMatch c rest (c.runEach texts w).2 := by
  induction texts generalizing before w with
  | nil => rfl
  | cons text others ih =>
    rw [Chain.runEach_cons] at h
    obtain ⟨e, he, hunmatched⟩ := h _ List.mem_cons_self
    rw [numberedBehind_cons, List.cons_append, firstMatch_cons c rfl, he]
    simp only [hunmatched, if_true]
    rw [ih (fun r hr => h r (List.mem_cons_of_mem _ hr)), Chain.runEach_cons]

theorem firstMatch_blind (c : Chain) (lines : List ReadLine) : (firstMatch c lines).Blind := by
  induction lines with
  | nil => exact Blind.pure _
  | cons line rest ih =>
    unfold firstMatch
    cases line.error with
    | some e => exact Blind.pure _
    | none =>
      refine (c.run_blind line.text).bind fun r => ?_
      cases r with
      | ok found => exact Blind.pure _
      | error e =>
        simp only
        split
        · exact ih
        · exact Blind.pure _

end CategorySelector

section

variable {c : Chain} {w w' : World} {source : Source} {count : Nat}

/-- behind lines that have been passed over, the rest of the reader's lines decides -/
theorem Passed.firstMatch_eq (h : Passed c w source.texts count w') :
    (CategorySelector.firstMatch c (source.ahead 0) w).1 = (CategorySelector.firstMatch c (source.ahead count) w').1 ∧
      (CategorySelector.firstMatch c (source.ahead 0) w).2.core =
        (CategorySelector.firstMatch c (source.ahead count) w').2.core := by
  rw [source.ahead_split h.le, CategorySelector.firstMatch_passed h.unmatched]
  exact (CategorySelector.firstMatch_blind c _).of_core h.world.symm

/-! ## Calls under a signal that stays down -/

variable {path : String}

/-- what comes of the lines does not depend on the signal, the looks and the warnings -/
theorem Classifies.of_core {heard : List ReadLine} {r : MatchResult} {w'' : World}
    (h : Classifies c path w heard r w') (hw : w''.core = w'.core) : Classifies c path w heard r w'' := by
  cases h with
  | unopened hopen hworld => exact .unopened hopen (hw.trans hworld)
  | found hopen hpassed htext hr hworld => exact .found hopen hpassed htext hr (hw.trans hworld)
  | failed hopen hpassed htext hr hhard hworld => exact .failed hopen hpassed htext hr hhard (hw.trans hworld)
  | exhausted hopen hends hpassed => exact .exhausted hopen hends ⟨hpassed.le, hpassed.unmatched, hw.trans hpassed.world⟩
  | broken hopen hfails hpassed => exact .broken hopen hfails ⟨hpassed.le, hpassed.unmatched, hw.trans hpassed.world⟩

/-- behind lines that have been passed over, something comes of the others -/
theorem Passed.classifies (hopen : w.files.openFile path = .ok source) (h : Passed c w source.texts count w') :
    ∃ heard r w'', Classifies c path w heard r w'' := by
  induction hleft : source.texts.length - count generalizing count w' with
  | zero =>
    have hall : count = source.texts.length := by
      have hle := h.le
      omega
    subst hall
    cases hfailure : source.failure with
    | none => exact ⟨_, _, _, .exhausted hopen hfailure h⟩
    | some e => exact ⟨_, _, _, .broken hopen hfailure h⟩
  | succ left ih =>
    have hcount : count < source.texts.length := by omega
    have htext : source.texts[count]? = some source.texts[count] := List.getElem?_eq_getElem hcount
    cases hr : (c.run source.texts[count] w').1 with
    | ok found => exact ⟨_, _, _, .found hopen h htext hr rfl⟩
    | error e =>
      cases hhard : e.isUnmatched with
      | false => exact ⟨_, _, _, .failed hopen h htext hr hhard rfl⟩
      | true => exact ih (h.next htext ⟨e, hr, hhard⟩ rfl) (by omega)

theorem scanFile_unopened {e : IoError} (hopen : w.files.openFile path = .error e) :
    CategorySelector.scanFile c path w =
      (.error (.unmatched ("cannot open: " ++ e.message)),
        (Act.warn ("cannot open " ++ path ++ ": " ++ e.message) w).2) := by
  unfold CategorySelector.scanFile
  rw [Act.bind_run, Act.get_run]
  simp only
  rw [hopen]
  rfl

theorem scanFile_opened (hopen : w.files.openFile path = .ok source) :
    CategorySelector.scanFile c path w =
      CategorySelector.firstMatch c (Act.readLines source w).1 (Act.readLines source w).2 := by
  unfold CategorySelector.scanFile
  rw [Act.bind_run, Act.get_run]
  simp only
  rw [hopen]
  rfl

theorem readLines_silent (source : Source) (w : World) : (Act.readLines source w.silent).1 = source.ahead 0 := by
  have hitems : (Act.readLines source w.silent).1 = (Move.run (fun _ => false) w.looks source.moves).1 :=
    readLines_eq_run source (fun _ => false) w.looks
  rw [hitems, Move.run_silent (fun _ => rfl), source.items_eq_ahead]

theorem scanFile_silent (hopen : w.files.openFile path = .ok source) :
    (CategorySelector.scanFile c path w.silent).1 = (CategorySelector.firstMatch c (source.ahead 0) w).1 ∧
      (CategorySelector.scanFile c path w.silent).2.core =
        (CategorySelector.firstMatch c (source.ahead 0) w).2.core := by
  rw [scanFile_opened (w := w.silent) hopen, readLines_silent]
  exact (CategorySelector.firstMatch_blind c _).of_core rfl

/-- **Whatever comes of the lines of a file is what the program gives.** -/
theorem Classifies.unique {heard : List ReadLine} {r : MatchResult} (h : Classifies c path w heard r w') :
    (CategorySelector.scanFile c path w.silent).1 = r ∧
      (CategorySelector.scanFile c path w.silent).2.core = w'.core := by
  cases h with
  | @unopened e _ hopen hw =>
    rw [scanFile_unopened (w := w.silent) hopen]
    exact ⟨rfl, hw.symm⟩
  | @found source count text outputs w₁ _ hopen hpassed htext hr hw =>
    obtain ⟨hresult, hworld⟩ := scanFile_silent (c := c) hopen
    obtain ⟨hresult', hworld'⟩ := hpassed.firstMatch_eq
    rw [source.ahead_cons htext, CategorySelector.firstMatch_cons c rfl, hr] at hresult' hworld'
    exact ⟨hresult.trans hresult', hworld.trans (hworld'.trans hw.symm)⟩
  | @failed source count text e w₁ _ hopen hpassed htext hr hhard hw =>
    obtain ⟨hresult, hworld⟩ := scanFile_silent (c := c) hopen
    obtain ⟨hresult', hworld'⟩ := hpassed.firstMatch_eq
    rw [source.ahead_cons htext, CategorySelector.firstMatch_cons c rfl, hr] at hresult' hworld'
    simp only [hhard, Bool.false_eq_true, if_false] at hresult' hworld'
    exact ⟨hresult.trans hresult', hworld.trans (hworld'.trans hw.symm)⟩
  | @exhausted source _ hopen hends hpassed =>
    obtain ⟨hresult, hworld⟩ := scanFile_silent (c := c) hopen
    obtain ⟨hresult', hworld'⟩ := hpassed.firstMatch_eq
    rw [source.ahead_last, hends] at hresult' hworld'
    exact ⟨hresult.trans hresult', hworld.trans hworld'⟩
  | @broken source e _ hopen hfails hpassed =>
    obtain ⟨hresult, hworld⟩ := scanFile_silent (c := c) hopen
    obtain ⟨hresult', hworld'⟩ := hpassed.firstMatch_eq
    rw [source.ahead_last, hfails] at hresult' hworld'
    exact ⟨hresult.trans hresult', hworld.trans hworld'⟩

/-- **What the program gives**: one of the things that can come of the lines of a file -/
theorem scanFile_finds (c : Chain) (path : String) (w : World) :
    ∃ heard, Classifies c path w heard (CategorySelector.scanFile c path w.silent).1
      (CategorySelector.scanFile c path w.silent).2 := by
  have hcomes : ∃ heard r w', Classifies c path w heard r w' := by
    cases hopen : w.files.openFile path with
    | error e => exact ⟨_, _, _, .unopened hopen rfl⟩
    | ok source => exact Passed.classifies hopen (.start rfl)
  obtain ⟨heard, r, w', h⟩ := hcomes
  obtain ⟨rfl, hworld⟩ := h.unique
  exact ⟨heard, h.of_core hworld⟩

/-! ## Calls under any signal -/

/-- some lines decide, whatever is behind them, or what is behind them does -/
theorem firstMatch_append (c : Chain) (front : List ReadLine) (w : World) :
    (∃ found, ∀ rest, CategorySelector.firstMatch c (front ++ rest) w = found) ∨
      ∃ w', ∀ rest, CategorySelector.firstMatch c (front ++ rest) w = CategorySelector.firstMatch c rest w' := by
  induction front generalizing w with
  | nil => exact .inr ⟨w, fun rest => rfl⟩
  | cons line others ih =>
    cases herror : line.error with
    | some e => exact .inl ⟨_, fun rest => CategorySelector.firstMatch_stop c herror _ w⟩
    | none =>
      simp only [List.cons_append, CategorySelector.firstMatch_cons c herror]
      cases (c.run line.text w).1 with
      | ok found => exact .inl ⟨_, fun rest => rfl⟩
      | error e =>
        simp only
        cases e.isUnmatched with
        | false => exact .inl ⟨_, fun rest => rfl⟩
        | true => exact ih _

/-- **A signal changes nothing but that it may cut a scan short.** -/
theorem scanFile_signal (c : Chain) (path : String) (w : World) :
    (CategorySelector.scanFile c path w).1 = (CategorySelector.scanFile c path w.silent).1 ∨
      Rises w.signal ∧ IsCutResult (CategorySelector.scanFile c path w).1 := by
  cases hopen : w.files.openFile path with
  | error e =>
    rw [scanFile_unopened hopen, scanFile_unopened (w := w.silent) hopen]
    exact .inl rfl
  | ok source =>
    have hread : (Act.readLines source w).1 = (Move.run w.signal w.looks source.moves).1 :=
      readLines_eq_run source w.signal w.looks
    rw [(scanFile_silent hopen).1, scanFile_opened hopen, hread]
    have hblind : ∀ lines, (CategorySelector.firstMatch c lines (Act.readLines source w).2).1 =
        (CategorySelector.firstMatch c lines w).1 := by
      intro lines
      have hcore : (Act.readLines source w).2.core = w.core := rfl
      exact ((CategorySelector.firstMatch_blind c lines).of_core hcore).1
    rw [hblind]
    have hheeds : Move.Heeds ReadLine.IsCut source.moves := readFrom_heeds _ _ _
    rcases Move.run_cut hheeds w.signal w.looks with hfull | ⟨hrises, front, last, hcut, hfront, hlast⟩
    · exact .inl (by rw [hfull, source.items_eq_ahead])
    · obtain ⟨behind, hwhole⟩ := hfront
      rw [hcut]
      rcases firstMatch_append c front w with ⟨found, hfound⟩ | ⟨w', hpassed⟩
      · have hahead : source.ahead 0 = front ++ behind := by rw [← source.items_eq_ahead, hwhole]
        exact .inl (by rw [hahead, hfound, hfound])
      · refine .inr ⟨hrises, ?_⟩
        rw [hpassed, CategorySelector.firstMatch_stop c hlast]
        exact ⟨.stream .cancelled, rfl, rfl⟩

theorem scanFile_keeps_signal (c : Chain) (path : String) (w : World) :
    (CategorySelector.scanFile c path w).2.signal = w.signal := by
  cases hopen : w.files.openFile path with
  | error e => rw [scanFile_unopened hopen]; rfl
  | ok source =>
    rw [scanFile_opened hopen]
    exact (CategorySelector.firstMatch_blind c _).signal _

/-! ## The lines of a walk -/

/-- a walk gives the lines of the reader -/
theorem walker_lines (hopen : w.files.openFile path = .ok source) :
    (Walker.scanFile path w.silent).1.lines = (source.ahead 0).map (FileLine.ofReadLine path) := by
  rw [Walker.scanFile_run, show w.silent.files.openFile path = .ok source from hopen]
  simp only [readLines_silent]

theorem first_lines_prefix (hopen : w.files.openFile path = .ok source) (h : count ≤ source.texts.length) :
    (numberedBehind 0 (source.texts.take count)).map (FileLine.ofReadLine path) <+:
      (Walker.scanFile path w.silent).1.lines := by
  rw [walker_lines hopen, source.ahead_split h, List.map_append]
  exact List.prefix_append _ _

/-- **The lines that a chain has been run on** are the first lines that a walk gives. -/
theorem Classifies.heard_prefix {heard : List ReadLine} {r : MatchResult} (h : Classifies c path w heard r w') :
    heard.map (FileLine.ofReadLine path) <+: (Walker.scanFile path w.silent).1.lines := by
  cases h with
  | unopened => exact List.nil_prefix
  | found hopen _ htext => exact first_lines_prefix hopen (List.getElem?_eq_some_iff.1 htext).1
  | failed hopen _ htext => exact first_lines_prefix hopen (List.getElem?_eq_some_iff.1 htext).1
  | @exhausted source _ hopen =>
    have hall := first_lines_prefix hopen (Nat.le_refl source.texts.length)
    rwa [List.take_length] at hall
  | @broken source _ _ hopen =>
    have hall := first_lines_prefix hopen (Nat.le_refl source.texts.length)
    rwa [List.take_length] at hall

end

end Gleaner
