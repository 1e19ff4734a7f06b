/-
Calls of a category rule.

The reader of the lines works beside the call and may be far ahead of it. It looks at a token of its own, which is up if
the token of the caller is, and which the call fires when it returns (`Call.up`). The reader may then still have moves
left; nobody receives what it emits. The token of the caller may fire at any time; no move of a call fires it.

Results:
- `Moves.fired_eq`, `exists_moves`, `step_wellFounded`: a call leaves its caller's token alone, goes on, and comes to
  its end, with its reader;
- `Sound.step`: what holds of a call at any time;
- `scanFile_classifies`: calls, whatever turns the parts take and whenever the caller's token fires.
-/
import Gleaner.Proofs.Classifying
import Gleaner.Proofs.Channels
import Gleaner.Proofs.Runs

namespace Gleaner

open Act

/-- how far a call has come -/
inductive Phase where
  | opening
  | receiving (reader : Channel ReadLine)
  /-- the call has given a result; the moves are what its reader has left -/
  | returned (r : MatchResult) (left : List (Move ReadLine))

structure Call where
  /-- whether the token of the caller has fired -/
  fired : Bool
  /-- whether the call has fired the token of its reader -/
  released : Bool := false
  world : World
  /-- the lines that the chain has been run on -/
  heard : List ReadLine := []
  phase : Phase := .opening

namespace Call

/-- whether the token of the reader is up: it is a child of the caller's -/
def up (s : Call) : Bool := s.fired || s.released

/-- the call gives a result and lets go of its reader -/
def leave (s : Call) (r : MatchResult) (left : List (Move ReadLine)) : Call :=
  { s with released := true, phase := .returned r left }

/-- the call has received a line -/
def receive (c : Chain) (s : Call) (reader : Channel ReadLine) (line : ReadLine) : Call :=
  match line.error with
  | some e => s.leave (.error (.stream e)) reader.rest
  | none =>
    let found := c.run line.text s.world
    let behind : Call := { s with world := found.2, heard := s.heard ++ [line] }
    match found.1 with
    | .ok outputs => behind.leave (.ok outputs) reader.rest
    | .error e =>
      if e.isUnmatched then { behind with phase := .receiving reader }
      else behind.leave (.error (e.within ("line " ++ toString line.number))) reader.rest

/-- a move of a call or of its reader -/
inductive Moves (c : Chain) (path : String) : Call → Call → Prop where
  | refuse {s : Call} {e : IoError} (h : s.phase = .opening) (hopen : s.world.files.openFile path = .error e) :
      Moves c path s { s with
        world := (Act.warn ("cannot open " ++ path ++ ": " ++ e.message) s.world).2
        phase := .returned (.error (.unmatched ("cannot open: " ++ e.message))) [] }
  | start {s : Call} {source : Source} (h : s.phase = .opening) (hopen : s.world.files.openFile path = .ok source) :
      Moves c path s { s with phase := .receiving ⟨source.moves, []⟩ }
  | read {s : Call} {reader reader' : Channel ReadLine} (h : s.phase = .receiving reader)
      (hreader : reader.Produces s.up reader') : Moves c path s { s with phase := .receiving reader' }
  | receive {s : Call} {rest : List (Move ReadLine)} {line : ReadLine} {queue : List ReadLine}
      (h : s.phase = .receiving ⟨rest, line :: queue⟩) : Moves c path s (s.receive c ⟨rest, queue⟩ line)
  | exhaust {s : Call} (h : s.phase = .receiving {}) :
      Moves c path s (s.leave (.error (.unmatched "no line matched")) [])
  /-- the reader of a call that has returned looks at its token -/
  | look {s : Call} {r : MatchResult} {last : ReadLine} {rest : List (Move ReadLine)}
      (h : s.phase = .returned r (.look last :: rest)) :
      Moves c path s { s with phase := .returned r (if s.up then [.close last] else rest) }
  /-- nobody receives the item; the reader stops -/
  | refused {s : Call} {r : MatchResult} {move : Move ReadLine} {rest : List (Move ReadLine)}
      (h : s.phase = .returned r (move :: rest)) (hitem : ∀ last, move ≠ .look last) :
      Moves c path s { s with phase := .returned r [] }

/-- a move, or the caller's token fires -/
inductive Step (c : Chain) (path : String) : Call → Call → Prop where
  | fire {s : Call} (h : s.fired = false) : Step c path s { s with fired := true }
  | move {s s' : Call} (h : Moves c path s s') : Step c path s s'

variable {c : Chain} {path : String} {s s' : Call} {w : World}

/-! ### What a call does with a line -/

section

variable {reader : Channel ReadLine} {line : ReadLine}

theorem receive_stop {e : StreamError} (h : line.error = some e) :
    s.receive c reader line = s.leave (.error (.stream e)) reader.rest := by
  rw [receive, h]

theorem receive_found {outputs : List String} (h : line.error = none)
    (hr : (c.run line.text s.world).1 = .ok outputs) :
    s.receive c reader line = { s with
      released := true
      world := (c.run line.text s.world).2
      heard := s.heard ++ [line]
      phase := .returned (.ok outputs) reader.rest } := by
  rw [receive, h]
  simp only [hr, leave]

theorem receive_failed {e : MatchError} (h : line.error = none) (hr : (c.run line.text s.world).1 = .error e)
    (hhard : e.isUnmatched = false) :
    s.receive c reader line = { s with
      released := true
      world := (c.run line.text s.world).2
      heard := s.heard ++ [line]
      phase := .returned (.error (e.within ("line " ++ toString line.number))) reader.rest } := by
  rw [receive, h]
  simp only [hr, hhard, leave, Bool.false_eq_true, if_false]

theorem receive_passed {e : MatchError} (h : line.error = none) (hr : (c.run line.text s.world).1 = .error e)
    (hunmatched : e.isUnmatched = true) :
    s.receive c reader line = { s with
      world := (c.run line.text s.world).2
      heard := s.heard ++ [line]
      phase := .receiving reader } := by
  rw [receive, h]
  simp only [hr, hunmatched, if_true]

/-- a call goes on behind a line, or it returns -/
theorem receive_cases (c : Chain) (s : Call) (reader : Channel ReadLine) (line : ReadLine) :
    (s.receive c reader line).fired = s.fired ∧ ((s.receive c reader line).phase = .receiving reader ∨
      ∃ r, (s.receive c reader line).phase = .returned r reader.rest) := by
  cases herror : line.error with
  | some e =>
    rw [receive_stop herror]
    exact ⟨rfl, .inr ⟨_, rfl⟩⟩
  | none =>
    cases hr : (c.run line.text s.world).1 with
    | ok outputs =>
      rw [receive_found herror hr]
      exact ⟨rfl, .inr ⟨_, rfl⟩⟩
    | error e =>
      cases hhard : e.isUnmatched with
      | true =>
        rw [receive_passed herror hr hhard]
        exact ⟨rfl, .inl rfl⟩
      | false =>
        rw [receive_failed herror hr hhard]
        exact ⟨rfl, .inr ⟨_, rfl⟩⟩

end

/-! ### Calls go on and come to their end -/

/-- **No call fires the token of its caller.** -/
theorem Moves.fired_eq (h : Moves c path s s') : s'.fired = s.fired := by
  cases h with
  | receive h => exact (receive_cases c s _ _).1
  | _ => rfl

/-- **A call goes on until it has given a result and its reader has stopped**, whether or not the token fires. -/
theorem exists_moves (c : Chain) (path : String) (s : Call) :
    (∃ r, s.phase = .returned r []) ∨ ∃ s', Moves c path s s' := by
  cases hphase : s.phase with
  | opening =>
    cases hopen : s.world.files.openFile path with
    | error e => exact .inr ⟨_, .refuse hphase hopen⟩
    | ok source => exact .inr ⟨_, .start hphase hopen⟩
  | receiving reader =>
    rcases reader.exists_produces s.up with ⟨line, queue, hqueue⟩ | rfl | ⟨reader', hreader⟩
    · obtain ⟨rest, _⟩ := reader
      cases hqueue
      exact .inr ⟨_, .receive hphase⟩
    · exact .inr ⟨_, .exhaust hphase⟩
    · exact .inr ⟨_, .read hphase hreader⟩
  | returned r left =>
    match left with
    | [] => exact .inl ⟨r, rfl⟩
    | .look last :: rest => exact .inr ⟨_, .look hphase⟩
    | .emit item :: rest => exact .inr ⟨_, .refused hphase nofun⟩
    | .close item :: rest => exact .inr ⟨_, .refused hphase nofun⟩

/-- what every step lowers: what is left of the call, what its channel or its reader has left, and whether the token
can fire -/
def rank (s : Call) : Nat ×ₗ Nat ×ₗ Nat :=
  let fire := if s.fired then 0 else 1
  match s.phase with
  | .opening => toLex (2, toLex (0, fire))
  | .receiving reader => toLex (1, toLex (reader.weight, fire))
  | .returned _ left => toLex (0, toLex ((left.map Channel.moveWeight).sum, fire))

/-- a call that has received a line is nearer to its end -/
theorem rank_receive (c : Chain) {rest : List (Move ReadLine)} {line : ReadLine} {queue : List ReadLine}
    (h : s.phase = .receiving ⟨rest, line :: queue⟩) : (s.receive c ⟨rest, queue⟩ line).rank < s.rank := by
  obtain ⟨-, hgoes | ⟨r, hreturns⟩⟩ := receive_cases c s ⟨rest, queue⟩ line
  · simp [rank, h, hgoes, Prod.Lex.toLex_lt_toLex, Channel.weight_take]
  · simp [rank, h, hreturns, Prod.Lex.toLex_lt_toLex]

/-- **Every step lowers the rank.** -/
theorem Step.rank_lt (h : Step c path s s') : s'.rank < s.rank := by
  cases h with
  | fire hdown =>
    simp only [rank, hdown]
    cases s.phase <;> simp [Prod.Lex.toLex_lt_toLex]
  | move h =>
    cases h with
    | refuse h => simp [rank, h, Prod.Lex.toLex_lt_toLex]
    | start h => simp [rank, h, Prod.Lex.toLex_lt_toLex]
    | read h hreader => simp [rank, h, Prod.Lex.toLex_lt_toLex, hreader.weight_lt]
    | receive h => exact rank_receive c h
    | exhaust h => simp [rank, h, leave, Prod.Lex.toLex_lt_toLex]
    | look h =>
      have hweights : 2 < 3 := by decide
      cases hup : s.up <;> simp [rank, h, Prod.Lex.toLex_lt_toLex, Channel.moveWeight, Nat.lt_add_right _ hweights]
    | @refused r move rest h hitem =>
      have hpositive : 0 < Channel.moveWeight move := by cases move <;> simp [Channel.moveWeight]
      simp [rank, h, Prod.Lex.toLex_lt_toLex, Nat.add_pos_left hpositive]

/-- **No call goes on forever**, however it and its reader take turns. -/
theorem step_wellFounded (c : Chain) (path : String) : WellFounded fun s' s => Step c path s s' :=
  Subrelation.wf Step.rank_lt (InvImage.wf rank wellFounded_lt)

/-! ### What holds of calls -/

/-- **The invariant of a call** that has begun in the world `w`: the chain has been run on the first lines of the file
and on nothing else. While the call receives lines, none of these has a match, and the others are still to come. When it
has returned, its result is what comes of the lines, or it was cut short because the caller's token had fired. -/
inductive Sound (c : Chain) (path : String) (w : World) (s : Call) : Prop where
  | opening (h : s.phase = .opening) (hdown : s.released = false) (hworld : s.world = w) (hheard : s.heard = [])
  | receiving {reader : Channel ReadLine} {source : Source} {count : Nat} (h : s.phase = .receiving reader)
      (hdown : s.released = false) (hopen : w.files.openFile path = .ok source)
      (hpassed : Passed c w source.texts count s.world)
      (hheard : s.heard = numberedBehind 0 (source.texts.take count))
      (hreader : reader.Carries ReadLine.IsCut s.fired (source.ahead count))
  | returned {r : MatchResult} {left : List (Move ReadLine)} (h : s.phase = .returned r left)
      (hcomes : Classifies c path w s.heard r s.world)
  | cut {r : MatchResult} {left : List (Move ReadLine)} {source : Source} {count : Nat} (h : s.phase = .returned r left)
      (hup : s.fired = true) (hcut : IsCutResult r) (hopen : w.files.openFile path = .ok source)
      (hpassed : Passed c w source.texts count s.world)
      (hheard : s.heard = numberedBehind 0 (source.texts.take count))

theorem Sound.start (c : Chain) (path : String) (w : World) (fired : Bool) :
    Sound c path w { fired := fired, world := w } := .opening rfl rfl rfl rfl

/-- the caller's token may fire -/
theorem Sound.fire (h : Sound c path w s) : Sound c path w { s with fired := true } := by
  cases h with
  | opening h hdown hworld hheard => exact .opening h hdown hworld hheard
  | receiving h hdown hopen hpassed hheard hreader =>
    exact .receiving h hdown hopen hpassed hheard hreader.fire
  | returned h hcomes => exact .returned h hcomes
  | cut h hup hcut hopen hpassed hheard => exact .cut h rfl hcut hopen hpassed hheard

theorem Sound.of_opening (h : Sound c path w s) (hphase : s.phase = .opening) :
    s.released = false ∧ s.world = w ∧ s.heard = [] := by
  cases h with
  | opening _ hdown hworld hheard => exact ⟨hdown, hworld, hheard⟩
  | receiving h => rw [hphase] at h; cases h
  | returned h => rw [hphase] at h; cases h
  | cut h => rw [hphase] at h; cases h

theorem Sound.of_receiving {reader : Channel ReadLine} (h : Sound c path w s) (hphase : s.phase = .receiving reader) :
    s.released = false ∧ ∃ source count, w.files.openFile path = .ok source ∧ Passed c w source.texts count s.world ∧
      s.heard = numberedBehind 0 (source.texts.take count) ∧
        reader.Carries ReadLine.IsCut s.fired (source.ahead count) := by
  cases h with
  | receiving h hdown hopen hpassed hheard hreader =>
    cases h.symm.trans hphase
    exact ⟨hdown, _, _, hopen, hpassed, hheard, hreader⟩
  | opening h => rw [hphase] at h; cases h
  | returned h => rw [hphase] at h; cases h
  | cut h => rw [hphase] at h; cases h

/-- what the reader of a call that has returned does is of no account -/
theorem Sound.drift {r : MatchResult} {left left' : List (Move ReadLine)} (h : Sound c path w s)
    (hphase : s.phase = .returned r left) : Sound c path w { s with phase := .returned r left' } := by
  cases h with
  | opening h =>
    rw [hphase] at h
    cases h
  | receiving h =>
    rw [hphase] at h
    cases h
  | returned h hcomes =>
    rw [hphase] at h
    cases h
    exact .returned rfl hcomes
  | cut h hup hcut hopen hpassed hheard =>
    rw [hphase] at h
    cases h
    exact .cut rfl hup hcut hopen hpassed hheard

/-- one more line has been heard -/
theorem heard_next {source : Source} {count : Nat} {text : String} (h : source.texts[count]? = some text) :
    numberedBehind 0 (source.texts.take count) ++ [{ number := count + 1, text := text }] =
      numberedBehind 0 (source.texts.take (count + 1)) := by
  have hlength : (source.texts.take count).length = count :=
    List.length_take_of_le (Nat.le_of_lt (List.getElem?_eq_some_iff.1 h).1)
  have htake : source.texts.take (count + 1) = source.texts.take count ++ [text] := by rw [List.take_add_one, h]; rfl
  rw [htake, numberedBehind_append, hlength, Nat.zero_add]
  rfl

section

variable {source : Source} {count : Nat} {rest : List (Move ReadLine)} {queue : List ReadLine}

/-- **A call that has received the next line** -/
theorem sound_line {text : String} (hdown : s.released = false) (hopen : w.files.openFile path = .ok source)
    (hpassed : Passed c w source.texts count s.world) (hheard : s.heard = numberedBehind 0 (source.texts.take count))
    (htext : source.texts[count]? = some text)
    (hreader : Channel.Carries ReadLine.IsCut s.fired (source.ahead (count + 1)) ⟨rest, queue⟩) :
    Sound c path w (s.receive c ⟨rest, queue⟩ { number := count + 1, text := text }) := by
  have hnext := (congrArg (· ++ _) hheard).trans (heard_next htext)
  cases hr : (c.run text s.world).1 with
  | ok outputs =>
    rw [receive_found rfl hr]
    refine .returned rfl ?_
    rw [hnext]
    exact .found hopen hpassed htext hr rfl
  | error e =>
    cases hhard : e.isUnmatched with
    | true =>
      rw [receive_passed rfl hr hhard]
      exact .receiving rfl hdown hopen (hpassed.next htext ⟨e, hr, hhard⟩ rfl) hnext hreader
    | false =>
      rw [receive_failed rfl hr hhard]
      refine .returned rfl ?_
      rw [hnext]
      exact .failed hopen hpassed htext hr hhard rfl

/-- **A call that has received an item**: the next line, a failure behind the last one, or the sign that it is cut
short -/
theorem sound_receive {item : ReadLine} (hdown : s.released = false) (hopen : w.files.openFile path = .ok source)
    (hpassed : Passed c w source.texts count s.world) (hheard : s.heard = numberedBehind 0 (source.texts.take count))
    (hreader : Channel.Carries ReadLine.IsCut s.fired (source.ahead count) ⟨rest, item :: queue⟩) :
    Sound c path w (s.receive c ⟨rest, queue⟩ item) := by
  rcases hreader.take with ⟨more, hahead, hmore⟩ | ⟨hup, hcut⟩
  · rcases Nat.lt_or_eq_of_le hpassed.le with hlt | rfl
    · have htext : source.texts[count]? = some source.texts[count] := List.getElem?_eq_getElem hlt
      rw [source.ahead_cons htext] at hahead
      obtain ⟨rfl, rfl⟩ := List.cons.inj hahead
      exact sound_line hdown hopen hpassed hheard htext hmore
    · rw [source.ahead_last] at hahead
      cases hfailure : source.failure with
      | none =>
        rw [hfailure] at hahead
        cases hahead
      | some e =>
        rw [hfailure] at hahead
        obtain ⟨rfl, -⟩ := List.cons.inj hahead
        rw [receive_stop rfl]
        refine .returned rfl ?_
        rw [leave, hheard, List.take_length]
        exact .broken hopen hfailure hpassed
  · rw [receive_stop hcut]
    exact .cut rfl hup ⟨.stream .cancelled, rfl, rfl⟩ hopen hpassed hheard

/-- **A call whose reader has come to its end** -/
theorem sound_exhaust (hopen : w.files.openFile path = .ok source) (hpassed : Passed c w source.texts count s.world)
    (hheard : s.heard = numberedBehind 0 (source.texts.take count))
    (hreader : Channel.Carries ReadLine.IsCut s.fired (source.ahead count) {}) :
    Sound c path w (s.leave (.error (.unmatched "no line matched")) []) := by
  have hnone := hreader.closed
  have hall : count = source.texts.length := by
    rcases Nat.lt_or_eq_of_le hpassed.le with hlt | hall
    · rw [source.ahead_cons (List.getElem?_eq_getElem hlt)] at hnone
      cases hnone
    · exact hall
  subst hall
  rw [source.ahead_last] at hnone
  cases hfailure : source.failure with
  | some e =>
    rw [hfailure] at hnone
    cases hnone
  | none =>
    refine .returned rfl ?_
    rw [leave, hheard, List.take_length]
    exact .exhausted hopen hfailure hpassed

end

/-- **A step of a call** leaves it sound. -/
theorem Sound.step (hs : Sound c path w s) (h : Step c path s s') : Sound c path w s' := by
  cases h with
  | fire hdown => exact hs.fire
  | move h =>
    cases h with
    | look h => exact hs.drift h
    | refused h hitem => exact hs.drift h
    | refuse h hopen =>
      obtain ⟨-, rfl, hheard⟩ := hs.of_opening h
      refine .returned rfl ?_
      simp only [hheard]
      exact .unopened hopen rfl
    | @start source h hopen =>
      obtain ⟨hdown, rfl, hheard⟩ := hs.of_opening h
      have hreader : Channel.Carries ReadLine.IsCut s.fired (source.ahead 0) ⟨source.moves, []⟩ := by
        rw [← source.items_eq_ahead]
        exact .start (readFrom_heeds _ _ _) s.fired
      exact .receiving rfl hdown hopen (.start rfl) hheard hreader
    | read h hreader =>
      obtain ⟨hdown, source, count, hopen, hpassed, hheard, hcarries⟩ := hs.of_receiving h
      have hup : s.up = s.fired := by rw [up, hdown, Bool.or_false]
      rw [hup] at hreader
      exact .receiving rfl hdown hopen hpassed hheard (hreader.carries hcarries)
    | receive h =>
      obtain ⟨hdown, source, count, hopen, hpassed, hheard, hcarries⟩ := hs.of_receiving h
      exact sound_receive hdown hopen hpassed hheard hcarries
    | exhaust h =>
      obtain ⟨-, source, count, hopen, hpassed, hheard, hcarries⟩ := hs.of_receiving h
      exact sound_exhaust hopen hpassed hheard hcarries

/-- **A call is sound at any time.** -/
theorem Sound.of_reachable (hs : Sound c path w s) (h : Relation.ReflTransGen (Step c path) s s') :
    Sound c path w s' := by
  induction h with
  | refl => exact hs
  | tail _ hstep ih => exact ih.step hstep

/-- the lines heard are the first lines that a walk gives -/
theorem Sound.heard_prefix (h : Sound c path w s) :
    s.heard.map (FileLine.ofReadLine path) <+: (Walker.scanFile path w.silent).1.lines := by
  cases h with
  | opening _ _ _ hheard =>
    rw [hheard]
    exact List.nil_prefix
  | receiving _ _ hopen hpassed hheard _ =>
    rw [hheard]
    exact first_lines_prefix hopen hpassed.le
  | returned _ hcomes => exact hcomes.heard_prefix
  | cut _ _ _ hopen hpassed hheard =>
    rw [hheard]
    exact first_lines_prefix hopen hpassed.le

end Call

/-- **A file is classified by its first line that has a match or a failure.**

Under a signal that stays down, what the program gives is what comes of the lines of the file (`Classifies`), and nothing
else does; the lines that the chain has been run on are the first lines that a walk gives, with their texts and numbers.
Under any other signal it gives the same or shows that it was cut short, and it leaves the signal alone.

The same holds if the reader works beside the call and the caller's token may fire at any time: whatever turns they
take, the call comes to its end with its reader, no move of it fires the caller's token, and at any time the chain has
been run on the first lines of a walk only. What the call gives is what comes of the lines, or the caller's token has
fired and it shows that it was cut short, behind lines none of which has a match. -/
theorem scanFile_classifies (c : Chain) (path : String) (w : World) :
    let whole := CategorySelector.scanFile c path w.silent
    let found := CategorySelector.scanFile c path w
    let lines := (Walker.scanFile path w.silent).1.lines
    ((∃ heard, Classifies c path w heard whole.1 whole.2) ∧
      ∀ heard r w', Classifies c path w heard r w' →
        r = whole.1 ∧ w'.core = whole.2.core ∧ heard.map (FileLine.ofReadLine path) <+: lines) ∧
    ((found.1 = whole.1 ∨ Rises w.signal ∧ IsCutResult found.1) ∧ found.2.signal = w.signal) ∧
    WellFounded (fun s' s => Call.Step c path s s') ∧
    (∀ s, (∃ r, s.phase = .returned r []) ∨ ∃ s', Call.Moves c path s s') ∧
    (∀ s s', Call.Moves c path s s' → s'.fired = s.fired) ∧
    ∀ fired s, Relation.ReflTransGen (Call.Step c path) { fired := fired, world := w } s →
      s.heard.map (FileLine.ofReadLine path) <+: lines ∧
      ∀ r left, s.phase = .returned r left →
        Classifies c path w s.heard r s.world ∨
          s.fired = true ∧ IsCutResult r ∧ ∃ source count, w.files.openFile path = .ok source ∧
            Passed c w source.texts count s.world ∧ s.heard = numberedBehind 0 (source.texts.take count) := by
  intro whole found lines
  refine ⟨⟨scanFile_finds c path w, fun heard r w' h => ⟨h.unique.1.symm, h.unique.2.symm, h.heard_prefix⟩⟩,
    ⟨scanFile_signal c path w, scanFile_keeps_signal c path w⟩, Call.step_wellFounded c path, Call.exists_moves c path,
    fun s s' h => h.fired_eq, fun fired s h => ?_⟩
  have hsound := (Call.Sound.start c path w fired).of_reachable h
  refine ⟨hsound.heard_prefix, fun r left hphase => ?_⟩
  cases hsound with
  | opening h => rw [hphase] at h; cases h
  | receiving h => rw [hphase] at h; cases h
  | returned h hcomes =>
    cases h.symm.trans hphase
    exact .inl hcomes
  | cut h hup hcut hopen hpassed hheard =>
    cases h.symm.trans hphase
    exact .inr ⟨hup, hcut, _, _, hopen, hpassed, hheard⟩

/-- A chain has no match in lines of letters. It decides a file by its second line; one that breaks behind a line gives
that failure, and one that cannot be opened has no match. A caller's token fires as the first of them is opened. -/
theorem scanFile_classifies_small :
    let c : Chain := ⟨{ part := .category }, [.negated letterPattern []]⟩
    let fire : IoError := .other "disk on fire"
    let w : World :=
      { files := .dir [("f", .file [107, 10, 49, 10, 107]), ("g", .file [107, 10, 49] (some (.broken fire))),
          ("h", .file [49] (some (.refused fire)))] }
    (CategorySelector.scanFile c "f" w).1 = .ok ["1"] ∧
      (∃ w', Classifies c "g" w (numberedBehind 0 ["k"]) (.error (.stream (.read fire))) w') ∧
      (CategorySelector.scanFile c "g" w).1 = .error (.stream (.read fire)) ∧
      (CategorySelector.scanFile c "h" w).1 = .error (.unmatched "cannot open: disk on fire") ∧
      ∃ s, Relation.ReflTransGen (Call.Step c "f") { fired := false, world := w } s ∧
        s.phase = .returned (.error (.stream .cancelled)) [] ∧
        (Classifies c "f" w s.heard (.error (.stream .cancelled)) s.world ∨ s.fired = true) := by
  intro c fire w
  have hopen : w.files.openFile "f" = .ok ⟨[107, 10, 49, 10, 107], none⟩ := rfl
  have hbreaks : w.files.openFile "g" = .ok ⟨[107, 10, 49], some fire⟩ := rfl
  have hrefused : w.files.openFile "h" = .error fire := rfl
  have htexts : Source.texts ⟨[107, 10, 49], some fire⟩ = ["k"] := by decide +kernel
  have hline : (c.run "k" w).1 = .error (.unmatched "matcher chain[0]") := by decide +kernel
  have hpassed : Passed c w ["k"] 1 (c.run "k" w).2 := (Passed.start rfl).next rfl ⟨_, hline, rfl⟩ rfl
  have hbroken : Classifies c "g" w (numberedBehind 0 ["k"]) (.error (.stream (.read fire))) (c.run "k" w).2 := by
    rw [← htexts] at hpassed ⊢
    exact .broken hbreaks rfl hpassed
  have hunopened : Classifies c "h" w [] _ w := .unopened hrefused rfl
  have hmoves : Relation.ReflTransGen (Call.Step c "f") { fired := false, world := w } _ :=
    .head (.fire rfl) (.head (.move (.start rfl hopen)) (.head (.move (.read rfl (.heed rfl)))
      (.head (.move (.read rfl (.close (by decide)))) (.single (.move (.receive rfl))))))
  have hcut := ((scanFile_classifies c "f" w).2.2.2.2.2 false _ hmoves).2 _ _ rfl
  have hcomes : ∀ path heard r w', Classifies c path w heard r w' → (CategorySelector.scanFile c path w).1 = r :=
    fun path heard r w' h => ((scanFile_classifies c path w).1.2 heard r w' h).1.symm
  exact ⟨by decide +kernel, ⟨_, hbroken⟩, hcomes _ _ _ _ hbroken, hcomes _ _ _ _ hunopened, _, hmoves, rfl,
    hcut.imp_right fun h => h.1⟩

end Gleaner
