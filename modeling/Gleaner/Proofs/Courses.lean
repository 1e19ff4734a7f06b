/-
Rules that advance step by step.

A rule runs its chain stage by stage, and the reader of the lines works beside it. The moves of both make up the course
of the rule (`Course.Steps`). Between any two of them others may do something, so what a rule is going to decide is told
for every point of its course (`Course.ahead`); a step of the rule does not change it, unless the token cuts it short.

Results:
- `Steps.proper`: what a rule may decide;
- `Steps.ahead`: what a step does to what is ahead;
- `Steps.twinned`, `Steps.away`: what a rule sees of others, and others of it;
- `exists_steps`, `Steps.rank_lt`: a rule comes to a decision;
- `exists_decided`: a rule that nobody disturbs decides what it gives;
- `Heads.step`, `Heads.decided`: what a rule comes to that is by itself.
-/
import Gleaner.Proofs.Channels
import Gleaner.Proofs.Duties

namespace Gleaner

open Act

/-! ## Courses -/

/-- how far a rule has come with its duty -/
inductive Course where
  | idle
  /-- runs its chain on the text -/
  | matching (g : Progress)
  /-- waits for the next line -/
  | reading (reader : Channel ReadLine)
  /-- runs its chain on the line with some number -/
  | judging (reader : Channel ReadLine) (number : Nat) (g : Progress)
  /-- has a result, of which no sample has been taken -/
  | found (r : MatchResult)
  | decided (r : MatchResult)

namespace Course

/-- what a rule does with the result for a line -/
def heard (reader : Channel ReadLine) (number : Nat) : MatchResult → Course
  | .ok outputs => .found (.ok outputs)
  | .error e =>
    if e.isUnmatched then .reading reader else .found (.error (e.within ("line " ++ toString number)))

/-- a step of a rule or of its reader -/
inductive Steps (d : Duty) (fired : Bool) : Course → World → Course → World → Prop where
  | refuse {w : World} {e : MatchError} (h : d.errand = .refuse e) : Steps d fired .idle w (.found (.error e)) w
  | begin {w : World} {input : String} (h : d.errand = .text input) :
      Steps d fired .idle w (.matching (d.chain.begin input)) w
  | unopened {w : World} {path : String} {e : IoError} (h : d.errand = .lines path)
      (hopen : w.files.openFile path = .error e) :
      Steps d fired .idle w (.found (.error (.unmatched ("cannot open: " ++ e.message))))
        (Act.warn ("cannot open " ++ path ++ ": " ++ e.message) w).2
  | opened {w : World} {path : String} {source : Source} (h : d.errand = .lines path)
      (hopen : w.files.openFile path = .ok source) : Steps d fired .idle w (.reading ⟨source.moves, []⟩) w
  | match_ {w : World} {g : Progress} (h : g.isEnded = false) :
      Steps d fired (.matching g) w (.matching (g.advance w).1) (g.advance w).2
  | matched {w : World} {r : MatchResult} : Steps d fired (.matching (.ended r)) w (.found r) w
  | read {w : World} {reader reader' : Channel ReadLine} (h : reader.Produces fired reader') :
      Steps d fired (.reading reader) w (.reading reader') w
  | readAhead {w : World} {reader reader' : Channel ReadLine} {number : Nat} {g : Progress}
      (h : reader.Produces fired reader') : Steps d fired (.judging reader number g) w (.judging reader' number g) w
  | fail {w : World} {rest : List (Move ReadLine)} {line : ReadLine} {queue : List ReadLine} {e : StreamError}
      (h : line.error = some e) : Steps d fired (.reading ⟨rest, line :: queue⟩) w (.found (.error (.stream e))) w
  | take {w : World} {rest : List (Move ReadLine)} {line : ReadLine} {queue : List ReadLine} (h : line.error = none) :
      Steps d fired (.reading ⟨rest, line :: queue⟩) w
        (.judging ⟨rest, queue⟩ line.number (d.chain.begin line.text)) w
  | judge {w : World} {reader : Channel ReadLine} {number : Nat} {g : Progress} (h : g.isEnded = false) :
      Steps d fired (.judging reader number g) w (.judging reader number (g.advance w).1) (g.advance w).2
  | judged {w : World} {reader : Channel ReadLine} {number : Nat} {r : MatchResult} :
      Steps d fired (.judging reader number (.ended r)) w (heard reader number r) w
  | exhaust {w : World} : Steps d fired (.reading {}) w (.found (.error (.unmatched "no line matched"))) w
  | report {w : World} {r : MatchResult} :
      Steps d fired (.found r) w (.decided r) (Act.measure d.key (pure r) w).2

variable {d : Duty} {fired : Bool} {c c' : Course} {w w' : World}

/-! ### What a rule may decide -/

/-- a rule is on its way to something that it may decide -/
def Proper (d : Duty) : Course → Prop
  | .idle | .reading _ => True
  | .matching g | .judging _ _ g => g.Proper d.chain
  | .found r | .decided r => Good r

/-- **A step leaves a rule on its way.** -/
theorem Steps.proper (h : c.Steps d fired w c' w') (hc : c.Proper d) : c'.Proper d := by
  cases h with
  | refuse | unopened | fail | exhaust => exact Good.error _
  | begin => exact Progress.begin_proper d.chain _
  | opened | read => trivial
  | match_ | judge => exact Progress.advance_proper hc _
  | matched | report => exact hc
  | readAhead => exact hc
  | take => exact Progress.begin_proper d.chain _
  | @judged _ reader number r =>
    cases r with
    | ok outputs => exact hc
    | error e =>
      unfold heard
      simp only
      split
      · trivial
      · exact Good.error _

/-! ### What is ahead of a rule -/

/-- what a rule gives when its chain has given a result for a line and some lines are left -/
def verdict (d : Duty) (number : Nat) (lines : List ReadLine) : MatchResult → Act MatchResult
  | .ok outputs => return .ok outputs
  | .error e =>
    if e.isUnmatched then CategorySelector.firstMatch d.chain lines
    else return .error (e.within ("line " ++ toString number))

/-- what a rule is going to find if some lines are left -/
def left (d : Duty) (lines : List ReadLine) : Course → Act MatchResult
  | .idle => d.give
  | .matching g => g.finish
  | .reading _ => CategorySelector.firstMatch d.chain lines
  | .judging _ number g => do verdict d number lines (← g.finish)
  | .found r | .decided r => return r

/-- what a rule is going to decide if some lines are left -/
def ahead (d : Duty) (lines : List ReadLine) : Course → Act MatchResult
  | .decided r => return r
  | c => Act.measure d.key (c.left d lines)

/-- the reader of a rule carries some lines, if there is one -/
def Carries (fired : Bool) (lines : List ReadLine) : Course → Prop
  | .reading reader | .judging reader _ _ => reader.Carries ReadLine.IsCut fired lines
  | _ => True

theorem Carries.fire {lines : List ReadLine} (h : c.Carries fired lines) : c.Carries true lines := by
  cases c with
  | reading reader => exact Channel.Carries.fire h
  | judging reader number g => exact Channel.Carries.fire h
  | _ => trivial

theorem measure_congr {key : String} {a b : Act MatchResult} (h : a w = b w') :
    Act.measure key a w = Act.measure key b w' := by
  have hrun : ∀ (x : Act MatchResult) v, Act.measure key x v = Act.measure key (pure (x v).1) (x v).2 := fun _ _ => rfl
  rw [hrun a, hrun b, h]

/-- what is left behind a result for a line -/
theorem left_heard (reader : Channel ReadLine) (number : Nat) (lines : List ReadLine) (r : MatchResult) :
    (heard reader number r).left d lines = verdict d number lines r := by
  cases r with
  | ok outputs => rfl
  | error e =>
    unfold heard verdict
    simp only
    split <;> rfl

/-- a line that is received is judged -/
theorem firstMatch_line {line : ReadLine} (h : line.error = none) (lines : List ReadLine) (reader : Channel ReadLine) :
    CategorySelector.firstMatch d.chain (line :: lines) =
      (Course.judging reader line.number (d.chain.begin line.text)).left d lines := by
  unfold CategorySelector.firstMatch left
  rw [h, Chain.run_eq_begin]
  simp only
  refine congrArg _ (funext fun r => ?_)
  cases r <;> rfl

/-- **A step of a rule** does not change what it is going to decide, unless the token cuts it short. -/
theorem Steps.ahead {lines : List ReadLine} (h : c.Steps d fired w c' w') (hc : c.Carries fired lines) :
    (∃ lines', c'.Carries fired lines' ∧ c.ahead d lines w = c'.ahead d lines' w') ∨
      fired = true ∧ ∃ r, c' = .found r ∧ IsCutResult r := by
  cases h with
  | refuse h =>
    refine .inl ⟨lines, trivial, measure_congr ?_⟩
    simp only [left, Duty.give, h]
  | begin h =>
    refine .inl ⟨lines, trivial, measure_congr ?_⟩
    simp only [left, Duty.give, h, Chain.run_eq_begin]
  | unopened h hopen => exact .inl ⟨lines, trivial, measure_congr (Duty.give_unopened h hopen)⟩
  | @opened _ path source h hopen =>
    refine .inl ⟨source.ahead 0, ?_, measure_congr (Duty.give_opened h hopen)⟩
    rw [← source.items_eq_ahead]
    exact .start (readFrom_heeds _ _ _) fired
  | match_ h => exact .inl ⟨lines, trivial, measure_congr (Progress.finish_advance _ w)⟩
  | matched => exact .inl ⟨lines, trivial, rfl⟩
  | read h => exact .inl ⟨lines, h.carries hc, rfl⟩
  | readAhead h => exact .inl ⟨lines, h.carries hc, rfl⟩
  | @fail _ rest line queue e h =>
    -- a failure that is received is one of the file or the sign that the token has cut the reader short
    rcases Channel.Carries.take hc with ⟨more, rfl, -⟩ | ⟨hup, hcut⟩
    · refine .inl ⟨more, trivial, measure_congr ?_⟩
      exact CategorySelector.firstMatch_stop d.chain h more w
    · rw [show line.error = _ from hcut] at h
      cases h
      exact .inr ⟨hup, _, rfl, .stream .cancelled, rfl, rfl⟩
  | @take _ rest line queue h =>
    rcases Channel.Carries.take hc with ⟨more, rfl, hmore⟩ | ⟨-, hcut⟩
    · exact .inl ⟨more, hmore, measure_congr (congrFun (firstMatch_line h more ⟨rest, queue⟩) w)⟩
    · rw [show line.error = _ from hcut] at h
      cases h
  | @judge _ reader number g h =>
    refine .inl ⟨lines, hc, measure_congr ?_⟩
    simp only [left, Act.bind_run, Progress.finish_advance g w]
  | @judged _ reader number r =>
    refine .inl ⟨lines, ?_, ?_⟩
    · cases r with
      | ok outputs => trivial
      | error e =>
        unfold heard
        simp only
        split
        · exact hc
        · trivial
    · have hahead : (heard reader number r).ahead d lines =
          Act.measure d.key ((heard reader number r).left d lines) := by
        cases r with
        | ok outputs => rfl
        | error e =>
          unfold heard
          simp only
          split <;> rfl
      rw [hahead, left_heard]
      rfl
  | exhaust =>
    rw [Channel.Carries.closed hc]
    exact .inl ⟨[], trivial, rfl⟩
  | report => exact .inl ⟨lines, trivial, rfl⟩

/-! ### What a rule sees of others -/

/-- the same course beside another place -/
def beside (p : Place) : Course → Course
  | .idle => .idle
  | .matching g => .matching (g.beside p)
  | .reading reader => .reading reader
  | .judging reader number g => .judging reader number (g.beside p)
  | .found r => .found r
  | .decided r => .decided r

theorem heard_beside (p : Place) (reader : Channel ReadLine) (number : Nat) (r : MatchResult) :
    (heard reader number r).beside p = heard reader number r := by
  cases r with
  | ok outputs => rfl
  | error e =>
    unfold heard
    simp only
    split <;> rfl

theorem isEnded_beside (p : Place) (g : Progress) : (g.beside p).isEnded = g.isEnded := by cases g <;> rfl

/-- **A step of a rule** can be done at two places in twin worlds. -/
theorem Steps.twinned {d' : Duty} {v : World} (h : c.Steps d fired w c' w') (hmoved : d.Moved d') (hc : c.Proper d)
    (hw : Twins d.chain.place d'.chain.place w v) :
    ∃ v', (c.beside d'.chain.place).Steps d' fired v (c'.beside d'.chain.place) v' ∧
      Twins d.chain.place d'.chain.place w' v' := by
  cases h with
  | refuse h => exact ⟨v, .refuse (hmoved.errand ▸ h), hw⟩
  | @begin _ input h =>
    refine ⟨v, ?_, hw⟩
    rw [beside, beside, hmoved.begin_beside]
    exact .begin (hmoved.errand ▸ h)
  | unopened h hopen =>
    exact ⟨_, .unopened (hmoved.errand ▸ h) (hw.files ▸ hopen), hw.files, hw.env, hw.held⟩
  | opened h hopen => exact ⟨v, .opened (hmoved.errand ▸ h) (hw.files ▸ hopen), hw⟩
  | @match_ _ g h =>
    obtain ⟨hsame, hworld⟩ := Progress.advance_twinned hc hw
    refine ⟨_, ?_, hworld⟩
    rw [beside, beside, ← hsame]
    exact .match_ ((isEnded_beside _ g).trans h)
  | matched => exact ⟨v, .matched, hw⟩
  | read h => exact ⟨v, .read h, hw⟩
  | readAhead h => exact ⟨v, .readAhead h, hw⟩
  | fail h => exact ⟨v, .fail h, hw⟩
  | take h =>
    refine ⟨v, ?_, hw⟩
    rw [beside, beside, hmoved.begin_beside]
    exact .take h
  | @judge _ reader number g h =>
    obtain ⟨hsame, hworld⟩ := Progress.advance_twinned hc hw
    refine ⟨_, ?_, hworld⟩
    rw [beside, beside, ← hsame]
    exact .judge ((isEnded_beside _ g).trans h)
  | judged =>
    refine ⟨v, ?_, hw⟩
    rw [heard_beside]
    exact .judged
  | exhaust => exact ⟨v, .exhaust, hw⟩
  | report => exact ⟨_, .report, hw.files, hw.env, hw.held⟩

/-- **A step of a rule with another number** changes nothing but the files. -/
theorem Steps.away {p : Place} (hapart : ∀ i j, d.chain.place.at i ≠ p.at j) (h : c.Steps d fired w c' w')
    (hc : c.Proper d) : w'.env = w.env ∧ ∀ i, w'.held (p.at i) = w.held (p.at i) := by
  cases h with
  | match_ _ => exact Progress.advance_away hapart hc w
  | judge _ => exact Progress.advance_away hapart hc w
  | _ => exact ⟨rfl, fun _ => rfl⟩

/-- **A step of a rule whose stages leave the files alone** -/
theorem Steps.still (hstill : ∀ s ∈ d.chain.stages, s.Still) (h : c.Steps d fired w c' w') (hc : c.Proper d) :
    w'.files = w.files := by
  cases h with
  | match_ _ => exact Progress.advance_still hstill hc w
  | judge _ => exact Progress.advance_still hstill hc w
  | _ => rfl

/-! ### Rules come to a decision -/

def isDecided : Course → Bool
  | .decided _ => true
  | _ => false

/-- a rule that has not decided can do a step -/
theorem exists_steps (d : Duty) (fired : Bool) (w : World) (h : c.isDecided = false) :
    ∃ c' w', c.Steps d fired w c' w' := by
  cases c with
  | idle =>
    cases herrand : d.errand with
    | refuse e => exact ⟨_, _, .refuse herrand⟩
    | text input => exact ⟨_, _, .begin herrand⟩
    | lines path =>
      cases hopen : w.files.openFile path with
      | error e => exact ⟨_, _, .unopened herrand hopen⟩
      | ok source => exact ⟨_, _, .opened herrand hopen⟩
  | matching g =>
    cases g with
    | ended r => exact ⟨_, _, .matched⟩
    | working place s rest done texts => exact ⟨_, _, .match_ rfl⟩
  | reading reader =>
    rcases reader.exists_produces fired with ⟨line, queue, hqueue⟩ | rfl | ⟨reader', hreader⟩
    · obtain ⟨rest, _⟩ := reader
      cases hqueue
      cases herror : line.error with
      | some e => exact ⟨_, _, .fail herror⟩
      | none => exact ⟨_, _, .take herror⟩
    · exact ⟨_, _, .exhaust⟩
    · exact ⟨_, _, .read hreader⟩
  | judging reader number g =>
    cases g with
    | ended r => exact ⟨_, _, .judged⟩
    | working place s rest done texts => exact ⟨_, _, .judge rfl⟩
  | found r => exact ⟨_, _, .report⟩
  | decided r => cases h

/-- what is left to do for a rule: its phase, what its reader has left, and what its chain has -/
def rank : Course → Nat ×ₗ Nat ×ₗ Nat ×ₗ Nat ×ₗ Nat
  | .idle => toLex (3, toLex (0, toLex (0, toLex (0, 0))))
  | .matching g => toLex (2, toLex (0, toLex (1, g.rank)))
  | .reading reader => toLex (2, toLex (reader.weight, toLex (0, toLex (0, 0))))
  | .judging reader _ g => toLex (2, toLex (reader.weight, toLex (1, g.rank)))
  | .found _ => toLex (1, toLex (0, toLex (0, toLex (0, 0))))
  | .decided _ => toLex (0, toLex (0, toLex (0, toLex (0, 0))))

/-- **Every step lowers the rank of a rule.** -/
theorem Steps.rank_lt (h : c.Steps d fired w c' w') : c'.rank < c.rank := by
  cases h with
  | match_ h => simp [rank, Prod.Lex.toLex_lt_toLex, Progress.rank_lt h w]
  | judge h => simp [rank, Prod.Lex.toLex_lt_toLex, Progress.rank_lt h w]
  | read h => simp [rank, Prod.Lex.toLex_lt_toLex, h.weight_lt]
  | readAhead h => simp [rank, Prod.Lex.toLex_lt_toLex, h.weight_lt]
  | take h => simp [rank, Prod.Lex.toLex_lt_toLex, Channel.weight_take]
  | @judged _ reader number r =>
    cases r with
    | ok outputs => simp [heard, rank, Prod.Lex.toLex_lt_toLex]
    | error e =>
      unfold heard
      simp only
      split <;> simp [rank, Prod.Lex.toLex_lt_toLex]
  | _ => simp [rank, Prod.Lex.toLex_lt_toLex]

theorem eq_decided (h : c.isDecided = true) : ∃ r, c = .decided r := by
  cases c with
  | decided r => exact ⟨r, rfl⟩
  | _ => cases h

/-- **A rule that nobody disturbs** decides what is ahead of it. -/
theorem exists_decided (d : Duty) {lines : List ReadLine} (hc : c.Carries false lines) (w : World) :
    ∃ r w', Relation.ReflTransGen (fun x y : Course × World => x.1.Steps d false x.2 y.1 y.2) (c, w) (.decided r, w') ∧
      c.ahead d lines w = (r, w') := by
  induction hrank : c.rank using WellFoundedLT.induction generalizing c w lines with
  | ind n ih =>
    cases hdecided : c.isDecided with
    | true =>
      obtain ⟨r, rfl⟩ := eq_decided hdecided
      exact ⟨r, w, .refl, rfl⟩
    | false =>
      obtain ⟨c', w', hstep⟩ := exists_steps d false w hdecided
      rcases hstep.ahead hc with ⟨lines', hcarries, hahead⟩ | ⟨hup, -⟩
      · obtain ⟨r, w'', hsteps, hr⟩ := ih c'.rank (hrank ▸ hstep.rank_lt) hcarries w' rfl
        exact ⟨r, w'', .head hstep hsteps, hahead.trans hr⟩
      · cases hup

/-! ### What a rule comes to -/

/-- **The invariant of a rule** that gives `whole`: what is ahead of it is `whole`, or it was cut short by the token -/
inductive Heads (d : Duty) (fired : Bool) (whole : MatchResult × World) (w : World) (c : Course) : Prop
  | on {lines : List ReadLine} (hcarries : c.Carries fired lines) (hahead : c.ahead d lines w = whole)
  | cut {r : MatchResult} (h : c = .found r ∨ c = .decided r) (hup : fired = true) (hcut : IsCutResult r)

variable {whole : MatchResult × World}

theorem Heads.start (d : Duty) (fired : Bool) (w : World) : Heads d fired (d.run w) w .idle :=
  have hcarries : Course.idle.Carries fired [] := trivial
  .on hcarries rfl

/-- the token may fire -/
theorem Heads.fire (h : Heads d fired whole w c) : Heads d true whole w c := by
  cases h with
  | on hcarries hahead => exact .on hcarries.fire hahead
  | cut h hup hcut => exact .cut h rfl hcut

/-- **A step of a rule** keeps it to what it gives. -/
theorem Heads.step (h : Heads d fired whole w c) (hstep : c.Steps d fired w c' w') : Heads d fired whole w' c' := by
  cases h with
  | on hcarries hahead =>
    rcases hstep.ahead hcarries with ⟨lines', hcarries', hsame⟩ | ⟨hup, r, hr, hcut⟩
    · exact .on hcarries' (hsame.symm.trans hahead)
    · exact .cut (.inl hr) hup hcut
  | @cut r h hup hcut =>
    rcases h with rfl | rfl
    · cases hstep
      exact .cut (.inr rfl) hup hcut
    · cases hstep

/-- **A rule that has decided** -/
theorem Heads.decided {r : MatchResult} (h : Heads d fired whole w (.decided r)) :
    (r, w) = whole ∨ fired = true ∧ IsCutResult r := by
  cases h with
  | on _ hahead => exact .inl hahead
  | cut h hup hcut =>
    rcases h with h | h <;> cases h
    exact .inr ⟨hup, hcut⟩

end Course

end Gleaner
