/-
Duties of rules.

A rule has a duty for an input: it runs its chain on a text or on the lines of a file, or it refuses the input at once
(`Duty`). This is what category and node rules have in common. A chain advances by one application of a stage at a time
(`Progress.advance`); between two of them others may do something.

Results:
- `Progress.finish_advance`, `Chain.run_eq_begin`: chains, stage by stage;
- `Chain.run_single`: chains of one stage;
- `Progress.advance_proper`: whatever a chain decides is a failure or has outputs, none of which is blank;
- `CategorySelector.select_good`, `NodeSelector.select_good`: so it is with rules;
- `Progress.advance_twinned`, `Progress.advance_away`: what a step of a chain sees of others, and others of it;
- `CategorySelector.select_duty`, `NodeSelector.select_duty`: rules do their duties.
-/
import Gleaner.Proofs.Classifying
import Gleaner.Proofs.Findings
import Gleaner.Proofs.Twins

namespace Gleaner

open Act

/-! ## Chains stage by stage -/

/-- how far a chain has come with a text -/
inductive Progress where
  /-- a stage at some place has texts left; the texts before them have given `done`, the latest first -/
  | working (place : Place) (stage : Stage) (rest : List Stage) (done : List (List String)) (texts : List String)
  | ended (r : MatchResult)

/-- a chain begins with a text -/
def Chain.begin (c : Chain) (input : String) : Progress :=
  match c.stages with
  | [] => .ended (.error (.unmatched "empty matcher chain"))
  | stage :: rest => .working c.place stage rest [] [input]

namespace Progress

/-- a stage has given its outputs for all texts -/
def next (place : Place) (rest : List Stage) (found : List String) : Progress :=
  if found.isEmpty then .ended (.error (.unmatched (Chain.stageLabel place.stage)))
  else
    match rest with
    | [] => .ended (.ok found)
    | s :: rest => .working (place.at (place.stage + 1)) s rest [] found

/-- applies the stage at hand to the next text -/
def advance : Progress → Act Progress
  | .ended r => return .ended r
  | .working place _ rest done [] => return next place rest done.reverse.flatten
  | .working place s rest done (text :: texts) => do
    match ← Act.measure ("matcher-" ++ s.kind) (s.apply place rest.isEmpty text) with
    | .ok found => return .working place s rest (found :: done) texts
    | .error e =>
      if e.isUnmatched then return .working place s rest done texts
      else return .ended (.error (e.within (Chain.stageLabel place.stage)))

/-- what a chain gives when a stage has given a result for all texts -/
def conclude (place : Place) (rest : List Stage) : MatchResult → Act MatchResult
  | .error e => return .error e
  | .ok [] => return .error (.unmatched (Chain.stageLabel place.stage))
  | .ok found => Chain.runFrom (place.at (place.stage + 1)) rest found

/-- runs all that is left -/
def finish : Progress → Act MatchResult
  | .ended r => return r
  | .working place s rest done texts => do conclude place rest (← Chain.applyFrom s place rest.isEmpty done texts)

theorem finish_next (place : Place) (rest : List Stage) (found : List String) :
    (next place rest found).finish = conclude place rest (.ok found) := by
  cases found with
  | nil => rfl
  | cons first others => cases rest <;> rfl

/-- **A step of a chain** does not change what the chain gives. -/
theorem finish_advance (p : Progress) (w : World) : p.finish w = (p.advance w).1.finish (p.advance w).2 := by
  match p with
  | .ended r => rfl
  | .working place s rest done [] => exact congrFun (finish_next place rest done.reverse.flatten).symm w
  | .working place s rest done (text :: texts) =>
    simp only [finish, advance, Act.bind_run, Chain.applyFrom]
    cases (Act.measure ("matcher-" ++ s.kind) (s.apply place rest.isEmpty text) w).1 with
    | ok found => rfl
    | error e =>
      simp only
      cases e.isUnmatched <;> rfl

end Progress

/-- **A chain is run stage by stage.** -/
theorem Chain.run_eq_begin (c : Chain) (input : String) : c.run input = (c.begin input).finish := by
  obtain ⟨place, stages⟩ := c
  cases stages <;> rfl

/-! ## What chains may decide -/

/-- a failure, or outputs none of which is blank -/
def Good (r : MatchResult) : Prop := ∀ found, r = .ok found → found ≠ [] ∧ ∀ text ∈ found, Filled text

theorem Good.error (e : MatchError) : Good (.error e) := fun _ h => by cases h

theorem Good.ok {found : List String} (hne : found ≠ []) (h : ∀ text ∈ found, Filled text) : Good (.ok found) := by
  rintro _ ⟨⟩
  exact ⟨hne, h⟩

theorem Good.located {r : MatchResult} (h : Good r) (places : List String) : Good (Selection.located places r) := by
  cases r with
  | ok found => exact h
  | error e => exact .error _

namespace Progress

/-- a chain is on its way to something that it may decide -/
def Proper (c : Chain) : Progress → Prop
  | .ended r => Good r
  | .working place s rest done _ =>
    (∃ i, place = c.place.at i) ∧ s :: rest ⊆ c.stages ∧ ∀ found ∈ done, ∀ text ∈ found, Filled text

theorem begin_proper (c : Chain) (input : String) : (c.begin input).Proper c := by
  unfold Chain.begin
  split
  · exact Good.error _
  · rename_i hstages
    exact ⟨⟨c.place.stage, rfl⟩, hstages ▸ List.Subset.refl _, fun _ h => absurd h List.not_mem_nil⟩

variable {c : Chain}

theorem next_proper {place : Place} (hplace : ∃ i, place = c.place.at i) {rest : List Stage} (hrest : rest ⊆ c.stages)
    {found : List String} (h : ∀ text ∈ found, Filled text) : (next place rest found).Proper c := by
  unfold next
  split
  · exact Good.error _
  · rename_i hne
    split
    · exact Good.ok (by simpa using hne) h
    · obtain ⟨i, rfl⟩ := hplace
      exact ⟨⟨i + 1, rfl⟩, hrest, fun _ hfound => absurd hfound List.not_mem_nil⟩

/-- **A step of a chain** leaves it on its way. -/
theorem advance_proper {g : Progress} (h : g.Proper c) (w : World) : (g.advance w).1.Proper c := by
  match g with
  | .ended r => exact h
  | .working place s rest done [] =>
    obtain ⟨hplace, hstages, hdone⟩ := h
    refine next_proper hplace (List.subset_of_cons_subset hstages) fun text htext => ?_
    obtain ⟨found, hfound, htext⟩ := List.mem_flatten.1 htext
    exact hdone found (List.mem_reverse.1 hfound) text htext
  | .working place s rest done (text :: texts) =>
    obtain ⟨hplace, hstages, hdone⟩ := h
    have hfilled := Always.yields_measure ("matcher-" ++ s.kind) (s.apply_filled place rest.isEmpty text) w
    simp only [advance, Act.bind_run]
    cases hr : (Act.measure ("matcher-" ++ s.kind) (s.apply place rest.isEmpty text) w).1 with
    | ok found =>
      refine ⟨hplace, hstages, fun others hothers => ?_⟩
      rcases List.mem_cons.1 hothers with rfl | hothers
      · exact hfilled _ hr
      · exact hdone others hothers
    | error e =>
      simp only
      split
      · exact ⟨hplace, hstages, hdone⟩
      · exact Good.error _

/-! ## What chains see -/

variable {p' : Place}

/-- the same progress beside another place -/
def beside (p : Place) : Progress → Progress
  | .ended r => .ended r
  | .working place s rest done texts => .working (p.at place.stage) s rest done texts

theorem working_beside (p : Place) (i : Nat) (s : Stage) (rest : List Stage) (done : List (List String))
    (texts : List String) : (working (p.at i) s rest done texts).beside p' = working (p'.at i) s rest done texts := rfl

theorem next_beside (p : Place) (i : Nat) (rest : List Stage) (found : List String) :
    (next (p.at i) rest found).beside p' = next (p'.at i) rest found := by
  unfold next
  split
  · rfl
  · cases rest <;> rfl

/-- **A step of a chain** is the same at two places in twin worlds. -/
theorem advance_twinned {g : Progress} (h : g.Proper c) {w w' : World} (hw : Twins c.place p' w w') :
    ((g.beside p').advance w').1 = (g.advance w).1.beside p' ∧
      Twins c.place p' (g.advance w).2 ((g.beside p').advance w').2 := by
  match g with
  | .ended r => exact ⟨rfl, hw⟩
  | .working place s rest done [] =>
    obtain ⟨⟨i, rfl⟩, -⟩ := h
    exact ⟨(next_beside c.place i rest _).symm, hw⟩
  | .working place s rest done (text :: texts) =>
    obtain ⟨⟨i, rfl⟩, -⟩ := h
    obtain ⟨hresult, hworld⟩ := Twinned.measure ("matcher-" ++ s.kind) (s.apply_twinned i rest.isEmpty text) w w' hw
    rw [working_beside]
    simp only [advance, Act.bind_run]
    rw [← hresult]
    cases (Act.measure ("matcher-" ++ s.kind) (s.apply (c.place.at i) rest.isEmpty text) w).1 with
    | ok found => exact ⟨rfl, hworld⟩
    | error e =>
      simp only
      split <;> exact ⟨rfl, hworld⟩

/-- what holds of the stages of a chain holds of its steps -/
theorem advance_closed {P : ∀ {α : Type}, Act α → Prop} (hP : Closed (fun _ => True) P)
    (hstages : ∀ i, ∀ s ∈ c.stages, ∀ input, P (s.outputs (c.place.at i) input)) {g : Progress} (h : g.Proper c) :
    P g.advance := by
  match g with
  | .ended r => exact hP.pure _
  | .working place s rest done [] => exact hP.pure _
  | .working place s rest done (text :: texts) =>
    obtain ⟨⟨i, rfl⟩, hrest, -⟩ := h
    have houtputs := hstages i s (hrest List.mem_cons_self) text
    unfold advance
    refine hP.bind (hP.measure trivial (Stage.apply_closed hP houtputs rest.isEmpty)) fun r => ?_
    cases r with
    | ok found => exact hP.pure _
    | error e =>
      simp only
      split <;> exact hP.pure _

/-- a step of a chain with another number -/
theorem advance_away {p : Place} (hapart : ∀ i j, c.place.at i ≠ p.at j) {g : Progress} (h : g.Proper c) :
    Away p g.advance :=
  advance_closed (.away p) (fun i s _ => s.outputs_away (hapart i)) h

/-- a step of a chain whose stages leave the files alone -/
theorem advance_still (hstill : ∀ s ∈ c.stages, s.Still) {g : Progress} (h : g.Proper c) : Act.Still g.advance :=
  advance_closed .still (fun i s hs => hstill s hs (c.place.at i)) h

/-! ## Chains come to their end -/

def isEnded : Progress → Bool
  | .ended _ => true
  | .working .. => false

/-- the stages and texts left -/
def rank : Progress → Nat ×ₗ Nat
  | .ended _ => toLex (0, 0)
  | .working _ _ rest _ texts => toLex (rest.length + 1, texts.length + 1)

theorem rank_next_lt (place : Place) (s : Stage) (rest : List Stage) (done : List (List String)) (found : List String) :
    (next place rest found).rank < (working place s rest done []).rank := by
  unfold next
  split
  · simp [rank, Prod.Lex.toLex_lt_toLex]
  · split <;> simp [rank, Prod.Lex.toLex_lt_toLex]

/-- **A step lowers the rank** of a chain that is not through. -/
theorem rank_lt {g : Progress} (h : g.isEnded = false) (w : World) : (g.advance w).1.rank < g.rank := by
  match g with
  | .ended r => cases h
  | .working place s rest done [] => exact rank_next_lt place s rest done done.reverse.flatten
  | .working place s rest done (text :: texts) =>
    simp only [advance, Act.bind_run]
    cases (Act.measure ("matcher-" ++ s.kind) (s.apply place rest.isEmpty text) w).1 with
    | ok found => simp [rank, Act.pure_run, Prod.Lex.toLex_lt_toLex]
    | error e =>
      simp only
      split <;> simp [rank, Act.pure_run, Prod.Lex.toLex_lt_toLex]

/-- a chain on its way to something that it may decide gives it -/
theorem finish_good {g : Progress} (h : g.Proper c) (w : World) : Good (g.finish w).1 := by
  -- by induction on what the chain has left to do
  induction hrank : g.rank using WellFoundedLT.induction generalizing g w with
  | ind n ih =>
    cases g with
    | ended r => exact h
    | working place s rest done texts =>
      rw [finish_advance]
      exact ih _ (hrank ▸ rank_lt rfl w) (advance_proper h w) _ rfl

end Progress

/-- **A chain gives no empty list**, and no blank text. -/
theorem Chain.run_good (c : Chain) (input : String) : Always Good (c.run input) := by
  rw [Chain.run_eq_begin]
  exact Progress.finish_good (Progress.begin_proper c input)

theorem Stage.dropBlank_good (kind : String) (found : List String) : Good (Stage.dropBlank kind found) := by
  intro kept hkept
  refine ⟨?_, dropBlank_filled kind found kept hkept⟩
  unfold dropBlank at hkept
  split at hkept
  · cases hkept
  · rename_i hne
    cases hkept
    exact hne

/-- a stage gives no empty list, and no blank text -/
theorem Stage.apply_good (s : Stage) (place : Place) (last : Bool) (input : String) :
    Always Good (s.apply place last input) := by
  intro w
  have hrun : (s.apply place last input w).1 = (s.found place last input w).1 >>= dropBlank s.kind := rfl
  rw [hrun]
  cases (s.found place last input w).1 with
  | error e => exact Good.error e
  | ok found => exact dropBlank_good s.kind found

/-- **A chain of one stage** gives what the stage gives, and marks its failures. -/
theorem Chain.run_single (place : Place) (s : Stage) (input : String) (w : World) :
    ((⟨place, [s]⟩ : Chain).run input w).1 =
      match (s.apply place true input w).1 with
      | .ok found => .ok found
      | .error e =>
        .error (if e.isUnmatched then .unmatched (stageLabel place.stage) else e.within (stageLabel place.stage)) := by
  have hgood := s.apply_good place true input w
  have hmeasure : (Act.measure ("matcher-" ++ s.kind) (s.apply place true input) w).1 = (s.apply place true input w).1 :=
    rfl
  simp only [Chain.run, List.isEmpty_cons, Bool.false_eq_true, if_false, runFrom, applyAll, applyFrom, bind_run]
  rw [List.isEmpty_nil, hmeasure]
  cases hr : (s.apply place true input w).1 with
  | ok found =>
    obtain ⟨hne, -⟩ := hgood found hr
    cases found with
    | nil => exact absurd rfl hne
    | cons first rest => simp [pure_run]
  | error e =>
    by_cases hunmatched : e.isUnmatched = true <;> simp [hunmatched, pure_run]

theorem CategorySelector.firstMatch_good (c : Chain) (lines : List ReadLine) : Always Good (firstMatch c lines) := by
  induction lines with
  | nil => exact Always.pure (Good.error _)
  | cons line rest ih =>
    unfold firstMatch
    cases line.error with
    | some e => exact Always.pure (Good.error _)
    | none =>
      refine (c.run_good line.text).bind fun r hr => ?_
      cases r with
      | ok found => exact Always.pure hr
      | error e =>
        simp only
        split
        · exact ih
        · exact Always.pure (Good.error _)

theorem CategorySelector.scanFile_good (c : Chain) (path : String) : Always Good (scanFile c path) := by
  intro w
  cases hopen : w.files.openFile path with
  | error e =>
    rw [scanFile_unopened hopen]
    exact Good.error _
  | ok source =>
    rw [scanFile_opened hopen]
    exact firstMatch_good c _ _

/-- what a category rule runs its chain on, before the places are put around the result -/
def CategorySelector.search (s : CategorySelector) (path : String) : Act MatchResult :=
  match s.mode with
  | .filename => s.chain.run path
  | .text => scanFile s.chain path

/-- **A category rule** gives no empty list, and no blank text. -/
theorem CategorySelector.select_good (s : CategorySelector) (path : String) : Always Good (s.select path) := by
  have hsearch : Always Good (s.search path) := by
    unfold search
    cases s.mode with
    | filename => exact s.chain.run_good path
    | text => exact scanFile_good s.chain path
  exact fun w => (hsearch w).located _

/-- **A node rule** gives no empty list, and no blank text. -/
theorem NodeSelector.select_good (s : NodeSelector) (category content : String) :
    Always Good (s.select category content) := by
  have hfound : Always Good (if s.category.isMatch category then
      (do return Selection.located ["node category " ++ category] (← s.chain.run content))
      else return .error (.unmatched ("node category " ++ category ++ " does not match " ++ s.category.source))) := by
    split
    · exact (s.chain.run_good content).bind fun r hr => Always.pure (hr.located _)
    · exact Always.pure (Good.error _)
  exact fun w => (hfound w).located _

/-! ## Duties -/

/-- what a rule has to do for an input -/
inductive Errand where
  | refuse (e : MatchError)
  | text (input : String)
  | lines (path : String)

/-- what a rule has to do, and the places around its result, the innermost first -/
structure Duty where
  name : String
  /-- the key of its samples -/
  key : String
  chain : Chain
  errand : Errand
  places : List String

/-- the same duty of a chain at another place -/
structure Duty.Moved (d d' : Duty) : Prop where
  name : d.name = d'.name
  key : d.key = d'.key
  stages : d.chain.stages = d'.chain.stages
  stage : d.chain.place.stage = d'.chain.place.stage
  errand : d.errand = d'.errand
  places : d.places = d'.places

namespace Duty

/-- what is found -/
def give (d : Duty) : Act MatchResult :=
  match d.errand with
  | .refuse e => return .error e
  | .text input => d.chain.run input
  | .lines path => do
    match (← get).files.openFile path with
    | .error e =>
      Act.warn ("cannot open " ++ path ++ ": " ++ e.message)
      return .error (.unmatched ("cannot open: " ++ e.message))
    | .ok source => CategorySelector.firstMatch d.chain (source.ahead 0)

/-- does what there is to do -/
def run (d : Duty) : Act MatchResult := Act.measure d.key d.give

/-- a result with the places around it -/
def report (d : Duty) (r : MatchResult) : MatchResult := Selection.located d.places r

end Duty

/-- two runs that agree in their result, and in all but the signal, the looks and the warnings behind it -/
def CoreEq {α : Type} (x y : α × World) : Prop := x.1 = y.1 ∧ x.2.core = y.2.core

theorem CoreEq.measure {a b : Act MatchResult} {w w' : World} (h : CoreEq (a w) (b w')) (key : String) :
    CoreEq (Act.measure key a w) (Act.measure key b w') := by
  have hrun : ∀ (c : Act MatchResult) v, Act.measure key c v = Act.measure key (pure (c v).1) (c v).2 := fun _ _ => rfl
  rw [hrun a, hrun b, h.1]
  exact (Blind.measure key (Blind.pure (b w').1)).of_core h.2

/-- a chain at another place begins in the same way -/
theorem Duty.Moved.begin_beside {d d' : Duty} (h : d.Moved d') (input : String) :
    (d.chain.begin input).beside d'.chain.place = d'.chain.begin input := by
  have hplace : d'.chain.place.at d.chain.place.stage = d'.chain.place := by
    rw [h.stage]
    rfl
  unfold Chain.begin
  rw [← h.stages]
  cases d.chain.stages with
  | nil => rfl
  | cons s rest => simp only [Progress.beside, hplace]

/-! ### The duties of rules -/

/-- what a category rule has to do for a path -/
def CategorySelector.duty (s : CategorySelector) (path : String) : Duty where
  name := s.name
  key := "named-category-selector-" ++ s.name
  chain := s.chain
  errand := match s.mode with
    | .filename => .text path
    | .text => .lines path
  places :=
    let what := match s.mode with
      | .filename => "file category "
      | .text => "text category "
    [what ++ path, labelled "category" s.name]

/-- what a node rule has to do for a line of a file of a category -/
def NodeSelector.duty (s : NodeSelector) (category content : String) : Duty :=
  let label := "node category " ++ category
  let applies := s.category.isMatch category
  { name := s.name
    key := "named-node-selector-" ++ s.name
    chain := s.chain
    errand :=
      if applies then .text content
      else .refuse (.unmatched (label ++ " does not match " ++ s.category.source))
    places := if applies then [label, labelled "node" s.name] else [labelled "node" s.name] }

section

variable {d : Duty} {path : String} {w w' : World}

theorem Duty.give_unopened {e : IoError} (h : d.errand = .lines path) (hopen : w.files.openFile path = .error e) :
    d.give w = (.error (.unmatched ("cannot open: " ++ e.message)),
      (Act.warn ("cannot open " ++ path ++ ": " ++ e.message) w).2) := by
  unfold give
  rw [h]
  simp only [Act.bind_run, Act.get_run, hopen]
  rfl

theorem Duty.give_opened {source : Source} (h : d.errand = .lines path)
    (hopen : w.files.openFile path = .ok source) :
    d.give w = CategorySelector.firstMatch d.chain (source.ahead 0) w := by
  unfold give
  rw [h]
  simp only [Act.bind_run, Act.get_run, hopen]

/-- looking at the lines of a file under a signal that stays down -/
theorem Duty.give_lines (h : d.errand = .lines path) (hsignal : w'.signal = fun _ => false) (hw : w'.core = w.core) :
    CoreEq (CategorySelector.scanFile d.chain path w') (d.give w) := by
  have hfiles : w'.core.files = w.core.files := by rw [hw]
  rw [World.core_files, World.core_files] at hfiles
  cases hopen : w.files.openFile path with
  | error e =>
    rw [scanFile_unopened (hfiles ▸ hopen), give_unopened h hopen]
    exact ⟨rfl, hw⟩
  | ok source =>
    have hread : (Act.readLines source w').1 = source.ahead 0 := by
      have hsilent : w' = w'.silent := by rw [World.silent, ← hsignal]
      rw [hsilent]
      exact readLines_silent source w'
    rw [scanFile_opened (hfiles ▸ hopen), give_opened h hopen, hread]
    exact (CategorySelector.firstMatch_blind _ _).of_core hw

/-- **A category rule does its duty.** -/
theorem CategorySelector.select_duty (s : CategorySelector) (path : String) (hsignal : w'.signal = fun _ => false)
    (hw : w'.core = w.core) :
    (s.select path w').1 = (s.duty path).report ((s.duty path).run w).1 ∧
      (s.select path w').2.core = ((s.duty path).run w).2.core := by
  have hgive : CoreEq (s.search path w') ((s.duty path).give w) := by
    unfold search
    cases hmode : s.mode with
    | filename =>
      have herrand : (s.duty path).errand = .text path := by simp [duty, hmode]
      unfold Duty.give
      rw [herrand]
      exact (s.chain.run_blind path).of_core hw
    | text =>
      have herrand : (s.duty path).errand = .lines path := by simp [duty, hmode]
      exact Duty.give_lines herrand hsignal hw
  obtain ⟨hresult, hworld⟩ := hgive.measure ("named-category-selector-" ++ s.name)
  exact ⟨congrArg (s.duty path).report hresult, hworld⟩

theorem located_located (inner outer : List String) (r : MatchResult) :
    Selection.located outer (Selection.located inner r) = Selection.located (inner ++ outer) r := by
  cases r with
  | ok found => rfl
  | error e => simp [Selection.located, Except.mapError, List.foldl_append]

/-- the places around a result do not show in its sample -/
theorem measure_located (key : String) (places : List String) (a : Act MatchResult) (w : World) :
    Act.measure key (do return Selection.located places (← a)) w =
      (Selection.located places (Act.measure key a w).1, (Act.measure key a w).2) := by
  have hrun : Act.measure key (do return Selection.located places (← a)) w =
      Act.measure key (pure (Selection.located places (a w).1)) (a w).2 := rfl
  have hrun' : Act.measure key a w = Act.measure key (pure (a w).1) (a w).2 := rfl
  rw [hrun, hrun']
  cases (a w).1 <;> rfl

/-- **A node rule does its duty.** -/
theorem NodeSelector.select_duty (s : NodeSelector) (category content : String) (hw : w'.core = w.core) :
    (s.select category content w').1 = (s.duty category content).report ((s.duty category content).run w).1 ∧
      (s.select category content w').2.core = ((s.duty category content).run w).2.core := by
  let label := "node category " ++ category
  by_cases hmatch : s.category.isMatch category = true
  · have hduty : s.duty category content = ⟨s.name, "named-node-selector-" ++ s.name, s.chain, .text content,
        [label, labelled "node" s.name]⟩ := by simp [duty, hmatch, label]
    have hselect : s.select category content = do
        let found ← Act.measure ("named-node-selector-" ++ s.name)
          (do return Selection.located [label] (← s.chain.run content))
        return Selection.located [labelled "node" s.name] found := by
      unfold select
      simp only [hmatch, if_true]
      rfl
    obtain ⟨hresult, hworld⟩ :=
      CoreEq.measure ((s.chain.run_blind content).of_core hw) ("named-node-selector-" ++ s.name)
    rw [hselect, hduty]
    simp only [Act.bind_run, Act.pure_run, measure_located]
    refine ⟨?_, hworld⟩
    rw [hresult]
    exact located_located _ _ _
  · have hduty : s.duty category content = ⟨s.name, "named-node-selector-" ++ s.name, s.chain,
        .refuse (.unmatched (label ++ " does not match " ++ s.category.source)), [labelled "node" s.name]⟩ := by
      simp [duty, hmatch, label]
    have hselect : s.select category content = do
        let found ← Act.measure ("named-node-selector-" ++ s.name)
          (return .error (.unmatched (label ++ " does not match " ++ s.category.source)))
        return Selection.located [labelled "node" s.name] found := by
      unfold select
      simp only [hmatch, if_false, Bool.false_eq_true]
      rfl
    rw [hselect, hduty]
    exact ⟨rfl, ((Blind.pure _).measure ("named-node-selector-" ++ s.name)).of_core hw |>.2⟩

end

end Gleaner
