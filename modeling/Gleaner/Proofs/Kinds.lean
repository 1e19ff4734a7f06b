/-
What becomes of failures on their way.

A rule runs its chain, on the path of a file, on its lines one after the other, on a line or on a text, and marks a
failure with the places around it. A list of rules is evaluated as a whole (`evaluated`) or up to the first rule that
has a match or fails (`tried`), and the entries of a list keep of a failure only its message and its kind.

None of this changes whether a failure is no match, or whether it shows the signal (`KindsKept`): what comes out fails
with a hard error just if one of the chains that are run does, and the failures of a rule are of the kind of those of its
chain.
-/
import Gleaner.Proofs.Breakdowns

namespace Gleaner

open Act

/-- a failure that is more than no match -/
def Hard (r : MatchResult) : Prop := ∃ e, r = .error e ∧ e.isUnmatched = false

instance (r : MatchResult) : Decidable (Hard r) :=
  match r with
  | .ok _ => isFalse (by rintro ⟨e, he, -⟩; cases he)
  | .error e => decidable_of_iff (e.isUnmatched = false)
      ⟨fun hhard => ⟨e, rfl, hhard⟩, fun ⟨_, he, hhard⟩ => by cases he; exact hhard⟩

theorem exists_error_of_kind {α : Type} {r : Except MatchError α} {kind : Bool × Bool} (h : failureKind r = some kind) :
    ∃ e, r = .error e ∧ e.kind = kind := by
  cases r with
  | ok found => cases h
  | error e => exact ⟨e, rfl, Option.some.inj h⟩

theorem hard_iff {r : MatchResult} : Hard r ↔ ∃ cancelled, failureKind r = some (false, cancelled) := by
  constructor
  · rintro ⟨e, rfl, hhard⟩
    exact ⟨e.isCancelled, congrArg (fun u => some (u, e.isCancelled)) hhard⟩
  · rintro ⟨cancelled, h⟩
    obtain ⟨e, he, hkind⟩ := exists_error_of_kind h
    exact ⟨e, he, congrArg Prod.fst hkind⟩

/-! ## Lists of rules -/

section

variable {α : Type}

/-- the members of a list, each with the world in which it is evaluated -/
def evaluated (attempt : α → Act MatchResult) : List α → World → List (α × World)
  | [], _ => []
  | x :: rest, w => (x, w) :: evaluated attempt rest (attempt x w).2

/-- the members of a list up to the first that has a match or fails, each with the world in which it is tried -/
def tried (attempt : α → Act MatchResult) : List α → World → List (α × World)
  | [], _ => []
  | x :: rest, w =>
    (x, w) :: match attempt x w with
      | (.ok _, _) => []
      | (.error e, w) => if e.isUnmatched then tried attempt rest w else []

/-- **Entries keep the kinds of failures**: a list of rules has an entry with a failure of a kind just if one of the
rules fails in this way. -/
theorem selectAll_kind_iff {name : α → String} {select : α → Act MatchResult} {rules : List α} {w : World}
    {kind : Bool × Bool} (i : Nat) :
    (∃ s ∈ (Selection.selectAll name select i rules w).1, ∃ e, s.outcome = .error e ∧ (e.unmatched, e.cancelled) = kind) ↔
      ∃ x ∈ evaluated select rules w, failureKind (select x.1 x.2).1 = some kind := by
  induction rules generalizing i w with
  | nil =>
    constructor
    · rintro ⟨s, hs, -⟩
      cases hs
    · rintro ⟨x, hx, -⟩
      cases hx
  | cons rule rest ih =>
    have hrun : (Selection.selectAll name select i (rule :: rest) w).1 =
        Selection.expand i (name rule) (select rule w).1 ++
          (Selection.selectAll name select (i + 1) rest (select rule w).2).1 := rfl
    have hfirst : (∃ s ∈ Selection.expand i (name rule) (select rule w).1,
        ∃ e, s.outcome = .error e ∧ (e.unmatched, e.cancelled) = kind) ↔ failureKind (select rule w).1 = some kind := by
      cases (select rule w).1 with
      | ok found =>
        constructor
        · rintro ⟨s, hs, e, he, -⟩
          obtain ⟨text, -, rfl⟩ := List.mem_map.1 hs
          cases he
        · intro h
          cases h
      | error e =>
        constructor
        · rintro ⟨s, hs, e, he, rfl⟩
          rw [List.mem_singleton.1 hs] at he
          cases he
          rfl
        · intro h
          exact ⟨_, List.mem_singleton.2 rfl, .of e, rfl, Option.some.inj h⟩
    rw [hrun]
    simp only [evaluated, List.mem_append, List.mem_cons, or_and_right, exists_or, exists_eq_left, hfirst, ih]

/-- **A search fails with a hard error** just if what is tried last does. -/
theorem search_kind_iff {attempt : α → Act MatchResult} (search : Nat → List α → World → Option (Bool × Bool))
    (hnil : ∀ i w cancelled, search i [] w ≠ some (false, cancelled))
    (hcons : ∀ i x rest w, search i (x :: rest) w =
      match attempt x w with
      | (.ok _, _) => none
      | (.error e, w) => if e.isUnmatched then search (i + 1) rest w else some e.kind)
    {rules : List α} {w : World} {cancelled : Bool} (i : Nat) :
    search i rules w = some (false, cancelled) ↔
      ∃ x ∈ tried attempt rules w, failureKind (attempt x.1 x.2).1 = some (false, cancelled) := by
  induction rules generalizing i w with
  | nil =>
    constructor
    · intro h
      exact absurd h (hnil i w cancelled)
    · rintro ⟨x, hx, -⟩
      cases hx
  | cons rule rest ih =>
    rw [hcons, tried]
    rcases hrule : attempt rule w with ⟨e | found, w'⟩
    · simp only [List.mem_cons, or_and_right, exists_or, exists_eq_left, hrule]
      cases hsoft : e.isUnmatched with
      | true =>
        have hkind : failureKind (.error e : MatchResult) ≠ some (false, cancelled) := by
          intro h
          cases hsoft.symm.trans (congrArg Prod.fst (Option.some.inj h))
        simp only [if_true, ih, hkind, false_or]
      | false => simp [failureKind]
    · simp [hrule, failureKind]

end

/-! ## Chains -/

/-- **A chain fails with a hard error** just if one of its stages does, and in the same way. -/
theorem Chain.run_kind_iff {c : Chain} {input : String} {w : World} {cancelled : Bool} :
    failureKind (c.run input w).1 = some (false, cancelled) ↔
      ∃ a ∈ c.reached input w, failureKind a.outcome.1 = some (false, cancelled) := by
  constructor
  · intro h
    obtain ⟨e, he, hkind⟩ := exists_error_of_kind h
    obtain ⟨a, ha, cause, hbreaks, rfl⟩ := run_hard_iff.1 ⟨he, congrArg Prod.fst hkind⟩
    refine ⟨a, ha, ?_⟩
    rw [(Application.breaks_iff.2 hbreaks).1]
    exact congrArg some ((cause.kind_within _).symm.trans hkind)
  · rintro ⟨a, ha, h⟩
    obtain ⟨cause, hcause, hkind⟩ := exists_error_of_kind h
    have hbreaks := Application.breaks_iff.1 ⟨hcause, congrArg Prod.fst hkind⟩
    rw [(run_hard_iff.2 ⟨a, ha, cause, hbreaks, rfl⟩).1]
    exact congrArg some ((cause.kind_within _).trans hkind)

/-! ## Rules -/

namespace CategorySelector

/-- what a line gives to a scan -/
def lineOutcome (c : Chain) (line : ReadLine) : Act MatchResult :=
  match line.error with
  | some e => return .error (.stream e)
  | none => c.run line.text

/-- the lines at which a scan of the file at a path looks, each with the world in which it does -/
def scans (c : Chain) (path : String) (w : World) : List (ReadLine × World) :=
  match w.files.openFile path with
  | .error _ => []
  | .ok source => tried (lineOutcome c) (Act.readLines source w).1 (Act.readLines source w).2

/-- the first match in lines fails with a hard error just if the line that decides does -/
theorem firstMatch_kind_iff {c : Chain} {lines : List ReadLine} {w : World} {cancelled : Bool} :
    failureKind (firstMatch c lines w).1 = some (false, cancelled) ↔
      ∃ x ∈ tried (lineOutcome c) lines w, failureKind (lineOutcome c x.1 x.2).1 = some (false, cancelled) := by
  refine search_kind_iff (fun _ lines w => failureKind (firstMatch c lines w).1) ?_ ?_ 0
  · intro _ _ _ h
    cases h
  · intro _ line rest w
    unfold lineOutcome
    rw [firstMatch]
    cases line.error with
    | some e => rfl
    | none =>
      simp only
      rw [bind_run]
      rcases c.run line.text w with ⟨e | found, w'⟩
      · simp only
        by_cases hsoft : e.isUnmatched = true
        · simp only [hsoft, if_true]
        · simp only [hsoft]
          exact congrArg some (e.kind_within _)
      · rfl

theorem scanFile_kind_iff {c : Chain} {path : String} {w : World} {cancelled : Bool} :
    failureKind (scanFile c path w).1 = some (false, cancelled) ↔
      ∃ x ∈ scans c path w, failureKind (lineOutcome c x.1 x.2).1 = some (false, cancelled) := by
  unfold scanFile scans
  rw [bind_run, get_run]
  simp only
  cases w.files.openFile path with
  | error e =>
    constructor
    · intro h
      cases h
    · rintro ⟨x, hx, -⟩
      cases hx
  | ok source => exact firstMatch_kind_iff

theorem select_kind (s : CategorySelector) (path : String) (w : World) :
    failureKind (s.select path w).1 =
      match s.mode with
      | .filename => failureKind (s.chain.run path w).1
      | .text => failureKind (scanFile s.chain path w).1 := by
  refine (failureKind_located _ _).trans ?_
  cases s.mode <;> rfl

end CategorySelector

theorem NodeSelector.select_kind (s : NodeSelector) (category content : String) (w : World) :
    failureKind (s.select category content w).1 =
      if s.category.isMatch category then failureKind (s.chain.run content w).1 else some (true, false) := by
  have hrun : (s.select category content w).1 = Selection.located [labelled "node" s.name]
      ((if s.category.isMatch category then do
          return Selection.located ["node category " ++ category] (← s.chain.run content)
        else return .error (.unmatched ("node category " ++ category ++ " does not match " ++ s.category.source)) :
        Act MatchResult) w).1 := rfl
  rw [hrun, failureKind_located]
  split
  · exact failureKind_located _ _
  · rfl

theorem Normalizer.run_kind (n : Normalizer) (input : String) (w : World) :
    failureKind (n.run input w).1 = failureKind (n.chain.run input w).1 :=
  failureKind_located _ _

theorem normalize_kind_iff {rules : List Normalizer} {input : String} {w : World} {cancelled : Bool} :
    failureKind (normalize rules input w).1 = some (false, cancelled) ↔
      ∃ x ∈ tried (·.run input) rules w, failureKind (x.1.run input x.2).1 = some (false, cancelled) := by
  refine search_kind_iff (fun i rules w => failureKind (normalizeFrom input i rules w).1) ?_ ?_ 0
  · intro _ _ _ h
    cases h
  · intro i n rest w
    rw [normalizeFrom, bind_run]
    rcases n.run input w with ⟨e | found, w'⟩
    · simp only
      by_cases hsoft : e.isUnmatched = true
      · simp only [hsoft, if_true]
      · simp only [hsoft]
        exact congrArg some (e.kind_within _)
    · rfl

/-! ## All together -/

/-- **What is put around failures never changes their kind**: whether they are no match, and whether they show the
signal. -/
structure KindsKept : Prop where
  /-- places around an error, however many -/
  places (e : MatchError) (places : List String) : (places.foldl MatchError.within e).kind = e.kind
  /-- a chain around its stages -/
  chain (c : Chain) (input : String) (w : World) (cancelled : Bool) :
    failureKind (c.run input w).1 = some (false, cancelled) ↔
      ∃ a ∈ c.reached input w, failureKind a.outcome.1 = some (false, cancelled)
  /-- a category rule around its chain, or around the scan of a file -/
  category (s : CategorySelector) (path : String) (w : World) :
    failureKind (s.select path w).1 =
      match s.mode with
      | .filename => failureKind (s.chain.run path w).1
      | .text => failureKind (CategorySelector.scanFile s.chain path w).1
  /-- a scan of a file around its lines -/
  scan (c : Chain) (path : String) (w : World) (cancelled : Bool) :
    failureKind (CategorySelector.scanFile c path w).1 = some (false, cancelled) ↔
      ∃ x ∈ CategorySelector.scans c path w,
        failureKind (CategorySelector.lineOutcome c x.1 x.2).1 = some (false, cancelled)
  /-- a node rule around its chain -/
  node (s : NodeSelector) (category content : String) (w : World) :
    failureKind (s.select category content w).1 =
      if s.category.isMatch category then failureKind (s.chain.run content w).1 else some (true, false)
  /-- a normalizer around its chain -/
  normalizer (n : Normalizer) (input : String) (w : World) :
    failureKind (n.run input w).1 = failureKind (n.chain.run input w).1
  /-- a list of normalizers around those that are tried -/
  normalizers (rules : List Normalizer) (input : String) (w : World) (cancelled : Bool) :
    failureKind (normalize rules input w).1 = some (false, cancelled) ↔
      ∃ x ∈ tried (·.run input) rules w, failureKind (x.1.run input x.2).1 = some (false, cancelled)
  /-- the entries of a list of rules, which keep a message and the kind -/
  entries {α : Type} (name : α → String) (select : α → Act MatchResult) (rules : List α) (i : Nat) (w : World)
    (kind : Bool × Bool) :
    (∃ s ∈ (Selection.selectAll name select i rules w).1,
        ∃ e, s.outcome = .error e ∧ (e.unmatched, e.cancelled) = kind) ↔
      ∃ x ∈ evaluated select rules w, failureKind (select x.1 x.2).1 = some kind

theorem kindsKept : KindsKept where
  places := MatchError.kind_foldl_within
  chain _ _ _ _ := Chain.run_kind_iff
  category := CategorySelector.select_kind
  scan _ _ _ _ := CategorySelector.scanFile_kind_iff
  node := NodeSelector.select_kind
  normalizer := Normalizer.run_kind
  normalizers _ _ _ _ := normalize_kind_iff
  entries _ _ _ i _ _ := selectAll_kind_iff i

end Gleaner
