/-
What rules give.

In settled worlds node rules and normalizers give what they give in a fresh world. So do category rules, unless the
signal cuts the lines of a file short before one of them has a match; then the entry of the rule says that the run was
cancelled.

Results:
- `firstMatch_cut`: lines that are cut short have the same first match or show that they were cut;
- `CategorySelector.select_settles`, `NodeSelector.select_gives`, `normalize_gives`: what rules give;
- `selectAll_settles`: what lists of rules give;
- `CategorySelector.select_closed`, `NodeSelector.select_closed`, `Normalizer.run_closed`: what holds of rules since it
  holds of their chains.
-/
import Gleaner.Proofs.Candidates
import Gleaner.Proofs.Producers
import Gleaner.Workspace
import Gleaner.Rules.Node

namespace Gleaner

open Act

variable {scripts : Place → Option Callable} {files : FileNode} {env : Environment} {fires : Nat → Bool}

/-! ## Settled worlds under a signal -/

/-- a settled world with a given signal -/
def World.SettledUnder (scripts : Place → Option Callable) (files : FileNode) (env : Environment)
    (fires : Nat → Bool) (w : World) : Prop :=
  w.Settled scripts files env ∧ w.signal = fires

theorem World.settledUnder_fresh : (World.fresh files env).SettledUnder scripts files env fun _ => false :=
  ⟨World.settled_fresh, rfl⟩

theorem World.SettledUnder.of_samples (w : World) (samples : List Sample)
    (h : w.SettledUnder scripts files env fires) :
    { w with samples := samples }.SettledUnder scripts files env fires :=
  ⟨World.Settled.of_samples w samples h.1, h.2⟩

theorem Act.Gives.under {α : Type} {a : Act α} {v : α} (h : Gives (World.Settled scripts files env) a v)
    (hblind : Blind a) : Gives (World.SettledUnder scripts files env fires) a v := by
  rintro w ⟨hsettled, hsignal⟩
  obtain ⟨hv, hok⟩ := h w hsettled
  exact ⟨hv, hok, (hblind.signal w).trans hsignal⟩

/-! ## The first match in lines -/

/-- the first match in lines, if `verdict` is what a chain gives -/
def firstMatch (verdict : String → MatchResult) : List ReadLine → MatchResult
  | [] => .error (.unmatched "no line matched")
  | line :: rest =>
    match line.error with
    | some e => .error (.stream e)
    | none =>
      match verdict line.text with
      | .ok found => .ok found
      | .error e =>
        if e.isUnmatched then firstMatch verdict rest else .error (e.within ("line " ++ toString line.number))

/-- the result of a scan that the signal cut short -/
def IsCutResult (r : MatchResult) : Prop := ∃ e, r = .error e ∧ e.isCancelled = true

/-- **Lines that are cut short** have the same first match, or the result shows that they were cut. -/
theorem firstMatch_cut (verdict : String → MatchResult) {full found : List ReadLine}
    (h : Move.Cut ReadLine.IsCut full found) :
    firstMatch verdict found = firstMatch verdict full ∨ IsCutResult (firstMatch verdict found) := by
  obtain ⟨before, last, rfl, hprefix, hlast⟩ := h
  induction before generalizing full with
  | nil =>
    refine .inr ⟨.stream .cancelled, ?_, rfl⟩
    rw [List.nil_append, firstMatch, hlast]
  | cons line rest ih =>
    obtain ⟨more, rfl⟩ := hprefix
    simp only [List.cons_append, firstMatch]
    cases line.error with
    | some e => exact .inl rfl
    | none =>
      cases verdict line.text with
      | ok found => exact .inl rfl
      | error e =>
        simp only
        split
        · exact ih ⟨more, rfl⟩
        · exact .inl rfl

theorem firstMatch_uncut {verdict : String → MatchResult} (hverdict : ∀ text, Uncut (verdict text))
    {lines : List ReadLine} (h : ∀ l ∈ lines, l.error ≠ some .cancelled) : Uncut (firstMatch verdict lines) := by
  induction lines with
  | nil => exact uncut_error rfl
  | cons line rest ih =>
    simp only [firstMatch]
    cases herror : line.error with
    | some e =>
      refine uncut_error ?_
      cases e with
      | cancelled => exact absurd herror (h line List.mem_cons_self)
      | read e => rfl
      | ignore path message => rfl
    | none =>
      cases hv : verdict line.text with
      | ok found => exact uncut_ok _
      | error e =>
        simp only
        split
        · exact ih fun l hl => h l (List.mem_cons_of_mem _ hl)
        · exact uncut_error ((e.isCancelled_within _).trans (hverdict line.text e hv))

/-- a reader's own items never show the signal -/
theorem Source.items_uncut (s : Source) {l : ReadLine} (h : l ∈ Move.items s.moves) : l.error ≠ some .cancelled := by
  have hfrom : ∀ (lines : List Utf8.Bytes) (delivered : Nat), l ∈ Move.items (readFrom s.failure delivered lines) →
      l.error ≠ some .cancelled := by
    intro lines
    induction lines with
    | nil =>
      intro delivered h
      cases hf : s.failure with
      | none => rw [hf] at h; exact absurd h List.not_mem_nil
      | some e =>
        rw [hf] at h
        rw [List.mem_singleton.1 h]
        exact nofun
    | cons line rest ih =>
      intro delivered h
      rcases List.mem_cons.1 h with rfl | h
      · exact nofun
      · exact ih _ h
  exact hfrom _ _ h

/-! ## Category rules -/

/-- the lines of a file at a path are read, or it has none -/
def scanned (verdict : String → MatchResult) (files : FileNode) (path : String) : MatchResult :=
  match files.openFile path with
  | .error e => .error (.unmatched ("cannot open: " ++ e.message))
  | .ok source => firstMatch verdict (Move.items source.moves)

/-- the signal goes up at some look -/
def Rises (fires : Nat → Bool) : Prop := ∃ n, fires n = true

namespace CategorySelector

theorem firstMatch_gives {Ok : World → Prop} {c : Chain} {verdict : String → MatchResult}
    (h : ∀ text, Gives Ok (c.run text) (verdict text)) (lines : List ReadLine) :
    Gives Ok (firstMatch c lines) (Gleaner.firstMatch verdict lines) := by
  induction lines with
  | nil => exact Gives.pure _
  | cons line rest ih =>
    unfold firstMatch Gleaner.firstMatch
    cases line.error with
    | some e => exact Gives.pure _
    | none =>
      refine (h line.text).bind ?_
      cases verdict line.text with
      | ok found => exact Gives.pure _
      | error e =>
        simp only
        split
        · exact ih
        · exact Gives.pure _

theorem scanFile_settles {c : Chain} {verdict : String → MatchResult}
    (h : ∀ text, Gives (World.SettledUnder scripts files env fires) (c.run text) (verdict text)) (path : String) :
    Settles (World.SettledUnder scripts files env fires) (scanFile c path) (scanned verdict files path)
      fun r => Rises fires ∧ IsCutResult r := by
  intro w hw
  unfold scanFile scanned
  rw [Act.bind_run, Act.get_run]
  simp only [hw.1.files_eq]
  cases files.openFile path with
  | error e => exact ⟨.inl rfl, hw.1.of_subset hw.1.files_eq rfl (List.Subset.refl _), hw.2⟩
  | ok source =>
    have hread : (Act.readLines source w).2.SettledUnder scripts files env fires :=
      ⟨hw.1.of_subset hw.1.files_eq rfl (List.Subset.refl _), hw.2⟩
    obtain ⟨hresult, hok⟩ := firstMatch_gives h (Act.readLines source w).1 _ hread
    refine ⟨?_, hok⟩
    change (firstMatch c (Act.readLines source w).1 (Act.readLines source w).2).1 = _ ∨ _ ∧
      IsCutResult (firstMatch c (Act.readLines source w).1 (Act.readLines source w).2).1
    have hitems : (Act.readLines source w).1 = (Move.run fires w.looks source.moves).1 := by
      rw [← hw.2]
      exact readLines_eq_run source w.signal w.looks
    rw [hresult, hitems]
    rcases Move.run_cut (readFrom_heeds _ _ _) fires w.looks with hfull | ⟨hrises, hcut⟩
    · exact .inl (congrArg _ hfull)
    · exact (firstMatch_cut verdict hcut).imp_right fun h => ⟨hrises, h⟩

/-- what a rule gives, if `verdict` is what its chain gives -/
def outcome (verdict : String → MatchResult) (files : FileNode) (s : CategorySelector) (path : String) : MatchResult :=
  let what := match s.mode with
    | .filename => "file category "
    | .text => "text category "
  Selection.located [what ++ path, labelled "category" s.name] <|
    match s.mode with
    | .filename => verdict path
    | .text => scanned verdict files path

end CategorySelector

theorem IsCutResult.located {r : MatchResult} (h : IsCutResult r) (places : List String) :
    IsCutResult (Selection.located places r) := by
  obtain ⟨e, rfl, he⟩ := h
  exact ⟨places.foldl MatchError.within e, rfl, (e.isCancelled_foldl_within places).trans he⟩

theorem Uncut.located {r : MatchResult} (h : Uncut r) (places : List String) :
    Uncut (Selection.located places r) := by
  cases r with
  | ok found => exact uncut_ok _
  | error e => exact uncut_error ((e.isCancelled_foldl_within places).trans (h e rfl))

namespace CategorySelector

/-- **What a category rule gives**, or the sign that the signal cut it short. -/
theorem select_settles {s : CategorySelector} {verdict : String → MatchResult}
    (h : ∀ text, Gives (World.SettledUnder scripts files env fires) (s.chain.run text) (verdict text)) (path : String) :
    Settles (World.SettledUnder scripts files env fires) (s.select path) (s.outcome verdict files path)
      fun r => Rises fires ∧ IsCutResult r := by
  have hfound : Settles (World.SettledUnder scripts files env fires)
      (match s.mode with | .filename => s.chain.run path | .text => scanFile s.chain path)
      (match s.mode with | .filename => verdict path | .text => scanned verdict files path)
      fun r => Rises fires ∧ IsCutResult r := by
    cases s.mode with
    | filename => exact (h path).settles _
    | text => exact scanFile_settles h path
  exact (hfound.measure World.SettledUnder.of_samples _).map _ fun r hr => ⟨hr.1, hr.2.located _⟩

theorem outcome_uncut {verdict : String → MatchResult} (hverdict : ∀ text, Uncut (verdict text)) (s : CategorySelector)
    (path : String) : Uncut (s.outcome verdict files path) := by
  refine Uncut.located ?_ _
  cases s.mode with
  | filename => exact hverdict path
  | text =>
    simp only [scanned]
    cases files.openFile path with
    | error e => exact uncut_error rfl
    | ok source => exact firstMatch_uncut hverdict fun l hl => source.items_uncut hl

/-- what a rule gives in a fresh world -/
def value (files : FileNode) (env : Environment) (s : CategorySelector) (path : String) : MatchResult :=
  (s.select path (World.fresh files env)).1

end CategorySelector

section

variable {keys : String → Prop} {P : ∀ {α : Type}, Act α → Prop} (hP : Seeing keys P)

include hP

namespace CategorySelector

theorem firstMatch_closed {c : Chain} (h : ∀ text, P (c.run text)) (lines : List ReadLine) : P (firstMatch c lines) := by
  induction lines with
  | nil => exact hP.pure _
  | cons line rest ih =>
    unfold firstMatch
    cases line.error with
    | some e => exact hP.pure _
    | none =>
      refine hP.bind (h line.text) fun r => ?_
      cases r with
      | ok found => exact hP.pure _
      | error e =>
        simp only
        split
        · exact ih
        · exact hP.pure _

theorem scanFile_closed {c : Chain} (h : ∀ text, P (c.run text)) (path : String) : P (scanFile c path) := by
  refine hP.get (fun w w' hw => by rw [hw]) fun w => ?_
  cases w.files.openFile path with
  | error e => exact hP.bind (hP.warn _) fun _ => hP.pure _
  | ok source => exact hP.bind (hP.readLines source) fun lines => firstMatch_closed hP h lines

/-- what a category rule measures, besides -/
theorem measured_closed {s : CategorySelector} (h : ∀ text, P (s.chain.run text)) (path : String) :
    P (match s.mode with
      | .filename => s.chain.run path
      | .text => scanFile s.chain path) := by
  cases s.mode with
  | filename => exact h path
  | text => exact scanFile_closed hP h path

theorem select_closed {s : CategorySelector} (hkey : keys ("named-category-selector-" ++ s.name))
    (h : ∀ text, P (s.chain.run text)) (path : String) : P (s.select path) :=
  hP.bind (hP.measure hkey (measured_closed hP h path)) fun _ => hP.pure _

end CategorySelector

end

/-! ## Lists of rules -/

namespace Selection

/-- the entries of rules that give `value`, the first of them being number `i` -/
def gather {α : Type} (name : α → String) (value : α → MatchResult) : Nat → List α → List Selection
  | _, [] => []
  | i, rule :: rest => expand i (name rule) (value rule) ++ gather name value (i + 1) rest

theorem expand_cut {r : MatchResult} (h : IsCutResult r) (i : Nat) (name : String) :
    (expand i name r).any isCancelled = true := by
  obtain ⟨e, rfl, he⟩ := h
  simp [expand, isCancelled, SelectionError.of, he]

theorem expand_uncut {r : MatchResult} (h : Uncut r) (i : Nat) (name : String) :
    (expand i name r).any isCancelled = false := by
  cases r with
  | ok found => simp [expand, isCancelled]
  | error e => simp [expand, isCancelled, SelectionError.of, h e rfl]

theorem gather_uncut {α : Type} {name : α → String} {value : α → MatchResult} {rules : List α}
    (h : ∀ rule ∈ rules, Uncut (value rule)) (i : Nat) : (gather name value i rules).any isCancelled = false := by
  induction rules generalizing i with
  | nil => rfl
  | cons rule rest ih =>
    rw [gather, List.any_append, expand_uncut (h rule List.mem_cons_self),
      ih fun r hr => h r (List.mem_cons_of_mem _ hr)]
    rfl

/-- **The entries of rules** are those of what the rules give, or show that one was cut short. -/
theorem selectAll_settles {α : Type} {Ok : World → Prop} {up : Prop} {name : α → String} {select : α → Act MatchResult}
    {value : α → MatchResult} {rules : List α}
    (h : ∀ rule ∈ rules, Settles Ok (select rule) (value rule) fun r => up ∧ IsCutResult r) (i : Nat) :
    Settles Ok (selectAll name select i rules) (gather name value i rules)
      fun found => up ∧ found.any isCancelled = true := by
  induction rules generalizing i with
  | nil => exact (Gives.pure _).settles _
  | cons rule rest ih =>
    intro w hw
    obtain ⟨hfirst, hok⟩ := h rule List.mem_cons_self w hw
    obtain ⟨hothers, hend⟩ := ih (fun r hr => h r (List.mem_cons_of_mem _ hr)) (i + 1) _ hok
    refine ⟨?_, hend⟩
    change expand i (name rule) (select rule w).1 ++ (selectAll name select (i + 1) rest (select rule w).2).1 = _ ∨
      up ∧ (expand i (name rule) (select rule w).1 ++
        (selectAll name select (i + 1) rest (select rule w).2).1).any isCancelled = true
    rw [List.any_append, Bool.or_eq_true]
    rcases hfirst with hfirst | ⟨hup, hcut⟩
    · rcases hothers with hothers | ⟨hup, hcut⟩
      · exact .inl (by rw [hfirst, hothers, gather])
      · exact .inr ⟨hup, .inr hcut⟩
    · exact .inr ⟨hup, .inl (expand_cut hcut i (name rule))⟩

end Selection

/-! ## Node rules and normalizers -/

section

variable {keys : String → Prop} {P : ∀ {α : Type}, Act α → Prop} (hP : Closed keys P)

include hP

theorem Selection.selectAll_closed {α : Type} {name : α → String} {select : α → Act MatchResult} {rules : List α}
    (h : ∀ rule ∈ rules, P (select rule)) (i : Nat) : P (selectAll name select i rules) := by
  induction rules generalizing i with
  | nil => exact hP.pure _
  | cons rule rest ih =>
    refine hP.bind (h rule List.mem_cons_self) fun r => hP.bind ?_ fun _ => hP.pure _
    exact ih (fun rule hrule => h rule (List.mem_cons_of_mem _ hrule)) (i + 1)

theorem NodeSelector.select_closed {s : NodeSelector} (hkey : keys ("named-node-selector-" ++ s.name))
    (h : ∀ input, P (s.chain.run input)) (category content : String) : P (s.select category content) := by
  refine hP.bind (hP.measure hkey ?_) fun found => hP.pure _
  split
  · exact hP.bind (h content) fun found => hP.pure _
  · exact hP.pure _

theorem Normalizer.run_closed {n : Normalizer} (hnormalizer : keys ("named-normalizer-" ++ n.name))
    (hmatcher : keys ("named-matcher-" ++ n.name)) {input : String} (h : P (n.chain.run input)) : P (n.run input) :=
  hP.measure hnormalizer (hP.bind (hP.measure hmatcher h) fun _ => hP.pure _)

theorem normalizeFrom_closed {input : String} {rules : List Normalizer} (h : ∀ n ∈ rules, P (n.run input)) (i : Nat) :
    P (normalizeFrom input i rules) := by
  induction rules generalizing i with
  | nil => exact hP.pure _
  | cons n rest ih =>
    refine hP.bind (h n List.mem_cons_self) fun r => ?_
    cases r with
    | ok found => exact hP.pure _
    | error e =>
      simp only
      split
      · exact ih (fun n hn => h n (List.mem_cons_of_mem _ hn)) (i + 1)
      · exact hP.pure _

end

namespace NodeSelector

/-- what a rule gives in a fresh world -/
def value (files : FileNode) (env : Environment) (s : NodeSelector) (category content : String) : MatchResult :=
  (s.select category content (World.fresh files env)).1

/-- **What a node rule gives.** -/
theorem select_gives {s : NodeSelector}
    (h : ∀ text, Steady (World.Settled scripts files env) (s.chain.run text)) (category content : String) :
    Gives (World.Settled scripts files env) (s.select category content) (s.value files env category content) :=
  Steady.gives (select_closed (.steady World.Settled.of_samples) trivial h category content) World.settled_fresh

end NodeSelector

/-- **The nodes in a line.** -/
theorem selectNodes_gives {rules : List NodeSelector}
    (h : ∀ rule ∈ rules, ∀ text, Steady (World.Settled scripts files env) (rule.chain.run text))
    (category content : String) :
    Gives (World.Settled scripts files env) (selectNodes rules category content)
      (Selection.gather NodeSelector.name (fun rule => rule.value files env category content) 0 rules) := by
  have hrules : ∀ rule ∈ rules, Settles (World.Settled scripts files env) (rule.select category content)
      (rule.value files env category content) fun r => False ∧ IsCutResult r :=
    fun rule hrule => (rule.select_gives (h rule hrule) category content).settles _
  intro w hw
  obtain ⟨hresult, hok⟩ := Selection.selectAll_settles hrules 0 w hw
  exact ⟨hresult.resolve_right fun h => h.1, hok⟩

/-- what a text is rewritten to in a fresh world -/
def rewritten (files : FileNode) (env : Environment) (rules : List Normalizer) (input : String) :
    Except MatchError (List Normalized) :=
  (normalize rules input (World.fresh files env)).1

/-- **What a text is rewritten to.** -/
theorem normalize_gives {rules : List Normalizer}
    (h : ∀ rule ∈ rules, ∀ text, Steady (World.Settled scripts files env) (rule.chain.run text)) (input : String) :
    Gives (World.Settled scripts files env) (normalize rules input) (rewritten files env rules input) :=
  Steady.gives (normalizeFrom_closed (.steady World.Settled.of_samples)
    (fun n hn => Normalizer.run_closed (.steady World.Settled.of_samples) trivial trivial (h n hn input)) 0)
    World.settled_fresh

theorem normalizeFrom_blind (input : String) (i : Nat) (rules : List Normalizer) :
    Blind (normalizeFrom input i rules) :=
  normalizeFrom_closed .blind (fun n _ => Normalizer.run_closed .blind trivial trivial (n.chain.run_blind input)) i

theorem NodeSelector.select_blind (s : NodeSelector) (category content : String) :
    Blind (s.select category content) := select_closed .blind trivial s.chain.run_blind category content

theorem selectNodes_blind (rules : List NodeSelector) (category content : String) :
    Blind (selectNodes rules category content) :=
  Selection.selectAll_closed .blind (fun rule _ => rule.select_blind category content) 0

end Gleaner
