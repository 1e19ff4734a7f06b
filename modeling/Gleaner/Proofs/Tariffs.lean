/-
What successful runs ask.

Let every question have a charge that depends on its answer (`Tariff`). A tariff is balanced if the answers to questions
pay for what they lead to: the lines of a walk for asking for their categories, the outputs of category rules for their
rewriting, and the rewritten texts for looking for nodes. The charges of a successful run add up to nothing then
(`Pipeline.traced_settled`), whatever rules there are. What is read off the questions can be charged for against what is
read off the answers that lead to them, so the one is a permutation of the other (`Settled.paths_perm`,
`Settled.labels_perm`).

Beside that the workspaces of the questions come one from another (`Asked`): between two questions nothing is measured
and no categories are kept.

Results:
- `Traced.Books.bind`, `Traced.Books.forIn`: parts of a run one after the other, and loops;
- `Pipeline.traced_settled`: whole runs;
- `Settled.paths_perm`, `Settled.labels_perm`, `Settled.lookups_eq`, `Settled.uncut`: what is asked for what.
-/
import Gleaner.Proofs.Asking
import Gleaner.Proofs.Plays
import Gleaner.Proofs.Weights
import Mathlib.Tactic.Ring

namespace Gleaner

/-! ## Questions one after the other -/

/-- nothing is measured, and the same categories are kept -/
structure Workspace.Same (ws ws' : Workspace) : Prop where
  samples : ws'.world.samples = ws.world.samples
  categories : ws'.categories = ws.categories

theorem Workspace.Same.refl (ws : Workspace) : ws.Same ws := ⟨rfl, rfl⟩

theorem Workspace.Same.trans {ws ws' ws'' : Workspace} (h : ws.Same ws') (h' : ws'.Same ws'') : ws.Same ws'' :=
  ⟨h'.samples.trans h.samples, h'.categories.trans h.categories⟩

/-- the questions that are asked from one workspace to another, each with the workspace in which it is asked -/
inductive Asked (p : Pipeline) : Workspace → List (Question × Workspace) → Workspace → Prop where
  | nil {ws ws' : Workspace} (h : ws.Same ws') : Asked p ws [] ws'
  | cons {ws ws₁ ws' : Workspace} {q : Question} {rest : List (Question × Workspace)} (h : ws.Same ws₁)
      (hrest : Asked p (q.answer p ws₁).2 rest ws') : Asked p ws ((q, ws₁) :: rest) ws'

namespace Asked

variable {p : Pipeline} {ws ws' ws'' : Workspace} {xs ys : List (Question × Workspace)}

theorem behind (h : ws.Same ws') (hasked : Asked p ws' xs ws'') : Asked p ws xs ws'' := by
  cases hasked with
  | nil h' => exact .nil (h.trans h')
  | cons h' hrest => exact .cons (h.trans h') hrest

theorem trans (h : Asked p ws xs ws') (h' : Asked p ws' ys ws'') : Asked p ws (xs ++ ys) ws'' := by
  induction h with
  | nil hsame => exact h'.behind hsame
  | cons hsame _ ih => exact .cons hsame (ih h')

end Asked

/-! ## Charges -/

/-- what is charged for each question, with its answer -/
abbrev Tariff := (q : Question) → q.Answer → ℤ

/-- what is charged for some questions together -/
def toll (p : Pipeline) (τ : Tariff) (asks : List (Question × Workspace)) : ℤ :=
  (asks.map fun x => τ x.1 (x.1.answer p x.2).1).sum

theorem toll_append (p : Pipeline) (τ : Tariff) (xs ys : List (Question × Workspace)) :
    toll p τ (xs ++ ys) = toll p τ xs + toll p τ ys := by
  rw [toll, List.map_append, List.sum_append]
  rfl

/-- the texts that are among entries -/
def Selection.texts (found : List Selection) : List String := found.filterMap fun s => s.outcome.toOption

theorem Selection.sum_texts (μ : String → ℤ) (found : List Selection) :
    (found.map fun s => (s.outcome.toOption.map μ).getD 0).sum = ((texts found).map μ).sum := by
  induction found with
  | nil => rfl
  | cons s rest ih =>
    rw [List.map_cons, List.sum_cons, ih]
    cases htext : s.outcome.toOption <;> simp [texts, htext]

/-- answers pay for what they lead to: `γ` is what a line with a path costs, `μ` an output of a category rule and `ν`
a rewritten text -/
structure Tariff.Balanced (τ : Tariff) (γ μ : String → ℤ) (ν : ℤ) : Prop where
  walk : ∀ root (lines : List FileLine), τ (.walk root) lines + (lines.map fun l => γ l.path).sum = 0
  categories : ∀ path (found : List Selection), found.any Selection.isCancelled = false →
    τ (.categories path) found + ((Selection.texts found).map μ).sum = γ path
  rewriteLabel : ∀ label (texts : List Normalized), τ (.rewriteLabel label) (.ok texts) + texts.length * ν = μ label
  nodes : ∀ category content found, τ (.nodes category content) found = ν
  rewriteValue : ∀ value found, τ (.rewriteValue value) found = 0

namespace Traced

variable {α β : Type} {p : Pipeline} {τ : Tariff} {K : α → ℤ → Prop} {M : β → ℤ → Prop}

/-- a part of a run that gives something has been charged accordingly -/
def Books (p : Pipeline) (τ : Tariff) (t : Traced α) (K : α → ℤ → Prop) : Prop :=
  ∀ s a, (t.part.run s).1 = .ok a →
    Asked p s.workspace (t.asks s) (t.part.run s).2.workspace ∧ K a (toll p τ (t.asks s))

/-- a part of a run that costs nothing -/
abbrev Free (p : Pipeline) (τ : Tariff) (t : Traced α) : Prop := Books p τ t fun _ k => k = 0

namespace Books

/-- **Parts one after the other** -/
theorem bind {t : Traced α} {f : α → Traced β} (h : Books p τ t K)
    (hf : ∀ a k, K a k → Books p τ (f a) fun b l => M b (k + l)) : Books p τ (t >>= f) M := by
  intro s b hok
  obtain ⟨a, s₁, hrun, hok⟩ := exists_of_bind hok
  have hfirst := h s a (by rw [hrun])
  rw [hrun] at hfirst
  have hrest := hf a _ hfirst.2 s₁ b hok
  have hboth : (t >>= f).part.run s = (f a).part.run s₁ := bind_run hrun
  rw [bind_asks hrun, toll_append, hboth]
  exact ⟨hfirst.1.trans hrest.1, hrest.2⟩

/-- behind a part that costs nothing -/
theorem free_bind {t : Traced α} {f : α → Traced β} (h : Free p τ t) (hf : ∀ a, Books p τ (f a) M) :
    Books p τ (t >>= f) M := h.bind fun a k hk => by
  obtain rfl := hk
  simpa using hf a

theorem mono {t : Traced α} {K' : α → ℤ → Prop} (h : Books p τ t K) (hK : ∀ a k, K a k → K' a k) : Books p τ t K' :=
  fun s a hok => ⟨(h s a hok).1, hK _ _ (h s a hok).2⟩

theorem pure {a : α} (h : K a 0) : Books p τ (Pure.pure a) K := fun s b hok => by
  cases hok
  exact ⟨.nil (.refl _), h⟩

/-- a part that fails need not be paid for -/
theorem fail (e : RunError) : Books p τ (.quiet (throw e) : Traced α) K := fun _ _ hok => nomatch hok

/-- a part that asks nothing -/
theorem quiet {m : Run α} (h : ∀ s : RunState, s.workspace.Same (m.run s).2.workspace) : Free p τ (.quiet m) :=
  fun s _ _ => ⟨.nil (h s), rfl⟩

theorem ask (q : Question) : Books p τ (.ask p q) fun a k => k = τ q a := by
  intro s a hok
  obtain rfl : (q.answer p s.workspace).1 = a := Except.ok.inj hok
  refine ⟨.cons (.refl _) (.nil (.refl _)), ?_⟩
  change (τ q _ + 0 : ℤ) = _
  rw [add_zero]

theorem forIn {l : List α} {body : α → PUnit → Traced (ForInStep PUnit)} (share : α → ℤ)
    (h : ∀ x, Books p τ (body x ⟨⟩) fun r k => r = .yield ⟨⟩ ∧ k = share x) :
    Books p τ (ForIn.forIn l ⟨⟩ body) fun _ k => k = (l.map share).sum := by
  induction l with
  | nil => exact pure rfl
  | cons x rest ih =>
    rw [List.forIn_cons]
    refine (h x).bind fun step k hstep => ?_
    obtain ⟨rfl, rfl⟩ := hstep
    refine ih.mono fun _ l hl => ?_
    rw [List.map_cons, List.sum_cons, hl]

/-- a loop all of whose rounds cost the same -/
theorem each {l : List α} {body : α → PUnit → Traced (ForInStep PUnit)} (k : ℤ)
    (h : ∀ x, Books p τ (body x ⟨⟩) fun r l => r = .yield ⟨⟩ ∧ l = k) :
    Books p τ (ForIn.forIn l ⟨⟩ body) fun _ m => m = l.length * k :=
  (forIn (fun _ => k) h).mono fun _ m hm => by
    rw [hm, List.map_const', List.sum_replicate, nsmul_eq_mul]

/-- what is done in each round of a loop -/
theorem round {t : Traced PUnit} {k : ℤ} (h : Books p τ t fun _ l => l = k) :
    Books p τ (t >>= fun _ => Pure.pure (ForInStep.yield PUnit.unit)) fun r l => r = .yield ⟨⟩ ∧ l = k :=
  h.bind fun _ _ hl => pure ⟨rfl, by rw [hl, add_zero]⟩

theorem checkSignal : Free p τ (.quiet Run.checkSignal) := by
  unfold Run.checkSignal
  rw [quiet_bind]
  refine free_bind (quiet fun s => ⟨rfl, rfl⟩) fun up => ?_
  cases up with
  | true => exact fail _
  | false => exact pure rfl

theorem count (add : Summary → Summary) : Free p τ (.quiet (Run.count add)) := quiet fun _ => ⟨rfl, rfl⟩

theorem writeRecord (r : Record) : Free p τ (.quiet (Pipeline.writeRecord r)) := .quiet fun s => by
  rw [writeRecord_keeps r s]
  exact .refl _

/-- a part that may be left out, and fails if it is not -/
theorem guard {c : Bool} {e : RunError} {f : PUnit → Traced β} (h : c = false → Books p τ (f ⟨⟩) M) :
    Books p τ (if c then .quiet (throw e) >>= f else f ⟨⟩) M := by
  cases c with
  | true => exact (fail e : Books p τ _ fun _ _ => False).bind fun _ _ hfalse => hfalse.elim
  | false => exact h rfl

/-- going through an entry of a rule -/
theorem entry {stage : String} {line : FileLine} {s : Selection} {k : Option String → Traced β}
    (hnone : s.outcome.toOption = none → Books p τ (k none) M)
    (hsome : ∀ text, s.outcome.toOption = some text → Books p τ (k (some text)) M) :
    Books p τ (.quiet (Pipeline.selected? stage line s) >>= k) M := by
  unfold Pipeline.selected?
  cases houtcome : s.outcome with
  | ok text => exact hsome text (by rw [houtcome]; rfl)
  | error e =>
    simp only
    split
    · exact hnone (by rw [houtcome]; rfl)
    · exact (fail _ : Books p τ _ fun _ _ => False).bind fun _ _ hfalse => hfalse.elim

/-- rewritten texts -/
theorem texts {stage : String} {line : FileLine} {answer : Traced (Except MatchError (List Normalized))}
    {K : Except MatchError (List Normalized) → ℤ → Prop} (h : Books p τ answer K) :
    Books p τ (Pipeline.tracedTexts stage line answer) fun found k => K (.ok found) k := by
  refine h.bind fun found k hk => ?_
  cases found with
  | ok texts => exact pure (by rw [add_zero]; exact hk)
  | error e => exact fail _

end Books

end Traced

/-! ## Runs -/

namespace Pipeline

open Traced (Books Free)

variable (p : Pipeline) {τ : Tariff} {γ μ : String → ℤ} {ν : ℤ} (root : ReadLine)

/-- **Looking for nodes** costs what a rewritten text costs. -/
theorem tracedNodes_books (hτ : τ.Balanced γ μ ν) (line : FileLine) (category : Selected) :
    Books p τ (p.tracedNodes root line category) fun _ k => k = ν := by
  unfold tracedNodes
  refine (Books.ask _).bind fun nodes k hk => ?_
  refine (Books.each 0 fun node => ?_).bind fun _ l hl => .pure ?_
  · refine .entry (fun _ => .pure ⟨rfl, rfl⟩) fun value _ => ?_
    refine .free_bind ((Books.texts (.ask (.rewriteValue value))).mono fun texts k hk => ?_) fun texts => ?_
    · exact hk.trans (hτ.rewriteValue value _)
    · refine .round ((Books.each 0 fun n => .round (.writeRecord _)).mono fun _ l hl => ?_)
      rw [hl, mul_zero]
  · rw [hk, hl, hτ.nodes, mul_zero, add_zero, add_zero]

theorem tracedLine_books (hτ : τ.Balanced γ μ ν) (hfull : p.categoryOnly = false) (line : FileLine) :
    Books p τ (p.tracedLine root line) fun _ k => k = γ line.path := by
  unfold tracedLine
  refine (Books.ask _).bind fun found k hk => ?_
  refine .guard fun huncut => ?_
  refine (Books.forIn (fun s : Selection => (s.outcome.toOption.map μ).getD 0) fun category => ?_).bind
    fun _ l hl => .pure ?_
  · refine .entry (fun hnone => .pure ⟨rfl, by rw [hnone]; rfl⟩) fun label hlabel => ?_
    refine (Books.texts (.ask (.rewriteLabel label))).bind fun texts k hk => ?_
    simp only [hfull, if_false, Bool.false_eq_true]
    refine (Books.round (Books.each ν fun n => .round ?_)).mono fun r l hl => ⟨hl.1, ?_⟩
    · exact p.tracedNodes_books root hτ line ⟨category, n⟩
    · rw [hlabel, hl.2, hk]
      exact hτ.rewriteLabel label texts
  · rw [hk, hl, Selection.sum_texts, add_zero]
    exact hτ.categories line.path found huncut

theorem tracedLines_books (hτ : τ.Balanced γ μ ν) (hfull : p.categoryOnly = false) (lines : List FileLine) :
    Books p τ (p.tracedLines root lines) fun _ k => k = (lines.map fun l => γ l.path).sum := by
  induction lines with
  | nil => exact .checkSignal
  | cons line rest ih =>
    unfold tracedLines
    refine .free_bind .checkSignal fun _ => ?_
    cases line.error with
    | some e => exact .fail _
    | none =>
      refine .free_bind (.count _) fun _ => ?_
      refine (p.tracedLine_books root hτ hfull line).bind fun _ k hk => ?_
      refine ih.mono fun _ l hl => ?_
      rw [List.map_cons, List.sum_cons, hk, hl]

theorem tracedRoots_books (hτ : τ.Balanced γ μ ν) (hfull : p.categoryOnly = false) (roots : List ReadLine) :
    Free p τ (p.tracedRoots roots) := by
  induction roots with
  | nil => exact .checkSignal
  | cons root rest ih =>
    unfold tracedRoots
    refine .free_bind .checkSignal fun _ => ?_
    cases root.error with
    | some e => exact .fail _
    | none =>
      simp only
      cases Text.isBlank root.text with
      | true => exact ih
      | false =>
        refine .free_bind (.free_bind (.count _) fun _ => ?_) fun _ => ih
        refine (Books.ask (.walk root.text)).bind fun lines k hk => ?_
        refine (p.tracedLines_books root hτ hfull lines).mono fun _ l hl => ?_
        rw [hk, hl]
        exact hτ.walk root.text lines

theorem traced_books (hτ : τ.Balanced γ μ ν) (hfull : p.categoryOnly = false) (input : Source) :
    Free p τ (p.traced input) := by
  unfold traced
  refine .free_bind (.quiet fun _ => ⟨rfl, rfl⟩) fun roots => ?_
  refine .free_bind (p.tracedRoots_books hτ hfull roots) fun _ => ?_
  exact .free_bind (.quiet fun _ => ⟨rfl, rfl⟩) fun _ => .pure rfl

end Pipeline

/-! ## What is asked for what -/

/-- with any balanced tariff some questions have been charged nothing, all in all -/
def Settled (p : Pipeline) (asks : List (Question × Workspace)) : Prop :=
  ∀ (τ : Tariff) (γ μ : String → ℤ) (ν : ℤ), τ.Balanced γ μ ν → toll p τ asks = 0

/-- **A run that succeeds** is settled, and its questions come one from another. -/
theorem Pipeline.traced_settled {p : Pipeline} (hfull : p.categoryOnly = false) {input : Source} {s : RunState}
    {summary : Summary} (hok : ((p.run input).run s).1 = .ok summary) :
    Settled p ((p.traced input).asks s) ∧
      Asked p s.workspace ((p.traced input).asks s) ((p.run input).run s).2.workspace := by
  rw [← traced_part] at hok ⊢
  -- a tariff without charges is balanced
  have hnothing : Tariff.Balanced (fun _ _ => 0) (fun _ => 0) (fun _ => 0) 0 := by
    constructor <;> intros <;> simp
  refine ⟨fun τ γ μ ν hτ => (p.traced_books hτ hfull input s summary hok).2, ?_⟩
  exact (p.traced_books hnothing hfull input s summary hok).1

/-- what is read off a question with its answer -/
abbrev Reading (α : Type) := (q : Question) → q.Answer → List α

/-- what is read off some questions, in order -/
def readings {α : Type} (p : Pipeline) (read : Reading α) (asks : List (Question × Workspace)) : List α :=
  asks.flatMap fun x => read x.1 (x.1.answer p x.2).1

namespace Question

/-- the path of which the categories are asked for -/
def paths : Reading String
  | .categories path, _ => [path]
  | _, _ => []

/-- the paths of the lines of a walk, one for every line -/
def linePaths : Reading String
  | .walk _, lines => (lines : List FileLine).map (·.path)
  | _, _ => []

/-- the outputs of category rules -/
def outputs : Reading String
  | .categories _, found => Selection.texts found
  | _, _ => []

/-- the label that is to be rewritten -/
def labels : Reading String
  | .rewriteLabel label, _ => [label]
  | _, _ => []

/-- the texts that a label is rewritten to, each with the label -/
def combinations : Reading (String × Normalized)
  | .rewriteLabel label, found => (found.toOption.getD []).map (label, ·)
  | _, _ => []

/-- one for looking for nodes -/
def lookups : Reading Unit
  | .nodes _ _, _ => [()]
  | _, _ => []

/-- one for categories that the signal has cut short -/
def cuts : Reading Unit
  | .categories _, found => if found.any Selection.isCancelled then [()] else []
  | _, _ => []

end Question

namespace Reading

variable {α β : Type}

/-- the one reading is charged for, and the other is paid for -/
def tariff (read : Reading α) (f : α → ℤ) (read' : Reading β) (g : β → ℤ) : Tariff := fun q a =>
  ((read q a).map f).sum - ((read' q a).map g).sum

theorem toll_tariff (p : Pipeline) (read : Reading α) (f : α → ℤ) (read' : Reading β) (g : β → ℤ)
    (asks : List (Question × Workspace)) : toll p (read.tariff f read' g) asks =
      ((readings p read asks).map f).sum - ((readings p read' asks).map g).sum := by
  induction asks with
  | nil => rfl
  | cons x rest ih =>
    have hfirst : toll p (read.tariff f read' g) (x :: rest) =
        read.tariff f read' g x.1 (x.1.answer p x.2).1 + toll p (read.tariff f read' g) rest := by
      rw [toll, List.map_cons, List.sum_cons]
      rfl
    simp only [hfirst, ih, tariff, readings, List.flatMap_cons, List.map_append, List.sum_append]
    ring

end Reading

/-- lists over which all sums are the same hold the same -/
theorem perm_of_sums {α : Type} [DecidableEq α] {xs ys : List α}
    (h : ∀ f : α → ℤ, (xs.map f).sum = (ys.map f).sum) : xs.Perm ys := by
  refine List.perm_iff_count.2 fun x => ?_
  have hx := h fun y => if y = x then 1 else 0
  rw [sum_map_ite, sum_map_ite] at hx
  simpa [List.count, beq_eq_decide] using hx

namespace Settled

open Question

variable {p : Pipeline} {asks more : List (Question × Workspace)}

theorem append (h : Settled p asks) (h' : Settled p more) : Settled p (asks ++ more) := fun τ γ μ ν hτ => by
  rw [toll_append, h τ γ μ ν hτ, h' τ γ μ ν hτ, add_zero]

/-- a reading that is paid for by another one -/
theorem sums {α β : Type} (h : Settled p asks) {read : Reading α} {f : α → ℤ} {read' : Reading β} {g : β → ℤ}
    {γ μ : String → ℤ} {ν : ℤ} (hτ : (read.tariff f read' g).Balanced γ μ ν) :
    ((readings p read asks).map f).sum = ((readings p read' asks).map g).sum := by
  have htoll := h _ γ μ ν hτ
  rw [Reading.toll_tariff] at htoll
  omega

/-- **The categories of each line** are asked for once. -/
theorem paths_perm (h : Settled p asks) : (readings p paths asks).Perm (readings p linePaths asks) :=
  -- a walk pays for its lines, each with what is charged for its path
  perm_of_sums fun f => h.sums <| show Tariff.Balanced _ f (fun _ => 0) 0 by
    constructor <;> intros <;> simp [Reading.tariff, paths, linePaths, Function.comp_def]

/-- **Each output of a category rule** is rewritten once. -/
theorem labels_perm (h : Settled p asks) : (readings p labels asks).Perm (readings p outputs asks) :=
  perm_of_sums fun f => h.sums <| show Tariff.Balanced _ (fun _ => 0) f 0 by
    constructor <;> intros <;> simp [Reading.tariff, labels, outputs]

/-- **Nodes are looked for** once for each text that a label is rewritten to. -/
theorem lookups_eq (h : Settled p asks) :
    (readings p lookups asks).length = (readings p combinations asks).length := by
  have hsums := h.sums <| show ((lookups.tariff (fun _ => 1) combinations (fun _ => 1)).Balanced
      (fun _ => 0) (fun _ => 0) 1) by
    constructor <;> intros <;> simp [Reading.tariff, lookups, combinations, Except.toOption, Function.comp_def]
  simpa using hsums

/-- **The signal** has cut no categories short. -/
theorem uncut (h : Settled p asks) : readings p cuts asks = [] := by
  have hsums := h.sums <| show ((cuts.tariff (fun _ => 1) cuts (fun _ => 0)).Balanced
      (fun _ => 0) (fun _ => 0) 0) by
    constructor <;> intros <;> simp_all [Reading.tariff, cuts]
  simpa using hsums

end Settled

end Gleaner
