/-
What rules find, in any world.

Whatever stages do and whatever the files are, a chain gives no blank text (`Chain.run_filled`). So the entries of a
list of rules are those of rules of the list, under their numbers and names, and their texts are not blank
(`Selection.Of`); a normalizer gives such an entry or leaves its text as it is (`Normalized.Of`); lines are numbered
from 1. What a pipeline keeps between its runs is of the same kind (`Workspace.Sound`), no matter in which worlds it
was found, and so is all that is looked up (`selectCategories_sound`, `normalize_sound`).
-/
import Gleaner.Proofs.Keeping
import Gleaner.Proofs.Pruning

namespace Gleaner

open Act

/-! ## Chains -/

/-- a text that is not blank -/
def Filled (text : String) : Prop := Text.isBlank text = false

/-- every output of a result satisfies `Q` -/
def Yields (Q : String → Prop) (r : MatchResult) : Prop := ∀ found, r = .ok found → ∀ text ∈ found, Q text

theorem Yields.error {Q : String → Prop} (e : MatchError) : Yields Q (.error e) := nofun

theorem Yields.ok {Q : String → Prop} {found : List String} (h : ∀ text ∈ found, Q text) : Yields Q (.ok found) := by
  rintro _ ⟨⟩
  exact h

theorem Yields.mono {Q R : String → Prop} {r : MatchResult} (h : Yields Q r) (himp : ∀ text, Q text → R text) :
    Yields R r := fun found hr text htext => himp text (h found hr text htext)

theorem Yields.located {Q : String → Prop} {r : MatchResult} (h : Yields Q r) (places : List String) :
    Yields Q (Selection.located places r) := by
  cases r with
  | ok found => exact h
  | error e => exact Yields.error _

theorem Always.yields_measure {Q : String → Prop} {a : Act MatchResult} (key : String) (h : Always (Yields Q) a) :
    Always (Yields Q) (Act.measure key a) := h

theorem Stage.dropBlank_filled (kind : String) (found : List String) : Yields Filled (Stage.dropBlank kind found) := by
  unfold Stage.dropBlank
  split
  · exact Yields.error _
  · refine Yields.ok fun text htext => ?_
    have hkept := (List.mem_filter.1 htext).2
    simpa [Filled] using hkept

/-- **A stage gives no blank text.** -/
theorem Stage.apply_filled (s : Stage) (place : Place) (last : Bool) (input : String) :
    Always (Yields Filled) (s.apply place last input) := by
  intro w
  have hrun : (s.apply place last input w).1 = (s.found place last input w).1 >>= dropBlank s.kind := rfl
  rw [hrun]
  cases (s.found place last input w).1 with
  | error e => exact Yields.error e
  | ok found => exact dropBlank_filled s.kind found

namespace Chain

theorem applyFrom_filled (s : Stage) (place : Place) (last : Bool) (texts : List String) {done : List (List String)}
    (hdone : ∀ found ∈ done, ∀ text ∈ found, Filled text) :
    Always (Yields Filled) (applyFrom s place last done texts) := by
  induction texts generalizing done with
  | nil =>
    refine Always.pure (Yields.ok fun text htext => ?_)
    obtain ⟨found, hfound, htext⟩ := List.mem_flatten.1 htext
    exact hdone found (List.mem_reverse.1 hfound) text htext
  | cons text rest ih =>
    unfold applyFrom
    refine (Always.yields_measure _ (s.apply_filled place last text)).bind fun r hr => ?_
    cases r with
    | ok found =>
      refine ih fun others hothers => ?_
      rcases List.mem_cons.1 hothers with rfl | hothers
      · exact hr _ rfl
      · exact hdone others hothers
    | error e =>
      simp only
      split
      · exact ih hdone
      · exact Always.pure (Yields.error _)

theorem runFrom_filled (place : Place) (stages : List Stage) {texts : List String}
    (htexts : stages = [] → ∀ text ∈ texts, Filled text) : Always (Yields Filled) (runFrom place stages texts) := by
  induction stages generalizing place texts with
  | nil => exact Always.pure (Yields.ok (htexts rfl))
  | cons s rest ih =>
    unfold runFrom
    have hnone : ∀ found ∈ ([] : List (List String)), ∀ text ∈ found, Filled text :=
      fun _ hfound => absurd hfound List.not_mem_nil
    refine (applyFrom_filled s place rest.isEmpty texts hnone).bind fun r hr => ?_
    rcases r with e | _ | ⟨first, others⟩
    · exact Always.pure (Yields.error e)
    · exact Always.pure (Yields.error _)
    · exact ih _ fun _ => hr _ rfl

/-- **A chain gives no blank text.** -/
theorem run_filled (c : Chain) (input : String) : Always (Yields Filled) (c.run input) := by
  unfold Chain.run
  by_cases hempty : c.stages = []
  · rw [hempty]
    exact Always.pure (Yields.error _)
  · rw [if_neg (by simpa using hempty)]
    exact runFrom_filled _ _ fun hnone => absurd hnone hempty

end Chain

/-! ## Rules -/

theorem CategorySelector.firstMatch_filled (c : Chain) (lines : List ReadLine) :
    Always (Yields Filled) (firstMatch c lines) := by
  induction lines with
  | nil => exact Always.pure (Yields.error _)
  | cons line rest ih =>
    unfold firstMatch
    cases line.error with
    | some e => exact Always.pure (Yields.error _)
    | none =>
      refine (c.run_filled line.text).bind fun r hr => ?_
      cases r with
      | ok found => exact Always.pure hr
      | error e =>
        simp only
        split
        · exact ih
        · exact Always.pure (Yields.error _)

theorem CategorySelector.scanFile_filled (c : Chain) (path : String) : Always (Yields Filled) (scanFile c path) := by
  intro w
  unfold scanFile
  rw [bind_run, get_run]
  simp only
  cases w.files.openFile path with
  | error e => exact Yields.error _
  | ok source => exact firstMatch_filled c (Act.readLines source w).1 (Act.readLines source w).2

theorem CategorySelector.select_filled (s : CategorySelector) (path : String) :
    Always (Yields Filled) (s.select path) := by
  unfold select
  refine (Always.yields_measure _ ?_).bind fun _ hr => Always.pure (hr.located _)
  cases s.mode with
  | filename => exact s.chain.run_filled path
  | text => exact scanFile_filled s.chain path

/-- **A node rule** gives texts only in files of the categories that its pattern matches. -/
theorem NodeSelector.select_filled (s : NodeSelector) (category content : String) :
    Always (Yields fun text => Filled text ∧ s.category.isMatch category = true) (s.select category content) := by
  unfold select
  refine (Always.yields_measure _ ?_).bind fun _ hr => Always.pure (hr.located _)
  split
  · rename_i hmatch
    exact (s.chain.run_filled content).bind fun _ hr =>
      Always.pure ((hr.mono fun _ htext => ⟨htext, hmatch⟩).located _)
  · exact Always.pure (Yields.error _)

theorem Normalizer.run_filled (n : Normalizer) (input : String) : Always (Yields Filled) (n.run input) :=
  Always.yields_measure _ ((Always.yields_measure _ (n.chain.run_filled input)).bind fun _ hr =>
    Always.pure (hr.located _))

/-! ## Lists of rules -/

theorem drop_eq_cons {α : Type} {all rest : List α} {x : α} {k : Nat} (h : all.drop k = x :: rest) :
    all[k]? = some x ∧ all.drop (k + 1) = rest := by
  constructor
  · have hdrop : (all.drop k)[0]? = all[k + 0]? := List.getElem?_drop
    rw [h, Nat.add_zero] at hdrop
    exact hdrop.symm
  · rw [← List.drop_drop, h, List.drop_one, List.tail_cons]

/-- an entry under the number and name of a rule of a list, whose text, if it has one, satisfies `Q` -/
def Selection.Of {α : Type} (rules : List α) (name : α → String) (Q : α → String → Prop) (s : Selection) : Prop :=
  ∃ rule, rules[s.index]? = some rule ∧ name rule = s.name ∧ ∀ text, s.outcome = .ok text → Q rule text

/-- **The entries of a list of rules** are those of its rules. -/
theorem Selection.selectAll_of {α : Type} {name : α → String} {select : α → Act MatchResult}
    {Q : α → String → Prop} {all : List α} (h : ∀ rule ∈ all, Always (Yields (Q rule)) (select rule)) {k : Nat}
    {rules : List α} (hrules : all.drop k = rules) :
    Always (fun found => ∀ s ∈ found, s.Of all name Q) (selectAll name select k rules) := by
  induction rules generalizing k with
  | nil => exact Always.pure nofun
  | cons rule rest ih =>
    obtain ⟨hhere, hrest⟩ := drop_eq_cons hrules
    unfold selectAll
    refine (h rule (List.mem_of_getElem? hhere)).bind fun r hr => ?_
    refine (ih hrest).bind fun others hothers => Always.pure fun s hs => ?_
    rcases List.mem_append.1 hs with hs | hs
    · cases r with
      | ok found =>
        obtain ⟨text, htext, rfl⟩ := List.mem_map.1 hs
        refine ⟨rule, hhere, rfl, ?_⟩
        rintro _ ⟨⟩
        exact hr found rfl text htext
      | error e =>
        rw [List.mem_singleton.1 hs]
        exact ⟨rule, hhere, rfl, nofun⟩
    · exact hothers s hs

/-- a text itself, or the entry of a normalizer of a list, which is not blank -/
def Normalized.Of (rules : List Normalizer) (input : String) (n : Normalized) : Prop :=
  n = .identity input ∨ ∃ i rule, n.index = some i ∧ rules[i]? = some rule ∧ rule.name = n.name ∧ Filled n.result

/-- **What a text is rewritten to** is the text itself or comes from a normalizer of the list. -/
theorem normalizeFrom_of (input : String) {all : List Normalizer} {k : Nat} {rules : List Normalizer}
    (hrules : all.drop k = rules) :
    Always (fun r => ∀ found, r = .ok found → ∀ n ∈ found, n.Of all input) (normalizeFrom input k rules) := by
  induction rules generalizing k with
  | nil =>
    refine Always.pure ?_
    rintro _ ⟨⟩ n hn
    exact .inl (List.mem_singleton.1 hn)
  | cons rule rest ih =>
    obtain ⟨hhere, hrest⟩ := drop_eq_cons hrules
    unfold normalizeFrom
    refine (rule.run_filled input).bind fun r hr => ?_
    cases r with
    | ok texts =>
      refine Always.pure ?_
      rintro _ ⟨⟩ n hn
      obtain ⟨text, htext, rfl⟩ := List.mem_map.1 hn
      exact .inr ⟨k, rule, rfl, hhere, rfl, hr texts rfl text htext⟩
    | error e =>
      simp only
      split
      · exact ih hrest
      · exact Always.pure fun _ hfound => by cases hfound

/-! ## Lines -/

/-- **Lines are numbered from 1.** -/
theorem readLines_number (s : Source) (fires : Nat → Bool) : ∀ l ∈ readLines s fires, 1 ≤ l.number := by
  have hfrom : ∀ (lines : List Utf8.Bytes) (delivered : Nat),
      ∀ l ∈ (scanFrom s.failure fires (fun _ => true) delivered lines).1, 1 ≤ l.number := by
    intro lines
    induction lines with
    | nil =>
      intro delivered l hl
      unfold scanFrom at hl
      split at hl
      · rw [List.mem_singleton.1 hl]
        exact Nat.le_add_left 1 delivered
      · cases hf : s.failure with
        | none =>
          rw [hf] at hl
          exact absurd hl List.not_mem_nil
        | some e =>
          rw [hf] at hl
          rw [List.mem_singleton.1 hl]
          exact Nat.le_add_left 1 delivered
    | cons line rest ih =>
      intro delivered l hl
      unfold scanFrom at hl
      split at hl
      · rw [List.mem_singleton.1 hl]
        exact Nat.le_add_left 1 delivered
      · rcases List.mem_cons.1 hl with rfl | hl
        · exact Nat.le_add_left 1 delivered
        · exact ih (delivered + 1) l hl
  exact hfrom s.lines 0

/-- all lines of a part of a walk satisfy `Good` -/
def Walked.All (Good : FileLine → Prop) (found : Walked) : Prop := ∀ l ∈ found.lines, Good l

namespace Walked.All

variable {Good : FileLine → Prop}

theorem nothing : Walked.All Good {} := nofun

theorem left (path : String) : Walked.All Good { left := [path] } := nofun

theorem stop {last : FileLine} (h : Good last) : Walked.All Good { lines := [last], goesOn := false } := by
  intro l hl
  rw [List.mem_singleton.1 hl]
  exact h

theorem andThen {first others : Walked} (h : first.All Good) (h' : others.All Good) :
    (first.andThen others).All Good := by
  intro l hl
  rcases List.mem_append.1 hl with hl | hl
  · exact h l hl
  · exact h' l hl

end Walked.All

namespace Walker

/-- in the worlds of `Ok` the parts of which walks are made give lines that satisfy `Good`, and leave such worlds -/
structure Vouches (w : Walker) (Ok : World → Prop) (Good : FileLine → Prop) : Prop where
  look : Maintains Ok (fun r => ∀ last, r = some last → Good last) w.interruption?
  ignored : ∀ path, Maintains Ok (fun r => ∀ last, r = .error last → Good last) (w.isIgnored path)
  leaf : ∀ path, Maintains Ok (Walked.All Good) (visitLeaf path)
  warn : ∀ text, Maintains Ok (fun _ => True) (Act.warn text)

section

variable {w : Walker} {Ok : World → Prop} {Good : FileLine → Prop}

theorem visit_all (h : w.Vouches Ok Good) (path : String) (prunes : Bool) {below : Act Walked}
    (hbelow : Maintains Ok (Walked.All Good) below) : Maintains Ok (Walked.All Good) (w.visit path prunes below) := by
  unfold visit
  refine h.look.bind fun last hlast => ?_
  cases last with
  | some last => exact .pure (.stop (hlast last rfl))
  | none =>
    refine (h.ignored path).bind fun ignored hstop => ?_
    match ignored with
    | .error last => exact .pure (.stop (hstop last rfl))
    | .ok true =>
      cases prunes with
      | true => exact .pure (.left path)
      | false => exact hbelow.bind fun others hothers => .pure ((Walked.All.left path).andThen hothers)
    | .ok false =>
      refine (h.leaf path).bind fun here hhere => ?_
      split
      · exact .pure hhere
      · exact hbelow.bind fun others hothers => .pure (hhere.andThen hothers)

mutual
theorem walkNode_all (h : w.Vouches Ok Good) (path : String) (n : FileNode) :
    Maintains Ok (Walked.All Good) (w.walkNode path n) := by
  cases n with
  | dir entries => exact visit_all h path true (walkEntries_all h path entries)
  | file content => exact visit_all h path true (.pure .nothing)
  | link target => exact visit_all h path true (.pure .nothing)

theorem walkEntries_all (h : w.Vouches Ok Good) (dir : String) (entries : List (String × FileNode)) :
    Maintains Ok (Walked.All Good) (w.walkEntries dir entries) := by
  match entries with
  | [] => exact .pure .nothing
  | (name, n) :: rest =>
    unfold walkEntries
    refine (walkNode_all h (joinPath dir name) n).bind fun first hfirst => ?_
    split
    · exact .pure hfirst
    · exact (walkEntries_all h dir rest).bind fun others hothers => .pure (hfirst.andThen hothers)
end

theorem skipEntry_all (h : w.Vouches Ok Good) (path : String) (e : IoError) :
    Maintains Ok (Walked.All Good) (w.skipEntry path e) := by
  unfold skipEntry
  refine h.look.bind fun last hlast => ?_
  cases last with
  | some last => exact .pure (.stop (hlast last rfl))
  | none => exact (h.warn _).bind fun _ _ => .pure .nothing

/-- **What all parts of a walk vouch for** holds of its lines. -/
theorem walk_all (h : w.Vouches Ok Good) : Maintains Ok (fun lines => ∀ l ∈ lines, Good l) w.walk := by
  intro world hworld
  change (w.survey world).1.All Good ∧ Ok (w.survey world).2
  rcases survey_cases w world with ⟨-, entries, -, hrun⟩ | ⟨-, ⟨n, -, hrun⟩ | ⟨e, hrun⟩⟩
  · rw [hrun]
    exact visit_all h w.root false (walkEntries_all h w.root _) world hworld
  · rw [hrun]
    exact walkNode_all h w.root _ world hworld
  · rw [hrun]
    exact skipEntry_all h w.root e world hworld

end

/-- the line that ends a walk if the signal is up -/
theorem interruption?_cause {w : Walker} {world : World} {last : FileLine}
    (h : (w.interruption? world).1 = some last) : last.error = some .cancelled := by
  rw [interruption?_run] at h
  simp only at h
  split at h
  · cases h
    rfl
  · cases h

/-- the line that ends a walk if the ignore chain fails -/
theorem isIgnored_cause {w : Walker} {path : String} {world : World} {last : FileLine}
    (h : (w.isIgnored path world).1 = .error last) :
    ∃ e, (w.ignore.run path world).1 = .error e ∧ e.isUnmatched = false ∧
      last.error = some (.ignore path e.message) := by
  rw [isIgnored_run] at h
  cases hr : (w.ignore.run path world).1 with
  | ok found =>
    rw [hr] at h
    cases h
  | error e =>
    rw [hr] at h
    simp only at h
    split at h
    · cases h
    · rename_i hhard
      cases h
      exact ⟨e, rfl, Bool.eq_false_iff.2 hhard, rfl⟩

theorem visitLeaf_numbered (path : String) (world : World) :
    (visitLeaf path world).1.All fun l => l.error = none → 1 ≤ l.number := by
  rw [visitLeaf_run]
  split
  · rw [scanFile_run]
    cases world.files.openFile path with
    | error e => exact .nothing
    | ok source =>
      intro l hl _
      obtain ⟨item, hitem, rfl⟩ := List.mem_map.1 hl
      exact readLines_number source _ item hitem
  · exact .nothing

/-- **The lines of a walk are numbered**, those that are no errors. -/
theorem walk_numbered (w : Walker) :
    Always (fun lines => ∀ l ∈ lines, l.error = none → 1 ≤ l.number) w.walk := by
  have hvouches : w.Vouches (fun _ => True) fun l => l.error = none → 1 ≤ l.number := by
    refine ⟨fun world _ => ⟨fun last hlast hnone => ?_, trivial⟩,
      fun path world _ => ⟨fun last hlast hnone => ?_, trivial⟩,
      fun path world _ => ⟨visitLeaf_numbered path world, trivial⟩, fun _ _ _ => ⟨trivial, trivial⟩⟩
    · cases hnone.symm.trans (interruption?_cause hlast)
    · obtain ⟨e, -, -, herror⟩ := isIgnored_cause hlast
      cases hnone.symm.trans herror
  exact fun world => (walk_all hvouches world trivial).1

end Walker

/-! ## What is kept -/

/-- what is kept are entries of the rules and normalizers of a pipeline -/
structure Workspace.Sound (p : Pipeline) (ws : Workspace) : Prop where
  categories : ws.categories.Holds fun _ found =>
    ∀ s ∈ found, s.Of p.categories CategorySelector.name fun _ => Filled
  categoryNormalizers : ws.categoryNormalizers.Holds fun label found => ∀ n ∈ found, n.Of p.categoryNormalizers label
  nodeNormalizers : ws.nodeNormalizers.Holds fun value found => ∀ n ∈ found, n.Of p.nodeNormalizers value

namespace Workspace

variable {p : Pipeline} {ws : Workspace}

theorem sound_fresh (w : World) : ({ world := w } : Workspace).Sound p :=
  ⟨Memo.Holds.empty, Memo.Holds.empty, Memo.Holds.empty⟩

/-- what is kept does not depend on the world -/
theorem Sound.act {α : Type} (h : ws.Sound p) (a : Act α) : (act a ws).2.Sound p :=
  ⟨h.categories, h.categoryNormalizers, h.nodeNormalizers⟩

theorem Sound.inWorld (h : ws.Sound p) (w : World) : ({ ws with world := w } : Workspace).Sound p :=
  ⟨h.categories, h.categoryNormalizers, h.nodeNormalizers⟩

/-- **The categories that are looked up** -/
theorem selectCategories_sound (h : ws.Sound p) (path : String) :
    (selectCategories p.categories path ws).2.Sound p ∧
      ∀ s ∈ (selectCategories p.categories path ws).1, s.Of p.categories CategorySelector.name fun _ => Filled := by
  let good (found : List Selection) : Prop := ∀ s ∈ found, s.Of p.categories CategorySelector.name fun _ => Filled
  have hall : ∀ rule ∈ p.categories, Always (Yields Filled) (rule.select path) := fun rule _ => rule.select_filled path
  have hgood : ∀ ws : Workspace, good (Gleaner.selectCategories p.categories path ws.world).1 := fun ws =>
    Selection.selectAll_of hall (List.drop_zero (l := p.categories)) ws.world
  have hkeep : ∀ (ws : Workspace) m, ws.Sound p → m.Holds (fun _ => good) →
      ({ ws with categories := m } : Workspace).Sound p :=
    fun ws m hws hm => ⟨hm, hws.categoryNormalizers, hws.nodeNormalizers⟩
  obtain ⟨hsound, hfound⟩ := selectCategories_holds good (fun _ hws => hws.categories) hkeep (fun _ hws => hws.act _)
    (fun ws _ _ => hgood ws) (fun ws _ _ => hgood ws) h
  exact ⟨hsound, hfound.elim id id⟩

/-- looking up what a text is rewritten to, in one of the tables for it -/
theorem normalize_sound {rules : List Normalizer} {read : Workspace → Memo (List Normalized)}
    {write : Workspace → Memo (List Normalized) → Workspace} (input : String)
    (hread : ∀ ws : Workspace, ws.Sound p → (read ws).Holds fun key found => ∀ n ∈ found, n.Of rules key)
    (hwrite : ∀ ws m, ws.Sound p → m.Holds (fun key found => ∀ n ∈ found, n.Of rules key) → (write ws m).Sound p)
    (h : ws.Sound p) :
    (Memo.getOrTry read write input (Workspace.act (normalize rules input)) ws).2.Sound p ∧
      ∀ found, (Memo.getOrTry read write input (Workspace.act (normalize rules input)) ws).1 = .ok found →
        ∀ n ∈ found, n.Of rules input := by
  have hcompute : ∀ ws : Workspace, ws.Sound p → (Workspace.act (normalize rules input) ws).2.Sound p ∧
      ((∃ v, (Workspace.act (normalize rules input) ws).1 = .ok v ∧ ∀ n ∈ v, n.Of rules input) ∨
        ∃ e, (Workspace.act (normalize rules input) ws).1 = .error e ∧ True) := by
    intro ws hws
    refine ⟨hws.act _, ?_⟩
    have hfound := normalizeFrom_of input (List.drop_zero (l := rules)) ws.world
    have hact : (Workspace.act (normalize rules input) ws).1 = (normalizeFrom input 0 rules ws.world).1 := rfl
    rw [hact]
    cases hr : (normalizeFrom input 0 rules ws.world).1 with
    | ok v => exact .inl ⟨v, rfl, hfound v hr⟩
    | error e => exact .inr ⟨e, rfl, trivial⟩
  obtain ⟨hkept, hresult⟩ := Memo.getOrTry_holds hread hwrite hcompute h
  refine ⟨hkept, fun found hfound => ?_⟩
  rcases hresult with ⟨v, hv, hgood⟩ | ⟨e, he, -⟩
  · cases hv.symm.trans hfound
    exact hgood
  · cases he.symm.trans hfound

/-- **What a label is rewritten to** -/
theorem normalizeCategory_sound (h : ws.Sound p) (label : String) :
    (normalizeCategory p.categoryNormalizers label ws).2.Sound p ∧
      ∀ found, (normalizeCategory p.categoryNormalizers label ws).1 = .ok found →
        ∀ n ∈ found, n.Of p.categoryNormalizers label :=
  normalize_sound label (fun _ hws => hws.categoryNormalizers)
    (fun _ _ hws hm => ⟨hws.categories, hm, hws.nodeNormalizers⟩) h

/-- **What a node is rewritten to** -/
theorem normalizeNode_sound (h : ws.Sound p) (value : String) :
    (normalizeNode p.nodeNormalizers value ws).2.Sound p ∧
      ∀ found, (normalizeNode p.nodeNormalizers value ws).1 = .ok found →
        ∀ n ∈ found, n.Of p.nodeNormalizers value :=
  normalize_sound value (fun _ hws => hws.nodeNormalizers)
    (fun _ _ hws hm => ⟨hws.categories, hws.categoryNormalizers, hm⟩) h

end Workspace

end Gleaner
