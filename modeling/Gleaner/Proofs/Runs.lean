/-
Runs of a pipeline.

Each part of a run plays its part of the nested enumeration, whatever is kept and whatever the signal does: if the
signal cuts a walk, an input or the categories of a file short, the run ends with that and writes nothing for what is
missing (`run_played`). So a run whose signal stays down is the enumeration (`run_eq_enumeration`), no matter what the
pipeline has served before.

Results:
- `Plays.stream`: loops over streams that the signal may cut short;
- `processLine_plays`, `processRoot_plays`, `processRoots_plays`: the parts of a run;
- `run_eq_enumeration`: a run, its output and its summary.
-/
import Gleaner.Proofs.Enumeration
import Gleaner.Proofs.Tours
import Mathlib

namespace Gleaner

section

variable {p : Pipeline} {files : FileNode} {env : Environment} {fires : Nat → Bool}

/-! ## Parts that may be cut short -/

/-- a part of a run behind something that is known or was cut short -/
theorem Plays.lift_bind {α β : Type} {a : StateM Workspace α} {u : α} (cut : α → Prop) {f : α → Run β} {v : β}
    {evs : List Event}
    (h : ∀ ws, ws.KeptUnder p files env fires → (a ws).2.KeptUnder p files env fires ∧ ((a ws).1 = u ∨ cut (a ws).1))
    (hu : Plays p files env fires (f u) v evs) (hcut : ∀ r, cut r → Plays p files env fires (f r) v evs) :
    Plays p files env fires (Run.lift a >>= f) v evs := by
  intro s hs
  obtain ⟨hkept, hresult⟩ := h s.workspace hs
  have hrun : (Run.lift a >>= f).run s = (f (a s.workspace).1).run { s with workspace := (a s.workspace).2 } := rfl
  rw [hrun]
  have hnext : Plays p files env fires (f (a s.workspace).1) v evs := by
    rcases hresult with hresult | hresult
    · rw [hresult]
      exact hu
    · exact hcut _ hresult
  obtain ⟨hkept, hvalue, hdid⟩ := hnext { s with workspace := (a s.workspace).2 } hkept
  refine ⟨hkept, hvalue, fun hfits => ?_⟩
  obtain ⟨done, hdone, hends⟩ := hdid hfits
  exact ⟨done, ⟨hdone.noFail, hdone.output, hdone.summary⟩, hends⟩

/-- a part of a run behind a look at the signal -/
theorem Plays.behind_check {α : Type} {m : Run α} {v : α} {evs : List Event} (h : Plays p files env fires m v evs) :
    Plays p files env fires (Run.checkSignal >>= fun _ => m) v evs := checkSignal_plays.bind_nil h

/-- **A loop over a stream** does the events of its items, whether or not the signal cut the stream short. -/
theorem Plays.stream {α : Type} {loop : List α → Run Unit} {evs : α → List Event} {cut : α → Prop}
    (hend : Plays p files env fires (loop []) ⟨⟩ [])
    (hitem : ∀ item rest more, Plays p files env fires (loop rest) ⟨⟩ more →
      Plays p files env fires (loop (item :: rest)) ⟨⟩ (evs item ++ more))
    (hcut : Rises fires → ∀ last, cut last → ∀ more, Plays p files env fires (loop [last]) ⟨⟩ more)
    {full found : List α} (hfound : found = full ∨ Rises fires ∧ Move.Cut cut full found) :
    Plays p files env fires (loop found) ⟨⟩ (full.flatMap evs) := by
  have honto : ∀ tail more, Plays p files env fires (loop tail) ⟨⟩ more →
      ∀ items, Plays p files env fires (loop (items ++ tail)) ⟨⟩ (items.flatMap evs ++ more) := by
    intro tail more htail items
    induction items with
    | nil => exact htail
    | cons item rest ih =>
      rw [List.cons_append, List.flatMap_cons, List.append_assoc]
      exact hitem item _ _ ih
  rcases hfound with rfl | ⟨hrises, before, last, rfl, ⟨after, rfl⟩, hlast⟩
  · have hall := honto [] [] hend found
    rwa [List.append_nil, List.append_nil] at hall
  · rw [List.flatMap_append]
    exact honto [last] _ (hcut hrises last hlast _) before

/-! ## Lines -/

/-- going through an entry of a rule -/
theorem entry_plays {stage : String} {line : FileLine} {s : Selection} {next : Selection → String → List Event}
    {k : String → Run (ForInStep PUnit)} (h : ∀ text, Plays p files env fires (k text) (.yield ⟨⟩) (next s text)) :
    Plays p files env fires
      (do
        match ← Pipeline.selected? stage line s with
        | none => pure (.yield ⟨⟩)
        | some text => k text)
      (.yield ⟨⟩) (Pipeline.eachEntry stage line next s) := by
  unfold Pipeline.selected? Pipeline.eachEntry
  cases s.outcome with
  | ok text => exact (Plays.pure _).bind_nil (h text)
  | error e =>
    simp only
    split
    · exact (Plays.pure none).bind_nil (Plays.pure _)
    · exact (Plays.fail none _ []).bind (Plays.pure _)

/-- going through rewritten texts -/
theorem normalized_plays {stage : String} {line : FileLine}
    {a : StateM Workspace (Except MatchError (List Normalized))} {found : Except MatchError (List Normalized)}
    (ha : ∀ ws, ws.KeptUnder p files env fires → (a ws).2.KeptUnder p files env fires ∧ (a ws).1 = found)
    {next : Normalized → List Event} {body : Normalized → PUnit → Run (ForInStep PUnit)}
    (h : ∀ n, Plays p files env fires (body n ⟨⟩) (.yield ⟨⟩) (next n)) :
    Plays p files env fires
      (do
        let texts ← Pipeline.normalized stage line a
        let _ ← forIn texts PUnit.unit body
        pure (ForInStep.yield PUnit.unit))
      (.yield ⟨⟩) (Pipeline.eachNormalized stage line found next) := by
  have hloop : ∀ texts : List Normalized, Plays p files env fires
      (do
        let _ ← forIn texts PUnit.unit body
        pure (ForInStep.yield PUnit.unit))
      (.yield ⟨⟩) (texts.flatMap next) := fun texts =>
    (Plays.forIn fun n _ => h n).bind_pure fun _ => ForInStep.yield PUnit.unit
  cases found with
  | ok texts =>
    have hlist : Plays p files env fires (Pipeline.normalized stage line a) texts [] :=
      (lift_plays ha).bind_nil (Plays.pure _)
    exact hlist.bind_nil (hloop texts)
  | error e =>
    have hlist : Plays p files env fires (Pipeline.normalized stage line a) []
        [.fail (.selection stage line.render e.message)] := (lift_plays ha).bind_nil (Plays.fail _ _ _)
    exact hlist.bind (hloop [])

/-- a round of a loop -/
theorem round_plays {m : Run PUnit} {evs : List Event} (h : Plays p files env fires m ⟨⟩ evs) :
    Plays p files env fires (do m; pure (ForInStep.yield PUnit.unit)) (.yield ⟨⟩) evs :=
  h.bind_pure fun _ => ForInStep.yield PUnit.unit

/-- a node rule has no match in files of categories that its pattern does not match -/
theorem NodeSelector.value_of_mismatch {s : NodeSelector} {category : String} (h : s.category.isMatch category = false)
    (content : String) : ∃ e, s.value files env category content = .error e ∧ e.isUnmatched = true := by
  unfold value select
  rw [h]
  exact ⟨_, rfl, rfl⟩

namespace Pipeline

theorem nodeEvents_eq (root : ReadLine) (line : FileLine) (category : Selected) :
    p.nodeEvents files env root line category =
      (p.nodesOf files env category.normalized.result line.content).flatMap
        (eachEntry "node" line fun node value =>
          eachNormalized "node normalizer" line (rewritten files env p.nodeNormalizers value) fun n =>
            [.record ⟨root, line, category, some ⟨node, n⟩⟩]) := by
  rw [nodesOf, gather_flatMap, nodeEvents]
  refine List.flatMap_congr fun ⟨rule, i⟩ _ => ?_
  simp only
  split
  · rfl
  · rename_i hmismatch
    obtain ⟨e, hvalue, hunmatched⟩ := NodeSelector.value_of_mismatch (Bool.not_eq_true _ ▸ hmismatch) line.content
    rw [hvalue, eachOutput, if_pos hunmatched]

theorem categoryEvents_eq (root : ReadLine) (line : FileLine) :
    p.categoryEvents files env root line =
      (p.categoriesOf files env line.path).flatMap
        (eachEntry "category" line fun category label =>
          eachNormalized "category normalizer" line (rewritten files env p.categoryNormalizers label) fun n =>
            if p.categoryOnly then [.record ⟨root, line, ⟨category, n⟩, none⟩]
            else p.nodeEvents files env root line ⟨category, n⟩) := by
  rw [categoriesOf, gather_flatMap, categoryEvents]

/-- **The nodes in a line** -/
theorem processNodes_plays (h : p.Functional files env) (hplaced : p.Placed) (root : ReadLine) (line : FileLine)
    (category : Selected) :
    Plays p files env fires (p.processNodes root line category) ⟨⟩ (p.nodeEvents files env root line category) := by
  have hnormalized : ∀ value (ws : Workspace), ws.KeptUnder p files env fires →
      (Workspace.normalizeNode p.nodeNormalizers value ws).2.KeptUnder p files env fires ∧
        (Workspace.normalizeNode p.nodeNormalizers value ws).1 = rewritten files env p.nodeNormalizers value :=
    fun value ws hws => Workspace.normalizeNode_kept h hplaced hws value
  rw [nodeEvents_eq]
  unfold processNodes
  refine (act_plays (h.nodes_give hplaced category.normalized.result line.content)).bind_nil ?_
  refine (Plays.forIn fun node _ => ?_).bind_pure fun _ => PUnit.unit
  refine entry_plays fun value => ?_
  refine normalized_plays (hnormalized value) fun n => ?_
  exact round_plays (writeRecord_plays _)

/-- **The records of a line**; if the signal cuts its categories short, the run ends. -/
theorem processLine_plays (h : p.Functional files env) (hplaced : p.Placed) (root : ReadLine) (line : FileLine) :
    Plays p files env fires (p.processLine root line) ⟨⟩ (p.categoryEvents files env root line) := by
  have hnormalized : ∀ label (ws : Workspace), ws.KeptUnder p files env fires →
      (Workspace.normalizeCategory p.categoryNormalizers label ws).2.KeptUnder p files env fires ∧
        (Workspace.normalizeCategory p.categoryNormalizers label ws).1 =
          rewritten files env p.categoryNormalizers label :=
    fun label ws hws => Workspace.normalizeCategory_kept h hplaced hws label
  unfold processLine
  refine Plays.lift_bind (fun found => Rises fires ∧ found.any Selection.isCancelled = true)
    (fun ws hws => Workspace.selectCategories_kept h hplaced hws line.path) ?_ ?_
  · rw [if_neg (by rw [h.categories_uncut hplaced]; exact Bool.false_ne_true), categoryEvents_eq]
    refine (Plays.forIn fun category _ => ?_).bind_pure fun _ => PUnit.unit
    refine entry_plays fun label => ?_
    refine normalized_plays (hnormalized label) fun n => ?_
    by_cases honly : p.categoryOnly = true
    · simp only [if_pos honly]
      exact round_plays (writeRecord_plays _)
    · simp only [if_neg honly]
      exact round_plays (processNodes_plays h hplaced root line ⟨category, n⟩)
  · rintro found ⟨hrises, hcut⟩
    rw [if_pos hcut]
    exact Plays.cancel hrises _ _

/-- **The lines of a walk**, whether or not it was cut short. -/
theorem processLines_plays (h : p.Functional files env) (hplaced : p.Placed) (root : ReadLine)
    {full found : List FileLine} (hfound : found = full ∨ Rises fires ∧ Move.Cut FileLine.IsCut full found) :
    Plays p files env fires (p.processLines root found) ⟨⟩ (full.flatMap (p.lineEvents files env root)) := by
  refine Plays.stream checkSignal_plays (fun line rest more hrest => ?_) (fun hrises last hlast more => ?_) hfound
  · rw [processLines, lineEvents]
    refine Plays.behind_check ?_
    cases line.error with
    | some e => exact Plays.fail _ _ _
    | none =>
      exact (count_plays (e := .line) rfl rfl).bind ((processLine_plays h hplaced root line).bind hrest)
  · rw [processLines, show last.error = some .cancelled from hlast]
    exact Plays.behind_check (Plays.cancel hrises _ _)

/-! ## Walks and inputs -/

/-- the ignore chain of a pipeline guides walks -/
theorem Functional.guides (h : p.Functional files env) (hplaced : p.Placed) (root : String) :
    Tour.Guides ⟨root, files, p.ignore.value files env⟩ p.ignore (World.Settled p.scriptAt files env) :=
  have hchain : p.chainAt .ignore 0 = some p.ignore := rfl
  Chain.settled_guides (h .ignore 0 p.ignore hchain) (hplaced.stands hchain) root

/-- the lines of a walk in a fresh world are the items of its tour -/
theorem Functional.walked_eq (h : p.Functional files env) (hplaced : p.Placed) (root : String) :
    p.walked files env root = Move.items (Tour.moves ⟨root, files, p.ignore.value files env⟩) :=
  (Tour.survey_follows (h.guides hplaced root) _ World.settled_fresh).lines.trans (Move.run_silent (fun _ => rfl) _ _)

/-- **A walk in a settled world** is the one in a fresh world, or a part of it that the signal cut short. -/
theorem walk_settles (h : p.Functional files env) (hplaced : p.Placed) (root : String) :
    Act.Settles (World.SettledUnder p.scriptAt files env fires) (Walker.walk ⟨root, p.ignore⟩) (p.walked files env root)
      fun found => Rises fires ∧ Move.Cut FileLine.IsCut (p.walked files env root) found := by
  let tour : Tour := ⟨root, files, p.ignore.value files env⟩
  intro w hw
  have hfollowed := Tour.survey_follows (h.guides hplaced root) w hw.1
  refine ⟨?_, hfollowed.ok, hfollowed.signal.trans hw.2⟩
  have hrun : (Walker.walk ⟨root, p.ignore⟩ w).1 = (Move.run fires w.looks tour.moves).1 := by
    rw [← hw.2]
    exact hfollowed.lines
  rw [hrun, h.walked_eq hplaced]
  exact Move.run_cut tour.moves_heeds fires w.looks

/-- the lines of an input are the items of its reader -/
theorem inputLines_eq (input : Source) : inputLines input = Move.items input.moves :=
  (readLines_eq_run input (fun _ => false) 0).trans (Move.run_silent (fun _ => rfl) 0 _)

/-- an action that settles, as a part of a run -/
theorem act_settles {α : Type} {a : Act α} {v : α} {cut : α → Prop}
    (ha : Act.Settles (World.SettledUnder p.scriptAt files env fires) a v cut) (ws : Workspace)
    (hws : ws.KeptUnder p files env fires) :
    (Workspace.act a ws).2.KeptUnder p files env fires ∧
      ((Workspace.act a ws).1 = v ∨ cut (Workspace.act a ws).1) :=
  ⟨hws.act (ha ws.world hws.settledUnder).2, (ha ws.world hws.settledUnder).1⟩

/-- **The tree below a path** -/
theorem processRoot_plays (h : p.Functional files env) (hplaced : p.Placed) (root : ReadLine) :
    Plays p files env fires (p.processRoot root) ⟨⟩
      (.root :: (p.walked files env root.text).flatMap (p.lineEvents files env root)) := by
  unfold processRoot
  rw [← List.singleton_append]
  refine (count_plays (e := .root) rfl rfl).bind ?_
  refine Plays.lift_bind _ (act_settles (walk_settles h hplaced root.text)) ?_ fun found hfound => ?_
  · exact processLines_plays h hplaced root (.inl rfl)
  · exact processLines_plays h hplaced root (.inr hfound)

/-- **The lines of an input**, whether or not it was cut short. -/
theorem processRoots_plays (h : p.Functional files env) (hplaced : p.Placed) {full found : List ReadLine}
    (hfound : found = full ∨ Rises fires ∧ Move.Cut ReadLine.IsCut full found) :
    Plays p files env fires (p.processRoots found) ⟨⟩ (full.flatMap (p.rootEvents files env)) := by
  refine Plays.stream checkSignal_plays (fun root rest more hrest => ?_) (fun hrises last hlast more => ?_) hfound
  · rw [processRoots, rootEvents]
    refine Plays.behind_check ?_
    cases root.error with
    | some e => exact Plays.fail _ _ _
    | none =>
      simp only
      cases Text.isBlank root.text with
      | true => exact hrest
      | false => exact (processRoot_plays h hplaced root).bind hrest
  · rw [processRoots, show last.error = some .cancelled from hlast]
    exact Plays.behind_check (Plays.cancel hrises _ _)

/-- an input is read to its end or cut short by the signal -/
theorem readLines_settles (input : Source) :
    Act.Settles (World.SettledUnder p.scriptAt files env fires) (Act.readLines input) (inputLines input)
      fun found => Rises fires ∧ Move.Cut ReadLine.IsCut (inputLines input) found := by
  intro w hw
  have hread : (Act.readLines input w).1 = (Move.run fires w.looks input.moves).1 := by
    rw [← hw.2]
    exact readLines_eq_run input w.signal w.looks
  refine ⟨?_, hw.1.of_subset hw.1.files_eq rfl (List.Subset.refl _), hw.2⟩
  rw [hread, inputLines_eq]
  exact Move.run_cut (readFrom_heeds _ _ _) fires w.looks

/-- the part of a run that is all but its summary -/
def work (p : Pipeline) (input : Source) : Run Unit := do
  p.processRoots (← Run.act (Act.readLines input))

/-- a run ends with what it has counted -/
theorem run_run (p : Pipeline) (input : Source) (s : RunState) :
    (p.run input).run s =
      (((p.work input).run s).1.map fun _ => ((p.work input).run s).2.summary, ((p.work input).run s).2) := by
  have hsplit : p.run input = p.work input >>= fun _ => do return (← get).summary := by
    unfold run work
    rw [bind_assoc]
  rw [hsplit, Run.bind_run]
  rcases (p.work input).run s with ⟨e | _, s'⟩ <;> rfl

/-- **A run under any signal** ends behind events of its enumeration, and what is kept stays right. -/
theorem run_played (h : p.Functional files env) (hplaced : p.Placed) (input : Source) {s : RunState}
    (hs : s.workspace.KeptUnder p files env fires) :
    ((p.run input).run s).2.workspace.KeptUnder p files env fires ∧
      (s.output.Fits ((p.enumeration files env input).flatMap Event.pieces) →
        ∃ done, Did done s ((p.run input).run s).2 ∧
          Ends fires ((p.run input).run s).2.summary (p.enumeration files env input) done
            ((p.run input).run s).1) := by
  have hwork : Plays p files env fires (p.work input) ⟨⟩ (p.enumeration files env input) :=
    Plays.lift_bind _ (act_settles (readLines_settles input)) (processRoots_plays h hplaced (.inl rfl))
      fun _ hfound => processRoots_plays h hplaced (.inr hfound)
  obtain ⟨hkept, -, hdid⟩ := hwork s hs
  rw [run_run]
  refine ⟨hkept, fun hfits => ?_⟩
  obtain ⟨done, hdone, hends⟩ := hdid hfits
  refine ⟨done, hdone, ?_⟩
  cases hr : ((p.work input).run s).1 with
  | ok _ =>
    rw [hr] at hends
    cases hends with
    | finished hall => exact .finished hall
  | error e =>
    rw [hr] at hends
    cases hends with
    | failed _ hfront => exact .failed e hfront
    | cancelled hrises hfront => exact .cancelled hrises hfront

end Pipeline

end

/-! ## Pipelines that have served -/

/-- a workspace under a signal -/
def Workspace.under (ws : Workspace) (fires : Nat → Bool) : Workspace :=
  { ws with world := { ws.world with signal := fires } }

/-- what a pipeline keeps that is fresh, or has served runs for any inputs, outputs and signals -/
inductive Pipeline.Served (p : Pipeline) (files : FileNode) (env : Environment) : Workspace → Prop where
  | fresh : p.Served files env { world := World.fresh files env }
  | run {ws : Workspace} (h : p.Served files env ws) (fires : Nat → Bool) (input : Source) (output : Output) :
      p.Served files env ((p.run input).run { workspace := ws.under fires, output := output }).2.workspace

section

variable {p : Pipeline} {files : FileNode} {env : Environment}

theorem Workspace.Kept.under {ws : Workspace} (h : ws.Kept p files env) (fires : Nat → Bool) :
    (ws.under fires).KeptUnder p files env fires :=
  ⟨⟨h.world.of_subset h.world.files_eq rfl (List.Subset.refl _), h.categories, h.categoryNormalizers,
    h.nodeNormalizers⟩, rfl⟩

/-- **What a pipeline keeps is right**, whatever it has served. -/
theorem Pipeline.Served.kept (h : p.Functional files env) (hplaced : p.Placed) {ws : Workspace}
    (hserved : p.Served files env ws) : ws.Kept p files env := by
  induction hserved with
  | fresh => exact Workspace.kept_fresh
  | run _ fires input output ih => exact (Pipeline.run_played h hplaced input (ih.under fires)).1.1

/-- the events before the first failure -/
theorem eq_of_prefix_fail {before done after rest : List Event} {e e' : RunError}
    (h : before ++ .fail e :: after = done ++ .fail e' :: rest) (hbefore : ∀ x ∈ before, x.isFail = false)
    (hdone : ∀ x ∈ done, x.isFail = false) : before = done ∧ e = e' := by
  induction before generalizing done with
  | nil =>
    cases done with
    | nil =>
      cases h
      exact ⟨rfl, rfl⟩
    | cons x more =>
      cases h
      cases hdone _ List.mem_cons_self
  | cons x others ih =>
    cases done with
    | nil =>
      cases h
      cases hbefore _ List.mem_cons_self
    | cons y more =>
      simp only [List.cons_append, List.cons.injEq] at h
      obtain ⟨rfl, h⟩ := h
      obtain ⟨rfl, rfl⟩ := ih h (fun z hz => hbefore z (List.mem_cons_of_mem _ hz))
        fun z hz => hdone z (List.mem_cons_of_mem _ hz)
      exact ⟨rfl, rfl⟩

/-- a run of events without a failure succeeds or was cancelled -/
theorem Ends.of_noFail {α : Type} {fires : Nat → Bool} {v : α} {evs done : List Event} {r : Except RunError α}
    (h : Ends fires v evs done r) (hgood : ∀ e ∈ evs, e.isFail = false) :
    r = .ok v ∧ done = evs ∨ r = .error .cancelled ∧ Rises fires ∧ done <+: evs := by
  cases h with
  | finished hall => exact .inl ⟨rfl, hall⟩
  | failed e hfront => cases hgood _ (hfront.subset (List.mem_append_right _ (List.mem_singleton.2 rfl)))
  | cancelled hrises hfront => exact .inr ⟨rfl, hrises, hfront⟩

/-- a run of events with a failure fails at the first one or was cancelled -/
theorem Ends.of_fail {α : Type} {fires : Nat → Bool} {v : α} {before done after : List Event} {e : RunError}
    {r : Except RunError α} (h : Ends fires v (before ++ .fail e :: after) done r)
    (hbefore : ∀ x ∈ before, x.isFail = false) (hdone : ∀ x ∈ done, x.isFail = false) :
    r = .error e ∧ done = before ∨ r = .error .cancelled ∧ Rises fires := by
  cases h with
  | finished hall => cases hdone (.fail e) (hall ▸ List.mem_append_right _ List.mem_cons_self)
  | failed e' hfront =>
    obtain ⟨rest, hrest⟩ := hfront
    rw [List.append_assoc] at hrest
    obtain ⟨rfl, rfl⟩ := eq_of_prefix_fail hrest.symm hbefore hdone
    exact .inl ⟨rfl, rfl⟩
  | cancelled hrises _ => exact .inr ⟨rfl, hrises⟩

/-- runs of the same events that are not cancelled end in the same way -/
theorem Ends.agree {α β : Type} {fires : Nat → Bool} (hsilent : ¬ Rises fires) {u : α} {v : β}
    {evs done done' : List Event} {r : Except RunError α} {r' : Except RunError β} (h : Ends fires u evs done r)
    (h' : Ends fires v evs done' r') (hdone : ∀ x ∈ done, x.isFail = false) (hdone' : ∀ x ∈ done', x.isFail = false) :
    done = done' ∧ (r = .ok u ∧ r' = .ok v ∨ ∃ e, r = .error e ∧ r' = .error e) := by
  cases h with
  | finished hall =>
    subst hall
    rcases h'.of_noFail hdone with ⟨hr', rfl⟩ | ⟨-, hrises, -⟩
    · exact ⟨rfl, .inl ⟨rfl, hr'⟩⟩
    · exact absurd hrises hsilent
  | failed e hfront =>
    obtain ⟨after, rfl⟩ := hfront
    rw [List.append_assoc] at h'
    rcases h'.of_fail hdone hdone' with ⟨hr', rfl⟩ | ⟨-, hrises⟩
    · exact ⟨rfl, .inr ⟨e, rfl, hr'⟩⟩
    · exact absurd hrises hsilent
  | cancelled hrises _ => exact absurd hrises hsilent

theorem not_rises_silent : ¬ Rises fun _ => false := fun ⟨_, hn⟩ => Bool.false_ne_true hn

/-- what has been written, at first or behind something -/
theorem Did.text {done : List Event} {s s' : RunState} (h : Did done s s') :
    s'.output.text = s.output.text ++ String.join ((recordsOf done).map Record.row) := by
  rw [h.output, ← join_events]
  simp [Output.text, Output.written, String.join_append]

/-- runs without an end of room agree, whatever is kept, as long as it is right -/
theorem Pipeline.run_agrees_freely (h : p.Functional files env) (hplaced : p.Placed) {ws ws' : Workspace}
    (hws : ws.Kept p files env) (hws' : ws'.Kept p files env) (input : Source) (failure failure' : IoError) :
    ((p.run input).run { workspace := ws.under fun _ => false, output := { failure := failure } }).1 =
        ((p.run input).run { workspace := ws'.under fun _ => false, output := { failure := failure' } }).1 ∧
      ((p.run input).run { workspace := ws.under fun _ => false, output := { failure := failure } }).2.output.text =
        ((p.run input).run
          { workspace := ws'.under fun _ => false, output := { failure := failure' } }).2.output.text := by
  obtain ⟨done, hdone, hends⟩ :=
    (run_played h hplaced input
      (s := { workspace := ws.under fun _ => false, output := { failure := failure } }) (hws.under _)).2 nofun
  obtain ⟨done', hdone', hends'⟩ :=
    (run_played h hplaced input
      (s := { workspace := ws'.under fun _ => false, output := { failure := failure' } }) (hws'.under _)).2 nofun
  obtain ⟨rfl, hresult⟩ := hends.agree not_rises_silent hends' hdone.noFail hdone'.noFail
  refine ⟨?_, hdone.text.trans hdone'.text.symm⟩
  rcases hresult with ⟨hr, hr'⟩ | ⟨e, hr, hr'⟩
  · rw [hr, hr', hdone.summary, hdone'.summary]
  · rw [hr, hr']

/-- **Runs do not depend on what is kept**, as long as it is right. -/
theorem Pipeline.run_agrees (h : p.Functional files env) (hplaced : p.Placed) {ws ws' : Workspace}
    (hws : ws.Kept p files env) (hws' : ws'.Kept p files env) (input : Source) :
    ((p.run input).run { workspace := ws.under fun _ => false }).1 =
        ((p.run input).run { workspace := ws'.under fun _ => false }).1 ∧
      ((p.run input).run { workspace := ws.under fun _ => false }).2.output.text =
        ((p.run input).run { workspace := ws'.under fun _ => false }).2.output.text :=
  run_agrees_freely h hplaced hws hws' input _ _

end

/-! ## A small pipeline -/

/-- a pattern that matches texts with a k in them -/
def letterPattern : Regex.Pattern := ⟨"k", ⟨#[.accept, .save 1 0, .char 'k' 1, .save 0 2], 3, 2⟩, #[none]⟩

/-- two categories, one of which has a node -/
def smallConfig : Config where
  category := [{ name := "c", filename := [.ofValues ["k"]] }, { name := "t", text := [.ofValues ["x"]] }]
  node := [{ name := "n", category := letterPattern, matcher := [.ofValues ["v"]] }]

def smallPipeline : Pipeline where
  ignore := ⟨{ part := .ignore }, []⟩
  categories := [⟨"c", .filename, ⟨{ part := .category }, [.values ["k"]]⟩⟩,
    ⟨"t", .text, ⟨{ part := .category, rule := 1 }, [.values ["x"]]⟩⟩]
  nodes := [⟨"n", letterPattern, ⟨{ part := .node }, [.values ["v"]]⟩⟩]
  categoryNormalizers := []
  nodeNormalizers := []

/-- one file of one line -/
def smallTree : FileNode := .dir [("f", .file [97, 10])]

/-- the path of the file and a blank line -/
def smallInput : Source := { bytes := [102, 10, 10] }

theorem smallPipeline_functional {files : FileNode} {env : Environment} : smallPipeline.Functional files env := by
  intro part i c hc s hs
  cases part with
  | alone => cases hc
  | ignore =>
    rcases i with - | i <;> cases hc
    cases hs
  | category =>
    rcases i with - | - | i <;> cases hc <;> cases List.mem_singleton.1 hs <;> trivial
  | node =>
    rcases i with - | i <;> cases hc
    cases List.mem_singleton.1 hs
    trivial
  | categoryNormalizer => cases hc
  | nodeNormalizer => cases hc

theorem smallPipeline_built : Pipeline.build ⟨[]⟩ smallConfig = .ok smallPipeline := rfl

/-- the record of the file -/
def smallRecord : Record where
  root := { number := 1, text := "f" }
  line := { path := "f", number := 1, content := "a" }
  category := ⟨⟨0, "c", .ok "k"⟩, .identity "k"⟩
  node := some ⟨⟨0, "n", .ok "v"⟩, .identity "v"⟩

/-! ## Runs and enumerations -/

/-- **A run is the nested enumeration.** Let a pipeline be built from a configuration, with stages that are functions
of their candidates, and let it be fresh or have served any runs. In a run whose signal stays down:
- if nothing in the enumeration fails, the run succeeds, the output is the lines of the records of the enumeration, and
  the summary counts the lines of the input that are not blank, the lines of the walks through them and the records;
- otherwise the run fails with the first failure, and the output is the lines of the records before it. -/
theorem Pipeline.run_eq_enumeration {files : FileNode} {env : Environment} {c : Config} {built : Pipeline}
    (hbuild : Pipeline.build env c = .ok built) (categoryOnly : Bool)
    (hfunctional : { built with categoryOnly := categoryOnly }.Functional files env)
    {ws : Workspace} (hserved : { built with categoryOnly := categoryOnly }.Served files env ws) (input : Source) :
    let p : Pipeline := { built with categoryOnly := categoryOnly }
    let events := p.enumeration files env input
    let r := (p.run input).run { workspace := ws.under fun _ => false }
    ((∀ e ∈ events, e.isFail = false) →
      r.1 = .ok ⟨(roots input).length, (p.lines files env input).length, (recordsOf events).length⟩ ∧
        r.2.output.text = String.join ((recordsOf events).map Record.row)) ∧
      ∀ before e after, events = before ++ .fail e :: after → (∀ x ∈ before, x.isFail = false) →
        r.1 = .error e ∧ r.2.output.text = String.join ((recordsOf before).map Record.row) := by
  intro p events r
  have hplaced : p.Placed := build_placed hbuild categoryOnly
  have hkept : (ws.under fun _ => false).KeptUnder p files env fun _ => false :=
    (Served.kept hfunctional hplaced hserved).under _
  obtain ⟨done, hdone, hends⟩ := (run_played hfunctional hplaced input (s := ⟨_, {}, {}⟩) hkept).2 nofun
  have htext : r.2.output.text = String.join ((recordsOf done).map Record.row) :=
    hdone.text.trans String.empty_append
  have hsummary : r.2.summary = done.foldl Event.tally {} := hdone.summary
  refine ⟨fun hgood => ?_, fun before e after hevents hbefore => ?_⟩
  · rcases hends.of_noFail hgood with ⟨hr, rfl⟩ | ⟨-, hrises, -⟩
    · exact ⟨hr.trans (congrArg Except.ok (hsummary.trans (enumeration_tally hgood))), htext⟩
    · exact absurd hrises not_rises_silent
  · rw [show p.enumeration files env input = _ from hevents] at hends
    rcases hends.of_fail hbefore hdone.noFail with ⟨hr, rfl⟩ | ⟨-, hrises⟩
    · exact ⟨hr, htext⟩
    · exact absurd hrises not_rises_silent

/-- the file, which breaks behind its line -/
def brokenTree : FileNode := .dir [("f", .file [97, 10] (some (.broken (.other "disk on fire"))))]

/-- behind a run that the signal ended at once, the pipeline finds the record of the file; if the file breaks behind its
line, the run fails with that, behind the record -/
theorem Pipeline.run_eq_enumeration_small :
    let first := (smallPipeline.run smallInput).run
      { workspace := { world := { files := smallTree, signal := fun _ => true } } }
    let r := (smallPipeline.run smallInput).run { workspace := first.2.workspace.under fun _ => false }
    let broken := (smallPipeline.run smallInput).run
      { workspace := ({ world := World.fresh brokenTree ⟨[]⟩ } : Workspace).under fun _ => false }
    first.1 = .error .cancelled ∧ r.1 = .ok ⟨1, 1, 1⟩ ∧ r.2.output.text = smallRecord.row ∧
      broken.1 = .error (.lineRead "at f:2:" (.read (.other "disk on fire"))) ∧
      broken.2.output.text = smallRecord.row := by
  have hserved : smallPipeline.Served smallTree ⟨[]⟩ _ := .run .fresh (fun _ => true) smallInput {}
  have hrun :=
    (run_eq_enumeration smallPipeline_built false smallPipeline_functional hserved smallInput).1 (by decide +kernel)
  have hevents : smallPipeline.enumeration brokenTree ⟨[]⟩ smallInput = [.root, .line, .record smallRecord] ++
      .fail (.lineRead "at f:2:" (.read (.other "disk on fire"))) :: [] := by cbv
  have hfresh : smallPipeline.Served brokenTree ⟨[]⟩ _ := .fresh
  have hbroken :=
    (run_eq_enumeration smallPipeline_built false smallPipeline_functional hfresh smallInput).2 _ _ _ hevents (by decide)
  exact ⟨by rfl, hrun.1.trans (by decide +kernel), hrun.2.trans (by decide +kernel), hbroken.1,
    hbroken.2.trans (by decide +kernel)⟩

end Gleaner
