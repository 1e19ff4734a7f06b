/-
Runs that stop behind the categories.

Rules for nodes have sessions of their own and keep their rewritten texts by themselves, so categories and labels see
nothing of them but the files (`Question.answer_alike`, `Question.answer_beside`). A run is followed step by step by one
that stops behind the categories: where the one looks for nodes in a line, the other writes one record, and as long as
looking for nodes leaves the files as they were, both are in states that are alike (`Traced.Shadows`).

Results:
- `Traced.Shadows.bind`, `Traced.Shadows.forIn`, `Traced.Shadows.ask`: parts of a run one after the other, loops and
  questions;
- `Pipeline.tracedNodes_shadows`: the nodes in a line, and the record instead of them;
- `Pipeline.run_shadows`: runs, from any states that are alike;
- `Pipeline.categoryOnly_projects`: runs of a pipeline that was built.
-/
import Gleaner.Proofs.Asking
import Gleaner.Proofs.Histories
import Gleaner.Proofs.Runs
import Gleaner.Proofs.Scopes
import Gleaner.Proofs.Writing

namespace Gleaner

/-! ## Lists that repeat others -/

/-- a list that arises from another where each member is repeated in its place, or left out -/
inductive Stretched {α : Type} : List α → List α → Prop where
  | nil : Stretched [] []
  | cons (x : α) (k : Nat) {xs ys : List α} (h : Stretched xs ys) : Stretched (x :: xs) (List.replicate k x ++ ys)

theorem Stretched.append {α : Type} {xs xs' ys ys' : List α} (h : Stretched xs ys) (h' : Stretched xs' ys') :
    Stretched (xs ++ xs') (ys ++ ys') := by
  induction h with
  | nil => exact h'
  | cons x k _ ih =>
    rw [List.cons_append, List.append_assoc]
    exact .cons x k ih

/-! ## What nodes leave alone -/

/-- whether what categories see belongs to a part -/
def Part.classifies : Part → Bool
  | .node | .nodeNormalizer => false
  | _ => true

/-- two workspaces look the same to all but the rules for nodes -/
structure Workspace.Alike (ws ws' : Workspace) : Prop where
  world : World.Alike Part.classifies ws.world ws'.world
  categories : ws.categories = ws'.categories
  categoryNormalizers : ws.categoryNormalizers = ws'.categoryNormalizers

namespace Workspace.Alike

variable {ws ws' ws'' : Workspace}

theorem refl (ws : Workspace) : ws.Alike ws := ⟨.refl _, rfl, rfl⟩

theorem symm (h : ws.Alike ws') : ws'.Alike ws :=
  ⟨h.world.symm, h.categories.symm, h.categoryNormalizers.symm⟩

theorem trans (h : ws.Alike ws') (h' : ws'.Alike ws'') : ws.Alike ws'' :=
  ⟨h.world.trans h'.world, h.categories.trans h'.categories, h.categoryNormalizers.trans h'.categoryNormalizers⟩

/-- the same action in two workspaces that look the same -/
theorem act {α : Type} {a : Act α} (ha : a.Within Part.classifies) (h : ws.Alike ws') :
    (Workspace.act a ws).1 = (Workspace.act a ws').1 ∧ (Workspace.act a ws).2.Alike (Workspace.act a ws').2 := by
  obtain ⟨hresult, hworld⟩ := ha _ _ h.world
  exact ⟨hresult, hworld, h.categories, h.categoryNormalizers⟩

theorem selectCategories {rules : List CategorySelector} {path : String}
    (hrules : (Gleaner.selectCategories rules path).Within Part.classifies) (h : ws.Alike ws') :
    (Workspace.selectCategories rules path ws).1 = (Workspace.selectCategories rules path ws').1 ∧
      (Workspace.selectCategories rules path ws).2.Alike (Workspace.selectCategories rules path ws').2 := by
  obtain ⟨hfound, hworld⟩ := hrules _ _ h.world
  cases hkept : ws.categories.get? path with
  | some kept =>
    have hkept' : ws'.categories.get? path = some kept := by rw [← h.categories, hkept]
    rw [selectCategories_hit hkept, selectCategories_hit hkept']
    exact ⟨rfl, h⟩
  | none =>
    have hnone : ws'.categories.get? path = none := by rw [← h.categories, hkept]
    cases hcut : (Gleaner.selectCategories rules path ws.world).1.any Selection.isCancelled with
    | true =>
      have hcut' := hcut
      rw [hfound] at hcut'
      rw [selectCategories_unstored hkept hcut, selectCategories_unstored hnone hcut']
      exact ⟨hfound, hworld, h.categories, h.categoryNormalizers⟩
    | false =>
      have hcut' := hcut
      rw [hfound] at hcut'
      rw [selectCategories_stored hkept hcut, selectCategories_stored hnone hcut', hfound, h.categories]
      exact ⟨rfl, hworld, rfl, h.categoryNormalizers⟩

theorem normalizeCategory {rules : List Normalizer} {label : String}
    (hrules : (normalize rules label).Within Part.classifies) (h : ws.Alike ws') :
    (Workspace.normalizeCategory rules label ws).1 = (Workspace.normalizeCategory rules label ws').1 ∧
      (Workspace.normalizeCategory rules label ws).2.Alike (Workspace.normalizeCategory rules label ws').2 := by
  obtain ⟨hfound, hworld⟩ := hrules _ _ h.world
  unfold Workspace.normalizeCategory
  cases hkept : ws.categoryNormalizers.get? label with
  | some kept =>
    have hkept' : ws'.categoryNormalizers.get? label = some kept := by rw [← h.categoryNormalizers, hkept]
    rw [getOrTry_hit _ _ hkept, getOrTry_hit _ _ hkept']
    exact ⟨rfl, h⟩
  | none =>
    have hnone : ws'.categoryNormalizers.get? label = none := by rw [← h.categoryNormalizers, hkept]
    cases hvalue : (normalize rules label ws.world).1.toOption with
    | none =>
      have hvalue' := hvalue
      rw [hfound] at hvalue'
      rw [getOrTry_unstored _ _ hkept hvalue, getOrTry_unstored _ _ hnone hvalue']
      exact ⟨hfound, hworld, h.categories, h.categoryNormalizers⟩
    | some kept =>
      have hvalue' := hvalue
      rw [hfound] at hvalue'
      rw [getOrTry_stored _ _ (fun _ => rfl) hkept hvalue, getOrTry_stored _ _ (fun _ => rfl) hnone hvalue']
      exact ⟨hfound, hworld, h.categories, by rw [h.categoryNormalizers]⟩

/-- a text of a node, rewritten -/
theorem normalizeNode {rules : List Normalizer} {value : String}
    (hrules : (normalize rules value).Outside Part.classifies)
    (hfiles : (Workspace.normalizeNode rules value ws).2.world.files = ws.world.files) :
    ws.Alike (Workspace.normalizeNode rules value ws).2 := by
  obtain ⟨world, kept, hws, hworld⟩ := normalizeNode_leaves rules value ws
  rw [hws] at hfiles ⊢
  refine ⟨⟨?_, hfiles.symm⟩, rfl, rfl⟩
  rcases hworld with rfl | rfl
  · exact .refl _
  · exact hrules ws.world

end Workspace.Alike

/-! ## Questions -/

namespace Question

/-- what is asked only by a run that looks for nodes -/
def forNodes : Question → Bool
  | .nodes _ _ | .rewriteValue _ => true
  | _ => false

/-- whether nodes in a line are asked for -/
def isNodes : Question → Bool
  | .nodes _ _ => true
  | _ => false

/-- finding the answer leaves the files as they were -/
def Spares (p : Pipeline) (ws : Workspace) (q : Question) : Prop := (q.answer p ws).2.world.files = ws.world.files

variable {p : Pipeline} {q : Question} {ws ws' : Workspace}

theorem rule_place (hplaced : p.Placed) {α : Type} {rules : List α} (chain : α → Chain) (part : Part)
    (hrules : ∀ i, p.chainAt part i = rules[i]?.map chain) {rule : α} (hrule : rule ∈ rules) :
    (chain rule).place.part = part := by
  obtain ⟨i, hi⟩ := List.mem_iff_getElem?.1 hrule
  have hchain : p.chainAt part i = some (chain rule) := by rw [hrules, hi, Option.map_some]
  rw [hplaced part i _ hchain]

/-- **What is not for nodes** is answered alike where everything looks the same to it. -/
theorem answer_alike (hplaced : p.Placed) (hq : q.forNodes = false) (h : ws.Alike ws') :
    (q.answer p ws).1 = (q.answer p ws').1 ∧ (q.answer p ws).2.Alike (q.answer p ws').2 := by
  have hseeing := Act.Seeing.within Part.classifies
  cases q with
  | nodes => cases hq
  | rewriteValue => cases hq
  | walk root =>
    have hignore : p.ignore.place = ⟨.ignore, 0, 0⟩ := hplaced .ignore 0 p.ignore rfl
    exact h.act (Walker.walk_closed hseeing (Chain.run_within (by rw [hignore]; rfl)))
  | categories path =>
    refine h.selectCategories (Selection.selectAll_closed hseeing.toClosed (fun rule hrule => ?_) 0)
    have hpart := rule_place hplaced CategorySelector.chain .category (fun _ => rfl) hrule
    exact CategorySelector.select_closed hseeing trivial (Chain.run_within (by rw [hpart]; rfl)) path
  | rewriteLabel label =>
    refine h.normalizeCategory (normalizeFrom_closed hseeing.toClosed (fun n hn => ?_) 0)
    have hpart := rule_place hplaced Normalizer.chain .categoryNormalizer (fun _ => rfl) hn
    exact Normalizer.run_closed hseeing.toClosed trivial trivial (Chain.run_within (by rw [hpart]; rfl) label)

/-- **What is for nodes** changes nothing that others see, if it leaves the files as they were. -/
theorem answer_beside (hplaced : p.Placed) (hq : q.forNodes = true) (hfiles : q.Spares p ws) :
    ws.Alike (q.answer p ws).2 := by
  have hclosed := Act.Closed.outside Part.classifies
  cases q with
  | walk => cases hq
  | categories => cases hq
  | rewriteLabel => cases hq
  | nodes category content =>
    have hnodes : (selectNodes p.nodes category content).Outside Part.classifies := by
      refine Selection.selectAll_closed hclosed (fun rule hrule => ?_) 0
      have hpart := rule_place hplaced NodeSelector.chain .node (fun _ => rfl) hrule
      exact NodeSelector.select_closed hclosed trivial (Chain.run_outside (by rw [hpart]; rfl)) _ _
    exact ⟨⟨hnodes ws.world, hfiles.symm⟩, rfl, rfl⟩
  | rewriteValue value =>
    refine .normalizeNode (normalizeFrom_closed hclosed (fun n hn => ?_) 0) hfiles
    have hpart := rule_place hplaced Normalizer.chain .nodeNormalizer (fun _ => rfl) hn
    exact Normalizer.run_closed hclosed trivial trivial (Chain.run_outside (by rw [hpart]; rfl) value)

/-- stages that leave the files as they were spare them -/
theorem spares_of_still (hnodes : ∀ rule ∈ p.nodes, ∀ s ∈ rule.chain.stages, s.Still)
    (hnormalizers : ∀ n ∈ p.nodeNormalizers, ∀ s ∈ n.chain.stages, s.Still) (hq : q.forNodes = true) :
    q.Spares p ws := by
  cases q with
  | walk => cases hq
  | categories => cases hq
  | rewriteLabel => cases hq
  | nodes category content =>
    refine Selection.selectAll_closed .still (fun rule hrule => ?_) 0 ws.world
    exact NodeSelector.select_closed .still trivial (Chain.run_still (hnodes rule hrule)) _ _
  | rewriteValue value =>
    have hstill : (normalize p.nodeNormalizers value).Still :=
      normalizeFrom_closed .still
        (fun n hn => Normalizer.run_closed .still trivial trivial (Chain.run_still (hnormalizers n hn) value)) 0
    obtain ⟨world, kept, hws, hworld⟩ := Workspace.normalizeNode_leaves p.nodeNormalizers value ws
    change (Workspace.normalizeNode p.nodeNormalizers value ws).2.world.files = _
    rw [hws]
    rcases hworld with rfl | rfl
    · rfl
    · exact hstill ws.world

end Question

/-! ## Parts of a run side by side -/

/-- a record of a run that stops behind the categories -/
def Record.withoutNode (r : Record) : Record := { r with node := none }

/-- the events of a run, and those of one that stops behind the categories -/
structure Mirrors (done done' : List Event) : Prop where
  roots : done'.countP Event.isRoot = done.countP Event.isRoot
  lines : done'.countP Event.isLine = done.countP Event.isLine
  plain : ∀ r ∈ recordsOf done', r.node = none
  records : Stretched (recordsOf done') ((recordsOf done).map Record.withoutNode)

theorem recordsOf_append (xs ys : List Event) : recordsOf (xs ++ ys) = recordsOf xs ++ recordsOf ys :=
  List.filterMap_append

theorem Mirrors.refl {done : List Event} (h : recordsOf done = []) : Mirrors done done := by
  refine ⟨rfl, rfl, ?_, ?_⟩
  · rw [h]
    exact List.forall_mem_nil _
  · rw [h]
    exact .nil

theorem Mirrors.append {xs xs' ys ys' : List Event} (h : Mirrors xs ys) (h' : Mirrors xs' ys') :
    Mirrors (xs ++ xs') (ys ++ ys') := by
  refine ⟨?_, ?_, ?_, ?_⟩
  · rw [List.countP_append, List.countP_append, h.roots, h'.roots]
  · rw [List.countP_append, List.countP_append, h.lines, h'.lines]
  · rw [recordsOf_append]
    exact List.forall_mem_append.2 ⟨h.plain, h'.plain⟩
  · rw [recordsOf_append, recordsOf_append, List.map_append]
    exact h.records.append h'.records

/-- a part of a run that has no end of room, or does not fail -/
def Run.Clear {α : Type} (m : Run α) (s : RunState) : Prop := s.output.limit = none ∨ ∃ a, (m.run s).1 = .ok a

section

variable {α β : Type} {m : Run α} {f : α → Run β} {s s₁ : RunState}

theorem Run.Clear.left (h : (m >>= f).Clear s) : m.Clear s := by
  refine h.imp_right fun ⟨b, hb⟩ => ?_
  rcases hrun : m.run s with ⟨e | a, s₁⟩
  · rw [bind_run, hrun] at hb
    cases hb
  · exact ⟨a, rfl⟩

theorem Run.Clear.right (h : (m >>= f).Clear s) {a : α} (hrun : m.run s = (.ok a, s₁)) {done : List Event}
    (hdid : Did done s s₁) : (f a).Clear s₁ := by
  refine h.imp hdid.limit.trans fun ⟨b, hb⟩ => ⟨b, ?_⟩
  rwa [bind_of_ok hrun] at hb

/-- a record that is written -/
theorem writeRecord_of_clear {r : Record} (h : (Pipeline.writeRecord r).Clear s) :
    ((Pipeline.writeRecord r).run s).1 = .ok ⟨⟩ ∧ ((Pipeline.writeRecord r).run s).2.workspace = s.workspace ∧
      Did [.record r] s ((Pipeline.writeRecord r).run s).2 := by
  have hrun : (Pipeline.writeRecord r).run s =
      (.ok ⟨⟩, ⟨s.workspace, s.output.written (r.json.pieces ++ ["\n"]), Event.tally s.summary (.record r)⟩) := by
    rcases h with hlimit | ⟨u, hok⟩
    · exact writeRecord_of_fits (Output.fits_of_unlimited hlimit _)
    · exact writeRecord_of_ok hok
  rw [hrun]
  exact ⟨rfl, rfl, List.forall_mem_singleton.2 rfl, by rw [Event.record_pieces], rfl⟩

end

namespace Traced

variable {α β : Type} {p : Pipeline}

/-- all that is asked for nodes leaves the files as they were -/
def Gentle (p : Pipeline) (t : Traced α) (s : RunState) : Prop :=
  ∀ x ∈ t.asks s, x.1.forNodes = true → x.1.Spares p x.2

/-- how often nodes in a line are asked for -/
def lookups (t : Traced α) (s : RunState) : Nat := (t.asks s).countP (·.1.isNodes)

/-- a part of a run that has given `a`, and a part of one that stops behind the categories: they have given the same
and have left workspaces that are alike, and the one has asked for nodes as often as the other has written records -/
structure Shadowed (t : Traced α) (m : Run α) (s s' : RunState) (a : α) : Prop where
  value : (m.run s').1 = .ok a
  alike : (t.part.run s).2.workspace.Alike (m.run s').2.workspace
  did : ∃ done done', Did done s (t.part.run s).2 ∧ Did done' s' (m.run s').2 ∧ Mirrors done done' ∧
    t.lookups s = (recordsOf done').length

/-- a part of a run is followed by one of a run that stops behind the categories, unless that has no room -/
def Shadows (p : Pipeline) (t : Traced α) (m : Run α) : Prop :=
  ∀ s s' a, m.Clear s' → s.workspace.Alike s'.workspace → t.Gentle p s → (t.part.run s).1 = .ok a →
    Shadowed t m s s' a

namespace Shadows

/-- **Parts one after the other** -/
theorem bind {t : Traced α} {m : Run α} {f : α → Traced β} {g : α → Run β} (h : Shadows p t m)
    (hf : ∀ a, Shadows p (f a) (g a)) : Shadows p (t >>= f) (m >>= g) := by
  intro s s' b hclear halike hgentle hok
  obtain ⟨a, s₁, hrun, hok⟩ := exists_of_bind hok
  have hasks := bind_asks (f := f) hrun
  rw [Gentle, hasks, List.forall_mem_append] at hgentle
  have hfirst := h s s' a hclear.left halike hgentle.1 (by rw [hrun])
  obtain ⟨done, done', hdone, hdone', hmirrors, hcount⟩ := hfirst.did
  rcases hrun' : m.run s' with ⟨r, s₁'⟩
  have hvalue := hfirst.value
  have hmiddle := hfirst.alike
  rw [hrun'] at hvalue hmiddle hdone'
  rw [hrun] at hmiddle hdone
  cases hvalue
  have hrest := hf a s₁ s₁' b (hclear.right hrun' hdone') hmiddle hgentle.2 hok
  obtain ⟨more, more', hmore, hmore', hmirrorsMore, hcountMore⟩ := hrest.did
  have hboth : (t >>= f).part.run s = (f a).part.run s₁ := bind_run hrun
  have hboth' : (m >>= g).run s' = (g a).run s₁' := Run.bind_of_ok hrun' g
  refine ⟨?_, ?_, done ++ more, done' ++ more', ?_, ?_, hmirrors.append hmirrorsMore, ?_⟩
  · rw [hboth']
    exact hrest.value
  · rw [hboth, hboth']
    exact hrest.alike
  · rw [hboth]
    exact hdone.trans hmore
  · rw [hboth']
    exact hdone'.trans hmore'
  · rw [lookups, hasks, List.countP_append, recordsOf_append, List.length_append, ← hcount, ← hcountMore]
    rfl

/-- a part that looks for no nodes and does the same in both -/
theorem alike {t : Traced α} {m : Run α} {done : List Event} (hrecords : recordsOf done = [])
    (hlookups : ∀ s, t.lookups s = 0) (hdid : ∀ s, Did done s (t.part.run s).2) (hdid' : ∀ s, Did done s (m.run s).2)
    (h : ∀ s s', s.workspace.Alike s'.workspace → (t.part.run s).1 = (m.run s').1 ∧
      (t.part.run s).2.workspace.Alike (m.run s').2.workspace) : Shadows p t m := by
  intro s s' a _ halike _ hok
  obtain ⟨hvalue, hworkspace⟩ := h s s' halike
  refine ⟨hvalue.symm.trans hok, hworkspace, done, done, hdid s, hdid' s', .refl hrecords, ?_⟩
  rw [hlookups, hrecords]
  rfl

theorem pure (a : α) : Shadows p (Pure.pure a) (Pure.pure a) :=
  alike rfl (fun _ => rfl) Did.refl Did.refl fun _ _ h => ⟨rfl, h⟩

/-- a part that fails is not followed -/
theorem fail (e : RunError) (m : Run α) : Shadows p (.quiet (throw e)) m := fun _ _ _ _ _ _ hok => nomatch hok

theorem lift {a : StateM Workspace α} (h : ∀ ws ws' : Workspace, ws.Alike ws' →
    (a ws).1 = (a ws').1 ∧ (a ws).2.Alike (a ws').2) : Shadows p (.quiet (Run.lift a)) (Run.lift a) :=
  alike rfl (fun _ => rfl) (fun _ => .nothing rfl rfl) (fun _ => .nothing rfl rfl) fun s s' hs => by
    obtain ⟨hvalue, hworkspace⟩ := h _ _ hs
    exact ⟨congrArg Except.ok hvalue, hworkspace⟩

theorem act {a : Act α} (ha : a.Within Part.classifies) : Shadows p (.quiet (Run.act a)) (Run.act a) :=
  lift fun _ _ h => h.act ha

/-- a question that is not for nodes -/
theorem ask (hplaced : p.Placed) {q : Question} (hq : q.forNodes = false) :
    Shadows p (.ask p q) (Run.lift (q.answer p)) := by
  have hnodes : q.isNodes = false := by cases q <;> first | rfl | cases hq
  refine alike rfl (fun s => ?_) (fun _ => .nothing rfl rfl) (fun _ => .nothing rfl rfl) fun s s' hs => ?_
  · change [(q, s.workspace)].countP _ = 0
    simp [hnodes]
  · obtain ⟨hvalue, hworkspace⟩ := Question.answer_alike hplaced hq hs
    exact ⟨congrArg Except.ok hvalue, hworkspace⟩

theorem checkSignal : Shadows p (.quiet Run.checkSignal) Run.checkSignal := by
  unfold Run.checkSignal
  rw [quiet_bind]
  refine (act .cancelled).bind fun up => ?_
  cases up with
  | true => exact fail _ _
  | false => exact pure _

/-- what is counted alike -/
theorem count {e : Event} (hpieces : e.pieces = []) (hfail : e.isFail = false) (hrecord : e.record? = none) :
    Shadows p (.quiet (Run.count fun s => e.tally s)) (Run.count fun s => e.tally s) := by
  have hdid : ∀ s : RunState, Did [e] s { s with summary := e.tally s.summary } := fun s =>
    ⟨List.forall_mem_singleton.2 hfail, by rw [List.flatMap_singleton, hpieces]; rfl, rfl⟩
  have hnone : recordsOf [e] = [] := List.filterMap_cons_none hrecord
  exact alike hnone (fun _ => rfl) hdid hdid fun _ _ h => ⟨rfl, h⟩

theorem forIn {l : List α} {body : α → PUnit → Traced (ForInStep PUnit)} {rounds : α → PUnit → Run (ForInStep PUnit)}
    (h : ∀ x, Shadows p (body x ⟨⟩) (rounds x ⟨⟩)) : Shadows p (ForIn.forIn l ⟨⟩ body) (ForIn.forIn l ⟨⟩ rounds) := by
  induction l with
  | nil => exact pure _
  | cons x rest ih =>
    rw [List.forIn_cons, List.forIn_cons]
    refine (h x).bind fun step => ?_
    cases step with
    | done => exact pure _
    | yield => exact ih

/-- a part that may be left out -/
theorem guard {c : Bool} {t : Traced PUnit} {m : Run PUnit} {f : PUnit → Traced β} {g : PUnit → Run β}
    (h : Shadows p t m) (hf : ∀ u, Shadows p (f u) (g u)) :
    Shadows p (if c then t >>= f else f ⟨⟩) (if c then m >>= g else g ⟨⟩) := by
  cases c with
  | true => exact h.bind hf
  | false => exact hf ⟨⟩

/-- going through an entry of a rule -/
theorem entry {stage : String} {line : FileLine} {s : Selection} {k : Option String → Traced β}
    {k' : Option String → Run β} (h : ∀ found, Shadows p (k found) (k' found)) :
    Shadows p (.quiet (Pipeline.selected? stage line s) >>= k) (Pipeline.selected? stage line s >>= k') := by
  refine bind ?_ h
  unfold Pipeline.selected?
  cases s.outcome with
  | ok text => exact pure _
  | error e =>
    simp only
    split
    · exact pure _
    · exact fail _ _

/-- rewritten texts -/
theorem texts {stage : String} {line : FileLine} {answer : Traced (Except MatchError (List Normalized))}
    {m : StateM Workspace (Except MatchError (List Normalized))} (h : Shadows p answer (Run.lift m)) :
    Shadows p (Pipeline.tracedTexts stage line answer) (Pipeline.normalized stage line m) := by
  refine h.bind fun found => ?_
  cases found with
  | ok texts => exact pure texts
  | error e => exact fail _ _

end Shadows

/-! ## Looking for nodes -/

/-- a part of a run that came to an end has left what is not for nodes alone and has written records that are one and
the same without their nodes -/
structure Dwelt (r : Record) (t : Traced α) (s : RunState) : Prop where
  alike : s.workspace.Alike (t.part.run s).2.workspace
  did : ∃ done, Did done s (t.part.run s).2 ∧ ∀ e ∈ done, ∃ node, e = .record { r with node := node }
  lookups : t.lookups s = 0

/-- a part of a run that writes one record with different nodes, if it asks for them gently -/
def Dwells (p : Pipeline) (r : Record) (t : Traced α) : Prop :=
  ∀ s a, t.Gentle p s → (t.part.run s).1 = .ok a → t.Dwelt r s

namespace Dwells

variable {r : Record}

theorem bind {t : Traced α} {f : α → Traced β} (h : Dwells p r t) (hf : ∀ a, Dwells p r (f a)) :
    Dwells p r (t >>= f) := by
  intro s b hgentle hok
  obtain ⟨a, s₁, hrun, hok⟩ := exists_of_bind hok
  have hasks := bind_asks (f := f) hrun
  rw [Gentle, hasks, List.forall_mem_append] at hgentle
  obtain ⟨halike, ⟨done, hdone, hevents⟩, hnone⟩ := h s a hgentle.1 (by rw [hrun])
  rw [hrun] at halike hdone
  obtain ⟨halikeMore, ⟨more, hmore, heventsMore⟩, hnoneMore⟩ := hf a s₁ b hgentle.2 hok
  have hboth : (t >>= f).part.run s = (f a).part.run s₁ := bind_run hrun
  refine ⟨?_, ⟨done ++ more, ?_, List.forall_mem_append.2 ⟨hevents, heventsMore⟩⟩, ?_⟩
  · rw [hboth]
    exact halike.trans halikeMore
  · rw [hboth]
    exact hdone.trans hmore
  · rw [lookups, hasks, List.countP_append]
    exact Nat.add_eq_zero_iff.2 ⟨hnone, hnoneMore⟩

theorem pure (a : α) : Dwells p r (Pure.pure a) := fun s _ _ _ =>
  ⟨.refl _, ⟨[], .refl s, List.forall_mem_nil _⟩, rfl⟩

theorem fail (e : RunError) : Dwells p r (.quiet (throw e) : Traced α) := fun _ _ _ hok => nomatch hok

/-- a text of a node, rewritten -/
theorem rewriteValue (hplaced : p.Placed) (value : String) : Dwells p r (.ask p (.rewriteValue value)) := by
  intro s a hgentle _
  have hspares := hgentle (.rewriteValue value, s.workspace) (List.mem_singleton.2 rfl) rfl
  exact ⟨Question.answer_beside hplaced rfl hspares, ⟨[], .nothing rfl rfl, List.forall_mem_nil _⟩, rfl⟩

theorem writeRecord (node : Option Selected) :
    Dwells p r (.quiet (Pipeline.writeRecord { r with node := node })) := by
  intro s a _ hok
  obtain ⟨-, hworkspace, hdid⟩ := writeRecord_of_clear (.inr ⟨a, hok⟩)
  refine ⟨?_, ⟨_, hdid, List.forall_mem_singleton.2 ⟨node, rfl⟩⟩, rfl⟩
  change s.workspace.Alike ((Pipeline.writeRecord { r with node := node }).run s).2.workspace
  rw [hworkspace]
  exact .refl _

theorem forIn {l : List α} {body : α → PUnit → Traced (ForInStep PUnit)} (h : ∀ x, Dwells p r (body x ⟨⟩)) :
    Dwells p r (ForIn.forIn l ⟨⟩ body) := by
  induction l with
  | nil => exact pure _
  | cons x rest ih =>
    rw [List.forIn_cons]
    refine (h x).bind fun step => ?_
    cases step with
    | done => exact pure _
    | yield => exact ih

/-- going through an entry of a rule -/
theorem entry {stage : String} {line : FileLine} {s : Selection} {k : Option String → Traced β}
    (h : ∀ found, Dwells p r (k found)) : Dwells p r (.quiet (Pipeline.selected? stage line s) >>= k) := by
  refine bind ?_ h
  unfold Pipeline.selected?
  cases s.outcome with
  | ok text => exact pure _
  | error e =>
    simp only
    split
    · exact pure _
    · exact fail _

/-- rewritten texts -/
theorem texts {stage : String} {line : FileLine} {answer : Traced (Except MatchError (List Normalized))}
    (h : Dwells p r answer) : Dwells p r (Pipeline.tracedTexts stage line answer) := by
  refine h.bind fun found => ?_
  cases found with
  | ok texts => exact pure texts
  | error e => exact fail _

/-- the records that are written are one record of a run that stops behind the categories, repeated -/
theorem mirrors {done : List Event} (hr : r.node = none)
    (h : ∀ e ∈ done, ∃ node, e = .record { r with node := node }) : Mirrors done [.record r] := by
  have hrecords : (recordsOf done).map Record.withoutNode = List.replicate done.length r := by
    induction done with
    | nil => rfl
    | cons e rest ih =>
      obtain ⟨node, rfl⟩ := h _ List.mem_cons_self
      rw [List.length_cons, List.replicate_succ, ← ih fun e he => h e (List.mem_cons_of_mem _ he)]
      obtain ⟨root, line, category, plain⟩ := r
      cases hr
      rfl
  refine ⟨?_, ?_, List.forall_mem_singleton.2 hr, ?_⟩
  · refine (List.countP_eq_zero.2 fun e he => ?_).symm
    obtain ⟨node, rfl⟩ := h e he
    exact Bool.false_ne_true
  · refine (List.countP_eq_zero.2 fun e he => ?_).symm
    obtain ⟨node, rfl⟩ := h e he
    exact Bool.false_ne_true
  · rw [hrecords, ← List.append_nil (List.replicate _ _)]
    exact .cons r _ .nil

end Dwells

/-- **Looking for nodes**, and one record instead of them -/
theorem Shadows.looks (hplaced : p.Placed) {r : Record} (hr : r.node = none) {category content : String}
    {loop : List Selection → Traced Unit} (hloop : ∀ nodes, Dwells p r (loop nodes)) :
    Shadows p (.ask p (.nodes category content) >>= loop) (Pipeline.writeRecord r) := by
  intro s s' a hclear halike hgentle hok
  obtain ⟨nodes, s₁, hfound, hok⟩ := exists_of_bind hok
  have hasks := bind_asks (f := loop) hfound
  rw [Gentle, hasks, List.forall_mem_append] at hgentle
  have hspares := hgentle.1 (.nodes category content, s.workspace) (List.mem_singleton.2 rfl) rfl
  have hs₁ : s₁ = { s with workspace := ((Question.nodes category content).answer p s.workspace).2 } :=
    (congrArg Prod.snd hfound).symm
  have hleft : s.workspace.Alike s₁.workspace := by
    rw [hs₁]
    exact Question.answer_beside hplaced rfl hspares
  obtain ⟨hrest, ⟨done, hdone, hevents⟩, hnone⟩ := hloop nodes s₁ a hgentle.2 hok
  have hdid : Did done s ((loop nodes).part.run s₁).2 :=
    Did.trans (.nothing (by rw [hs₁]) (by rw [hs₁])) hdone
  obtain ⟨hvalue, hworkspace, hdid'⟩ := writeRecord_of_clear hclear
  have hboth : (Traced.ask p (.nodes category content) >>= loop).part.run s = (loop nodes).part.run s₁ :=
    bind_run hfound
  refine ⟨hvalue, ?_, done, [.record r], ?_, hdid', Dwells.mirrors hr hevents, ?_⟩
  · rw [hboth, hworkspace]
    exact (hleft.trans hrest).symm.trans halike
  · rw [hboth]
    exact hdid
  · rw [lookups, hasks, List.countP_append]
    exact congrArg (1 + ·) hnone

end Traced

/-! ## Runs side by side -/

namespace Pipeline

open Traced (Shadows Dwells)

variable {p : Pipeline} (root : ReadLine)

/-- the pipeline that stops behind the categories -/
def stopping (p : Pipeline) : Pipeline := { p with categoryOnly := true }

/-- **The nodes in a line**, and one record instead of them -/
theorem tracedNodes_shadows (hplaced : p.Placed) (line : FileLine) (category : Selected) :
    Shadows p (p.tracedNodes root line category) (writeRecord ⟨root, line, category, none⟩) := by
  unfold tracedNodes
  refine .looks hplaced rfl fun nodes => (Dwells.forIn fun node => ?_).bind .pure
  refine .entry fun found => ?_
  cases found with
  | none => exact .pure _
  | some value =>
    refine (Dwells.texts (.rewriteValue hplaced value)).bind fun found => ?_
    refine (Dwells.forIn fun n => ?_).bind fun _ => .pure _
    exact (Dwells.writeRecord (some ⟨node, n⟩)).bind fun _ => .pure _

variable (p)

theorem tracedLine_shadows (hplaced : p.Placed) (hfull : p.categoryOnly = false) (line : FileLine) :
    Shadows p (p.tracedLine root line) (p.stopping.processLine root line) := by
  unfold tracedLine processLine
  refine (Shadows.ask hplaced rfl).bind fun found => ?_
  refine .guard (.fail _ _) fun _ => (Shadows.forIn fun category => ?_).bind .pure
  refine .entry fun label => ?_
  cases label with
  | none => exact .pure _
  | some label =>
    refine (Shadows.texts (.ask hplaced rfl)).bind fun texts => ?_
    refine (Shadows.forIn fun n => ?_).bind fun _ => .pure _
    have honly : p.stopping.categoryOnly = true := rfl
    simp only [hfull, honly, if_true, if_false, Bool.false_eq_true]
    exact (tracedNodes_shadows root hplaced line ⟨category, n⟩).bind fun _ => .pure _

theorem tracedLines_shadows (hplaced : p.Placed) (hfull : p.categoryOnly = false) (lines : List FileLine) :
    Shadows p (p.tracedLines root lines) (p.stopping.processLines root lines) := by
  induction lines with
  | nil => exact .checkSignal
  | cons line rest ih =>
    unfold tracedLines processLines
    refine Shadows.checkSignal.bind fun _ => ?_
    cases line.error with
    | some e => exact .fail _ _
    | none =>
      refine (Shadows.count (e := .line) rfl rfl rfl).bind fun _ => ?_
      exact (p.tracedLine_shadows root hplaced hfull line).bind fun _ => ih

theorem tracedRoots_shadows (hplaced : p.Placed) (hfull : p.categoryOnly = false) (roots : List ReadLine) :
    Shadows p (p.tracedRoots roots) (p.stopping.processRoots roots) := by
  induction roots with
  | nil => exact .checkSignal
  | cons root rest ih =>
    unfold tracedRoots processRoots
    refine Shadows.checkSignal.bind fun _ => ?_
    cases root.error with
    | some e => exact .fail _ _
    | none =>
      simp only
      cases Text.isBlank root.text with
      | true => exact ih
      | false =>
        refine Shadows.bind ?_ fun _ => ih
        refine (Shadows.count (e := .root) rfl rfl rfl).bind fun _ => ?_
        exact (Shadows.ask hplaced rfl).bind (p.tracedLines_shadows root hplaced hfull)

/-- a run up to its summary, with what it asks -/
def tracedWork (input : Source) : Traced Unit := do
  p.tracedRoots (← .quiet (Run.act (Act.readLines input)))

theorem tracedWork_part (input : Source) : (p.tracedWork input).part = p.work input :=
  congrArg (Run.act (Act.readLines input) >>= ·) (funext fun roots => (p.tracedRoots_alert roots).part)

/-- a run asks nothing for its summary -/
theorem tracedWork_asks (input : Source) (s : RunState) : (p.tracedWork input).asks s = (p.traced input).asks s := by
  have hlines : (Traced.quiet (Run.act (Act.readLines input))).part.run s = (.ok (Act.readLines input s.workspace.world).1,
      { s with workspace := (Workspace.act (Act.readLines input) s.workspace).2 }) := rfl
  unfold traced tracedWork
  rw [Traced.bind_asks hlines, Traced.bind_asks hlines, Traced.asks_of_quiet fun _ _ => rfl]

theorem tracedWork_shadows (hplaced : p.Placed) (hfull : p.categoryOnly = false) (input : Source) :
    Shadows p (p.tracedWork input) (p.stopping.work input) :=
  (Shadows.act (.readLines input)).bind fun roots => p.tracedRoots_shadows hplaced hfull roots

variable {p}

/-- a run that succeeds has done its work and gives what it has counted -/
theorem work_of_ok {input : Source} {s : RunState} {summary : Summary} (hok : ((p.run input).run s).1 = .ok summary) :
    ((p.work input).run s).1 = .ok ⟨⟩ ∧ summary = ((p.run input).run s).2.summary := by
  rw [run_run] at hok ⊢
  cases hresult : ((p.work input).run s).1 with
  | ok u =>
    rw [hresult] at hok
    exact ⟨rfl, (Except.ok.inj hok).symm⟩
  | error e =>
    rw [hresult] at hok
    cases hok

/-- **A run, and one that stops behind the categories**, from workspaces that look the same to all but the rules for
nodes: if the one succeeds, so does the other unless it has no room, with the same roots and lines, and both leave such
workspaces. The one has looked for nodes as often as the other has written records. -/
theorem run_shadows (hplaced : p.Placed) (hfull : p.categoryOnly = false) {input : Source} {s s' : RunState}
    (halike : s.workspace.Alike s'.workspace) (hgentle : (p.traced input).Gentle p s) {full : Summary}
    (hok : ((p.run input).run s).1 = .ok full) (hclear : (p.stopping.run input).Clear s') :
    ∃ preview, ((p.stopping.run input).run s').1 = .ok preview ∧
      ((p.run input).run s).2.workspace.Alike ((p.stopping.run input).run s').2.workspace ∧
      ∃ done done', Did done s ((p.run input).run s).2 ∧ Did done' s' ((p.stopping.run input).run s').2 ∧
        Mirrors done done' ∧ (p.traced input).lookups s = (recordsOf done').length := by
  have hclearWork : (p.stopping.work input).Clear s' := hclear.imp_right fun ⟨_, hb⟩ => ⟨⟨⟩, (work_of_ok hb).1⟩
  have hwork := p.tracedWork_shadows hplaced hfull input s s' ⟨⟩ hclearWork halike
  rw [Traced.Gentle, tracedWork_asks, tracedWork_part] at hwork
  obtain ⟨hvalue, hleft, done, done', hdid, hdid', hmirrors, hlookups⟩ := hwork hgentle (work_of_ok hok).1
  rw [tracedWork_part] at hleft hdid
  rw [Traced.lookups, tracedWork_asks] at hlookups
  rw [run_run, run_run, hvalue]
  exact ⟨_, rfl, hleft, done, done', hdid, hdid', hmirrors, hlookups⟩

/-- a pipeline that was built does not stop behind the categories -/
theorem build_whole {env : Environment} {c : Config} (h : Pipeline.build env c = .ok p) : p.categoryOnly = false := by
  obtain ⟨ignore, -, h⟩ := bind_eq_ok h
  obtain ⟨categories, -, h⟩ := bind_eq_ok h
  obtain ⟨nodes, -, h⟩ := bind_eq_ok h
  obtain ⟨categoryNormalizers, -, h⟩ := bind_eq_ok h
  obtain ⟨nodeNormalizers, -, h⟩ := bind_eq_ok h
  cases h
  rfl

theorem placed_of_build {env : Environment} {c : Config} (h : Pipeline.build env c = .ok p) : p.Placed := by
  have hsame : { p with categoryOnly := false } = p := by rw [← build_whole h]
  rw [← hsame]
  exact build_placed h false

/-- **A run that stops behind the categories is a projection.** Let a pipeline be built from a configuration, and let a
run of it succeed in which whatever looks for nodes or rewrites their texts leaves the files as they were. Then the run
that stops behind the categories succeeds from the same workspace as well, unless it has no room: it counts the same
roots and lines, and the records of the whole run are its records without a node, each repeated in its place or left
out. -/
theorem categoryOnly_projects {env : Environment} {c : Config} {p : Pipeline} (hbuilt : Pipeline.build env c = .ok p)
    (input : Source) (ws : Workspace) (out out' : Output)
    (hgentle : ∀ x ∈ (p.traced input).asks { workspace := ws, output := out },
      x.1.forNodes = true → x.1.Spares p x.2)
    {full : Summary} (hfull : ((p.run input).run { workspace := ws, output := out }).1 = .ok full)
    (hclear : (p.stopping.run input).Clear { workspace := ws, output := out' }) :
    let whole := (p.run input).run { workspace := ws, output := out }
    let stopped := (p.stopping.run input).run { workspace := ws, output := out' }
    ∃ preview, stopped.1 = .ok preview ∧ preview.roots = full.roots ∧ preview.lines = full.lines ∧
      ∃ records previewed : List Record,
        records.length = full.records ∧ previewed.length = preview.records ∧
        whole.2.output.text = out.text ++ String.join (records.map Record.row) ∧
        stopped.2.output.text = out'.text ++ String.join (previewed.map Record.row) ∧
        (∀ r ∈ previewed, r.node = none) ∧ Stretched previewed (records.map Record.withoutNode) := by
  intro whole stopped
  obtain ⟨preview, hpreview, -, done, done', hdid, hdid', hmirrors, -⟩ :=
    run_shadows (placed_of_build hbuilt) (build_whole hbuilt) (.refl ws) hgentle hfull hclear
  have hsummary := (work_of_ok hfull).2.trans (hdid.summary.trans (foldl_tally done _))
  have hsummary' := (work_of_ok hpreview).2.trans (hdid'.summary.trans (foldl_tally done' _))
  refine ⟨preview, hpreview, ?_, ?_, recordsOf done, recordsOf done', ?_, ?_, hdid.text, hdid'.text, hmirrors.plain,
    hmirrors.records⟩
  · rw [hsummary, hsummary', hmirrors.roots]
  · rw [hsummary, hsummary', hmirrors.lines]
  · rw [hsummary]
    exact (Nat.zero_add _).symm
  · rw [hsummary']
    exact (Nat.zero_add _).symm

/-- one category has two nodes, and the other has none -/
theorem categoryOnly_projects_twice :
    let c : Config := {
      category := [{ name := "c", filename := [.ofValues ["k", "l"]] }],
      node := [{ name := "n", category := letterPattern, matcher := [.ofValues ["v", "w"]] }] }
    let ws : Workspace := { world := { files := smallTree } }
    ∃ p, Pipeline.build ⟨[]⟩ c = .ok p ∧ ((p.run smallInput).run { workspace := ws }).1 = .ok ⟨1, 1, 2⟩ ∧
      let stopped := (p.stopping.run smallInput).run { workspace := ws }
      stopped.1 = .ok ⟨1, 1, 2⟩ ∧ ∃ records previewed : List Record,
        records.length = 2 ∧ stopped.2.output.text = "" ++ String.join (previewed.map Record.row) ∧
        Stretched previewed (records.map Record.withoutNode) := by
  intro c ws
  have hbuilt : Pipeline.build ⟨[]⟩ c = .ok _ := rfl
  refine ⟨_, hbuilt, by decide +kernel, by decide +kernel, ?_⟩
  have hproject := @categoryOnly_projects _ c _ hbuilt smallInput ws {} {}
    (fun x _ => Question.spares_of_still (fun rule hrule s hs => by
      cases List.mem_singleton.1 hrule
      cases List.mem_singleton.1 hs
      exact fun _ _ _ => rfl) fun n hn => absurd hn List.not_mem_nil)
    ⟨1, 1, 2⟩ (by decide +kernel) (.inl rfl)
  obtain ⟨-, -, -, -, records, previewed, hlength, -, -, htext, -, hstretched⟩ := hproject
  exact ⟨records, previewed, hlength, htext, hstretched⟩

end Pipeline

end Gleaner
