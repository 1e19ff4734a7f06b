/-
Configurations without Lua.

Only scripts of Lua programs fail with hard errors. So the chains of a configuration without such scripts have a match
or none, and nothing else: its node rules, its normalizers and its ignore chain never fail, and its category rules only
if a file cannot be read to its end. In a tree that shell scripts leave alone and whose files can be read, that happens
at no line of a walk.

`Run.Spared K P m` says of a part of a run that it keeps an invariant and does not fail with a rule. Without Lua that
holds of a whole run (`run_spared`), whatever the signal and the room of its output are, and so no run fails with a rule
(`Pipeline.no_selection_of_luaFree`).
-/
import Gleaner.Proofs.Kinds
import Gleaner.Proofs.Paths
import Gleaner.Proofs.Records

namespace Gleaner

/-! ## Chains -/

/-- a chain without scripts of Lua programs -/
def Chain.LuaFree (c : Chain) : Prop := ∀ s ∈ c.stages, ∀ script, s ≠ .lua script

namespace Chain

theorem applied_stage {s : Stage} {place : Place} {last : Bool} {texts : List String} {w : World} {a : Application}
    (h : a ∈ applied s place last texts w) : a.stage = s := by
  induction texts generalizing w with
  | nil => exact absurd h List.not_mem_nil
  | cons text rest ih =>
    unfold applied at h
    rcases List.mem_cons.1 h with rfl | h
    · rfl
    · split at h
      · exact ih h
      · split at h
        · exact ih h
        · exact absurd h List.not_mem_nil

theorem appliedFrom_stage {place : Place} {stages : List Stage} {texts : List String} {w : World} {a : Application}
    (h : a ∈ appliedFrom place stages texts w) : a.stage ∈ stages := by
  induction stages generalizing place texts w with
  | nil => exact absurd h List.not_mem_nil
  | cons s rest ih =>
    unfold appliedFrom at h
    rcases List.mem_append.1 h with h | h
    · rw [applied_stage h]
      exact List.mem_cons_self
    · split at h
      · exact List.mem_cons_of_mem _ (ih h)
      · exact absurd h List.not_mem_nil

/-- **A chain without Lua never fails**, in any world. -/
theorem LuaFree.soft {c : Chain} (h : c.LuaFree) (input : String) : Act.Always Soft (c.run input) := by
  intro w e he
  cases hhard : e.isUnmatched with
  | true => rfl
  | false =>
    obtain ⟨a, ha, cause, ⟨script, hscript, -⟩, -⟩ := run_hard_iff.1 ⟨he, hhard⟩
    exact absurd hscript (h a.stage (appliedFrom_stage ha) script)

end Chain

/-! ## Rules -/

/-- a result without a hard error has no failure of such a kind -/
theorem Soft.kind_ne {r : MatchResult} (h : Soft r) (cancelled : Bool) : failureKind r ≠ some (false, cancelled) := by
  intro hkind
  obtain ⟨e, rfl, hsame⟩ := exists_error_of_kind hkind
  cases (h e rfl).symm.trans (congrArg Prod.fst hsame)

theorem NodeSelector.select_soft {s : NodeSelector} (h : s.chain.LuaFree) (category content : String) :
    Act.Always Soft (s.select category content) := by
  intro w
  have hkind := s.select_kind category content w
  by_cases hmatch : s.category.isMatch category = true
  · rw [if_pos hmatch] at hkind
    exact (h.soft content w).of_kind hkind
  · rw [if_neg hmatch] at hkind
    have hmismatch : Soft (.error (.unmatched "")) := soft_error rfl
    exact hmismatch.of_kind hkind

theorem Normalizer.run_soft {n : Normalizer} (h : n.chain.LuaFree) (input : String) :
    Act.Always Soft (n.run input) := fun w => (h.soft input w).of_kind (n.run_kind input w)

/-- normalizers without Lua rewrite a text or leave it as it is -/
theorem normalizeFrom_ok {rules : List Normalizer} (h : ∀ n ∈ rules, n.chain.LuaFree) (input : String) (i : Nat) :
    Act.Always (fun r => ∃ found, r = .ok found) (normalizeFrom input i rules) := by
  induction rules generalizing i with
  | nil => exact Act.Always.pure ⟨_, rfl⟩
  | cons n rest ih =>
    unfold normalizeFrom
    refine (n.run_soft (h n List.mem_cons_self) input).bind fun r hr => ?_
    cases r with
    | ok found => exact Act.Always.pure ⟨_, rfl⟩
    | error e =>
      simp only [hr e rfl, if_true]
      exact ih (fun other hother => h other (List.mem_cons_of_mem _ hother)) (i + 1)

/-! ## Files that can be read -/

/-- every file that can be opened can be read to its end -/
def FileNode.Unbroken (files : FileNode) : Prop :=
  ∀ path source, files.isFile path = true → files.openFile path = .ok source → source.failure = none

mutual
/-- whether reading breaks at no file of a tree -/
def FileNode.isWhole : FileNode → Bool
  | .file _ (some (.broken _)) => false
  | .file _ _ | .link _ => true
  | .dir entries => areWhole entries

def FileNode.areWhole : List (String × FileNode) → Bool
  | [] => true
  | (_, n) :: rest => n.isWhole && areWhole rest
end

theorem FileNode.isWhole_of_mem {entries : List (String × FileNode)} (h : areWhole entries = true) {name : String}
    {n : FileNode} (hn : (name, n) ∈ entries) : n.isWhole = true := by
  induction entries with
  | nil => exact absurd hn List.not_mem_nil
  | cons e rest ih =>
    obtain ⟨hfirst, hrest⟩ := Bool.and_eq_true_iff.1 h
    rcases List.mem_cons.1 hn with rfl | hn
    · exact hfirst
    · exact ih hrest hn

theorem FileNode.isWhole_at? {names : List String} {n m : FileNode} (h : n.isWhole = true) (hm : n.at? names = some m) :
    m.isWhole = true := by
  induction names generalizing n with
  | nil => exact Option.some.inj hm ▸ h
  | cons name rest ih =>
    obtain ⟨c, hc, hrest⟩ := Option.bind_eq_some_iff.1 hm
    cases n with
    | dir entries => exact ih (isWhole_of_mem h (mem_of_child? hc)) hrest
    | file content fault => cases hc
    | link target => cases hc

theorem FileNode.unbroken_of_isWhole {files : FileNode} (h : files.isWhole = true) : files.Unbroken := by
  intro path source hfile hopen
  unfold isFile at hfile
  unfold openFile at hopen
  cases hlookup : files.lookup path with
  | error e =>
    rw [hlookup] at hfile
    cases hfile
  | ok n =>
    rw [hlookup] at hfile hopen
    obtain ⟨place, -, hat⟩ := lookup_eq_ok.1 hlookup
    have hwhole := isWhole_at? h hat
    match n with
    | .file content none =>
      cases hopen
      rfl
    | .file content (some (.broken e)) => cases hwhole
    | .file content (some (.refused e)) => cases hopen
    | .dir entries => cases hfile
    | .link target => cases hfile

/-- a file that can be opened, and read to its end -/
def FileNode.Readable (files : FileNode) (path : String) : Prop :=
  ∃ source, files.openFile path = .ok source ∧ source.failure = none

/-- an error among the items of a reader is its failure, or shows that the signal was up -/
theorem readLines_cause (s : Source) (fires : Nat → Bool) {l : ReadLine} (hl : l ∈ readLines s fires)
    {cause : StreamError} (hcause : l.error = some cause) :
    cause = .cancelled ∨ ∃ e, s.failure = some e ∧ cause = .read e := by
  rw [show readLines s fires = (Move.run fires 0 s.moves).1 by simpa using readLines_eq_run s fires 0] at hl
  have hfrom : ∀ (lines : List Utf8.Bytes) (looks delivered : Nat),
      l ∈ (Move.run fires looks (readFrom s.failure delivered lines)).1 →
        cause = .cancelled ∨ ∃ e, s.failure = some e ∧ cause = .read e := by
    intro lines
    induction lines with
    | nil =>
      intro looks delivered hl
      simp only [readFrom, Move.run] at hl
      split at hl
      · rw [List.mem_singleton.1 hl] at hcause
        exact .inl (Option.some.inj hcause).symm
      · cases hf : s.failure with
        | none =>
          rw [hf] at hl
          exact absurd hl List.not_mem_nil
        | some e =>
          rw [hf] at hl
          rw [List.mem_singleton.1 hl] at hcause
          exact .inr ⟨e, rfl, (Option.some.inj hcause).symm⟩
    | cons line rest ih =>
      intro looks delivered hl
      simp only [readFrom, Move.run] at hl
      split at hl
      · rw [List.mem_singleton.1 hl] at hcause
        exact .inl (Option.some.inj hcause).symm
      · rcases List.mem_cons.1 hl with rfl | hl
        · cases hcause
        · exact ih _ _ hl
  exact hfrom s.lines 0 0 hl

theorem mem_of_mem_tried {α : Type} {attempt : α → Act MatchResult} {rules : List α} {w : World} {x : α × World}
    (h : x ∈ tried attempt rules w) : x.1 ∈ rules := by
  induction rules generalizing w with
  | nil => exact absurd h List.not_mem_nil
  | cons rule rest ih =>
    unfold tried at h
    rcases List.mem_cons.1 h with rfl | h
    · exact List.mem_cons_self
    · split at h
      · exact absurd h List.not_mem_nil
      · split at h
        · exact List.mem_cons_of_mem _ (ih h)
        · exact absurd h List.not_mem_nil

/-- **A category rule without Lua** fails on a file that can be read only if the signal cuts it short. -/
theorem CategorySelector.select_spared {s : CategorySelector} (h : s.chain.LuaFree) {path : String} {w : World}
    (hread : w.files.Readable path) : failureKind (s.select path w).1 ≠ some (false, false) := by
  rw [s.select_kind]
  cases s.mode with
  | filename => exact (h.soft path w).kind_ne false
  | text =>
    obtain ⟨source, hopen, hwhole⟩ := hread
    simp only [ne_eq, scanFile_kind_iff, scans, hopen]
    rintro ⟨x, hx, hkind⟩
    have hline : x.1 ∈ readLines source fun n => w.signal (w.looks + n) := mem_of_mem_tried hx
    unfold lineOutcome at hkind
    cases herror : x.1.error with
    | none =>
      rw [herror] at hkind
      exact (h.soft x.1.text x.2).kind_ne false hkind
    | some cause =>
      rw [herror] at hkind
      rcases readLines_cause source _ hline herror with rfl | ⟨e, he, -⟩
      · cases hkind
      · cases hwhole.symm.trans he

/-! ## Entries -/

/-- no entry of a list has a hard error -/
def Selection.AllSoft (found : List Selection) : Prop := ∀ s ∈ found, ∀ e, s.outcome = .error e → e.unmatched = true

/-- the rules of a list are evaluated in worlds of an invariant -/
theorem evaluated_maintains {α : Type} {Ok : World → Prop} {attempt : α → Act MatchResult} {rules : List α}
    (h : ∀ rule ∈ rules, Act.Maintains Ok (fun _ => True) (attempt rule)) {w : World} (hw : Ok w) {x : α × World}
    (hx : x ∈ evaluated attempt rules w) : x.1 ∈ rules ∧ Ok x.2 := by
  induction rules generalizing w with
  | nil => exact absurd hx List.not_mem_nil
  | cons rule rest ih =>
    rcases List.mem_cons.1 hx with rfl | hx
    · exact ⟨List.mem_cons_self, hw⟩
    · obtain ⟨hmem, hok⟩ :=
        ih (fun other hother => h other (List.mem_cons_of_mem _ hother)) (h rule List.mem_cons_self w hw).2 hx
      exact ⟨List.mem_cons_of_mem _ hmem, hok⟩

/-- the entries of a list have no failure of a kind that no rule has in the worlds of an invariant -/
theorem selectAll_kind_ne {α : Type} {Ok : World → Prop} {name : α → String} {select : α → Act MatchResult}
    {rules : List α} (h : ∀ rule ∈ rules, Act.Maintains Ok (fun _ => True) (select rule)) {kind : Bool × Bool}
    (hnone : ∀ rule ∈ rules, ∀ w, Ok w → failureKind (select rule w).1 ≠ some kind) {w : World} (hw : Ok w) :
    ∀ s ∈ (Selection.selectAll name select 0 rules w).1, ∀ e,
      s.outcome = .error e → (e.unmatched, e.cancelled) ≠ kind := by
  intro s hs e he hkind
  obtain ⟨x, hx, hfailed⟩ := (selectAll_kind_iff 0).1 ⟨s, hs, e, he, hkind⟩
  obtain ⟨hmem, hok⟩ := evaluated_maintains h hw hx
  exact hnone x.1 hmem x.2 hok hfailed

/-- node rules without Lua -/
theorem selectNodes_soft {rules : List NodeSelector} (h : ∀ rule ∈ rules, rule.chain.LuaFree)
    (category content : String) : Act.Always Selection.AllSoft (selectNodes rules category content) := by
  intro w s hs e he
  have hanywhere : ∀ rule ∈ rules, Act.Maintains (fun _ => True) (fun _ => True) (rule.select category content) :=
    fun _ _ _ _ => ⟨trivial, trivial⟩
  have hnone : ∀ cancelled, (e.unmatched, e.cancelled) ≠ (false, cancelled) := fun cancelled =>
    selectAll_kind_ne hanywhere (fun rule hrule w _ =>
      (rule.select_soft (h rule hrule) category content w).kind_ne cancelled) trivial s hs e he
  cases hhard : e.unmatched with
  | true => rfl
  | false => exact absurd (congrArg (·, e.cancelled) hhard) (hnone e.cancelled)

/-! ## Parts of runs -/

/-- an error that is no failure of a rule -/
def RunError.NoSelection (e : RunError) : Prop := ∀ stage location reason, e ≠ .selection stage location reason

theorem RunError.cancelled_noSelection : RunError.cancelled.NoSelection := nofun

/-- neither a signal that is up nor a reader that fails is a rule that fails -/
theorem readLines_noSelection (s : Source) (fires : Nat → Bool) {l : ReadLine} (hl : l ∈ readLines s fires)
    {cause : StreamError} (hcause : l.error = some cause) (location : String) :
    (RunError.ofStream location cause).NoSelection := by
  rcases readLines_cause s fires hl hcause with rfl | ⟨e, -, rfl⟩
  · exact RunError.cancelled_noSelection
  · exact nofun

/-- a part of a run keeps an invariant of what is kept, gives what satisfies `P`, and does not fail with a rule -/
def Run.Spared (K : Workspace → Prop) {α : Type} (P : α → Prop) (m : Run α) : Prop :=
  ∀ s : RunState, K s.workspace → K (m.run s).2.workspace ∧ (∀ a, (m.run s).1 = .ok a → P a) ∧
    ∀ e, (m.run s).1 = .error e → e.NoSelection

namespace Run.Spared

variable {K : Workspace → Prop} {α β : Type} {P : α → Prop} {Q : β → Prop}

theorem pure {a : α} (h : P a) : Run.Spared K P (pure a : Run α) := fun _ hs =>
  ⟨hs, fun _ ha => Except.ok.inj ha ▸ h, nofun⟩

theorem fail {e : RunError} (h : e.NoSelection) : Run.Spared K P (throw e : Run α) := fun _ hs =>
  ⟨hs, nofun, fun _ he => Except.error.inj he ▸ h⟩

/-- **One part after another** -/
theorem bind {m : Run α} {f : α → Run β} (h : Run.Spared K P m) (hf : ∀ a, P a → Run.Spared K Q (f a)) :
    Run.Spared K Q (m >>= f) := by
  intro s hs
  obtain ⟨hkept, hvalue, herror⟩ := h s hs
  rw [Run.bind_run]
  rcases hm : m.run s with ⟨e | a, s₁⟩
  · rw [hm] at hkept herror
    exact ⟨hkept, nofun, fun _ he => Except.error.inj he ▸ herror e rfl⟩
  · rw [hm] at hkept hvalue
    exact hf a (hvalue a rfl) s₁ hkept

/-- **A loop** whose rounds all go on -/
theorem forIn {l : List α} {body : α → PUnit → Run (ForInStep PUnit)}
    (h : ∀ x ∈ l, Run.Spared K (fun r => r = .yield ⟨⟩) (body x ⟨⟩)) :
    Run.Spared K (fun _ => True) (forIn l ⟨⟩ body) := by
  induction l with
  | nil => exact .pure trivial
  | cons x rest ih =>
    rw [List.forIn_cons]
    refine (h x List.mem_cons_self).bind ?_
    rintro _ rfl
    exact ih fun y hy => h y (List.mem_cons_of_mem _ hy)

/-- a round of a loop -/
theorem round {m : Run PUnit} (h : Run.Spared K (fun _ => True) m) :
    Run.Spared K (fun r => r = .yield ⟨⟩) (do m; Pure.pure (ForInStep.yield PUnit.unit)) :=
  h.bind fun _ _ => .pure rfl

/-- **A step on what is kept** -/
theorem lift {a : StateM Workspace α} (h : ∀ ws, K ws → K (a ws).2 ∧ P (a ws).1) : Run.Spared K P (Run.lift a) := by
  intro s hs
  obtain ⟨hkept, hvalue⟩ := h s.workspace hs
  exact ⟨hkept, fun _ ha => Except.ok.inj ha ▸ hvalue, nofun⟩

theorem count (add : Summary → Summary) : Run.Spared K (fun _ => True) (Run.count add) := fun _ hs =>
  ⟨hs, fun _ _ => trivial, nofun⟩

/-- a record, for which there may be no room -/
theorem record (r : Record) : Run.Spared K (fun _ => True) (Pipeline.writeRecord r) := by
  intro s hs
  refine ⟨by rwa [writeRecord_keeps r], fun _ _ => trivial, fun e he => ?_⟩
  rw [writeRecord_run] at he
  generalize s.output.writeAll r.json.pieces = written at he
  rcases written with ⟨o, _ | refused⟩
  · generalize hend : o.writeAll ["\n"] = ended at he
    rcases ended with ⟨o', _ | refused⟩
    · simp only [hend] at he
      cases he
    · simp only [hend] at he
      cases he
      exact nofun
  · cases he
    exact nofun

end Run.Spared

/-! ## Pipelines -/

/-- no chain of a pipeline has a script of a Lua program -/
def Pipeline.LuaFree (p : Pipeline) : Prop := ∀ part i c, p.chainAt part i = some c → c.LuaFree

/-- no shell script of a pipeline changes a tree of files, whatever its calls before have left of its own file -/
def Pipeline.KeepsTree (p : Pipeline) (files : FileNode) (env : Environment) : Prop :=
  ∀ part i c, p.chainAt part i = some c → ∀ script, .shell script ∈ c.stages →
    script.turn.Spares { files := files, env := env }

/-- the world is settled, and no hard error is kept -/
structure Workspace.Calm (p : Pipeline) (files : FileNode) (env : Environment) (ws : Workspace) : Prop where
  world : ws.world.Settled p.scriptAt files env
  categories : ws.categories.Holds fun _ found => Selection.AllSoft found

theorem Workspace.Calm.under {p : Pipeline} {files : FileNode} {env : Environment} {ws : Workspace}
    (h : ws.Calm p files env) (fires : Nat → Bool) : (ws.under fires).Calm p files env :=
  ⟨World.Settled.lasting ws.world _ rfl rfl rfl h.world, h.categories⟩

namespace Pipeline

variable {p : Pipeline} {files : FileNode} {env : Environment}

/-- the chains of a pipeline without Lua leave settled worlds settled -/
theorem LuaFree.chain_maintains (h : p.LuaFree) (htree : p.KeepsTree files env) (hplaced : p.Placed) {part : Part}
    {i : Nat} {c : Chain} (hc : p.chainAt part i = some c) (input : String) :
    Act.Maintains (World.Settled p.scriptAt files env) (fun _ => True) (c.run input) := by
  refine c.run_maintains (fun s hs script hscript => ?_) (hplaced.stands hc) input
  cases s with
  | shell shell =>
    cases hscript
    exact htree part i c hc shell hs
  | lua script => exact absurd rfl (h part i c hc _ hs script)
  | regex | negated | template | values | glob => cases hscript

/-- a rule of a list whose chains are those of a part -/
theorem exists_chainAt {α : Type} {rules : List α} {chain : α → Chain} {part : Part}
    (hrules : ∀ i, p.chainAt part i = rules[i]?.map chain) {rule : α} (hrule : rule ∈ rules) :
    ∃ i, p.chainAt part i = some (chain rule) := by
  obtain ⟨i, hi⟩ := List.mem_iff_getElem?.1 hrule
  exact ⟨i, by rw [hrules, hi, Option.map_some]⟩

section

variable (h : p.LuaFree)

include h

theorem LuaFree.category {rule : CategorySelector} (hrule : rule ∈ p.categories) : rule.chain.LuaFree := by
  obtain ⟨i, hi⟩ := exists_chainAt (fun _ => (rfl : p.chainAt .category _ = _)) hrule
  exact h .category i _ hi

theorem LuaFree.node {rule : NodeSelector} (hrule : rule ∈ p.nodes) : rule.chain.LuaFree := by
  obtain ⟨i, hi⟩ := exists_chainAt (fun _ => (rfl : p.chainAt .node _ = _)) hrule
  exact h .node i _ hi

variable (htree : p.KeepsTree files env) (hplaced : p.Placed)

include htree hplaced

theorem LuaFree.chain_maintains_of_rule {α : Type} {rules : List α} {chain : α → Chain} {part : Part}
    (hrules : ∀ i, p.chainAt part i = rules[i]?.map chain) {rule : α} (hrule : rule ∈ rules) (text : String) :
    Act.Maintains (World.Settled p.scriptAt files env) (fun _ => True) ((chain rule).run text) := by
  obtain ⟨i, hi⟩ := exists_chainAt hrules hrule
  exact h.chain_maintains htree hplaced hi text

/-- **Categories that are looked up**: none has a hard error, unless the signal cut one short. -/
theorem selectCategories_calm {path : String} (hread : files.Readable path) {ws : Workspace}
    (hws : ws.Calm p files env) :
    (Workspace.selectCategories p.categories path ws).2.Calm p files env ∧
      (Selection.AllSoft (Workspace.selectCategories p.categories path ws).1 ∨
        (Workspace.selectCategories p.categories path ws).1.any Selection.isCancelled = true) := by
  have hrules : ∀ rule ∈ p.categories,
      Act.Maintains (World.Settled p.scriptAt files env) (fun _ => True) (rule.select path) := fun rule hrule =>
    CategorySelector.select_closed (.maintains World.Settled.lasting) trivial
      (h.chain_maintains_of_rule htree hplaced (fun _ => (rfl : p.chainAt .category _ = _)) hrule) path
  have hall : Act.Maintains _ _ (Selection.selectAll CategorySelector.name _ 0 p.categories) :=
    Selection.selectAll_closed (Act.Seeing.maintains World.Settled.lasting).toClosed hrules 0
  refine Workspace.selectCategories_holds (fun found => found.any Selection.isCancelled = true)
    (fun _ hws => hws.categories) (fun ws m hws hm => ⟨hws.world, hm⟩)
    (fun ws hws => ⟨(hall ws.world hws.world).2, hws.categories⟩) (fun ws hws hdown s hs e he => ?_)
    (fun _ _ hup => hup) hws
  -- an entry that shows no signal could only fail in a way in which no category rule does
  have hcancelled : e.cancelled = false := by
    have hnot := List.any_eq_false.1 hdown s hs
    rwa [Selection.isCancelled, he, Bool.not_eq_true] at hnot
  have hkind := selectAll_kind_ne hrules (fun rule hrule w hw => CategorySelector.select_spared (h.category hrule)
    (hw.files_eq ▸ hread)) hws.world s hs e he
  cases hhard : e.unmatched with
  | true => rfl
  | false => exact absurd (congrArg₂ Prod.mk hhard hcancelled) hkind

/-- **Texts that are rewritten**, looked up or not -/
theorem normalize_calm {rules : List Normalizer} {part : Part}
    (hrules : ∀ i, p.chainAt part i = rules[i]?.map (·.chain)) {read : Workspace → Memo (List Normalized)}
    {write : Workspace → Memo (List Normalized) → Workspace}
    (hwrite : ∀ ws m, ws.Calm p files env → (write ws m).Calm p files env) (text : String) {ws : Workspace}
    (hws : ws.Calm p files env) :
    (Memo.getOrTry read write text (Workspace.act (normalize rules text)) ws).2.Calm p files env ∧
      ∃ found, (Memo.getOrTry read write text (Workspace.act (normalize rules text)) ws).1 = .ok found := by
  have hfree : ∀ n ∈ rules, n.chain.LuaFree := by
    intro n hn
    obtain ⟨i, hi⟩ := exists_chainAt hrules hn
    exact h part i _ hi
  have hall : Act.Maintains (World.Settled p.scriptAt files env) _ (normalizeFrom text 0 rules) :=
    normalizeFrom_closed (Act.Seeing.maintains World.Settled.lasting).toClosed (fun n hn =>
      Normalizer.run_closed (Act.Seeing.maintains World.Settled.lasting).toClosed trivial trivial
        (h.chain_maintains_of_rule htree hplaced hrules hn text)) 0
  have hcompute : ∀ ws : Workspace, ws.Calm p files env →
      (Workspace.act (normalize rules text) ws).2.Calm p files env ∧
        ((∃ found, (Workspace.act (normalize rules text) ws).1 = .ok found ∧ True) ∨
          ∃ e, (Workspace.act (normalize rules text) ws).1 = .error e ∧ False) := by
    intro ws hws
    obtain ⟨found, hfound⟩ := normalizeFrom_ok hfree text 0 ws.world
    exact ⟨⟨(hall ws.world hws.world).2, hws.categories⟩, .inl ⟨found, hfound, trivial⟩⟩
  obtain ⟨hkept, ⟨found, hfound, -⟩ | ⟨e, -, hnever⟩⟩ :=
    Memo.getOrTry_holds (fun _ _ _ _ _ => trivial) (fun ws m hws _ => hwrite ws m hws) hcompute hws
  · exact ⟨hkept, found, hfound⟩
  · exact hnever.elim

theorem normalizeCategory_calm (label : String) {ws : Workspace} (hws : ws.Calm p files env) :
    (Workspace.normalizeCategory p.categoryNormalizers label ws).2.Calm p files env ∧
      ∃ found, (Workspace.normalizeCategory p.categoryNormalizers label ws).1 = .ok found := by
  refine normalize_calm h htree hplaced (fun _ => (rfl : p.chainAt .categoryNormalizer _ = _)) ?_ label hws
  exact fun _ _ hws => ⟨hws.world, hws.categories⟩

theorem normalizeNode_calm (value : String) {ws : Workspace} (hws : ws.Calm p files env) :
    (Workspace.normalizeNode p.nodeNormalizers value ws).2.Calm p files env ∧
      ∃ found, (Workspace.normalizeNode p.nodeNormalizers value ws).1 = .ok found := by
  refine normalize_calm h htree hplaced (fun _ => (rfl : p.chainAt .nodeNormalizer _ = _)) ?_ value hws
  exact fun _ _ hws => ⟨hws.world, hws.categories⟩

end

/-! ## Runs -/

theorem act_spared {α : Type} {P : α → Prop} {a : Act α}
    (ha : Act.Maintains (World.Settled p.scriptAt files env) P a) :
    Run.Spared (Workspace.Calm p files env) P (Run.act a) :=
  .lift fun ws hws => ⟨⟨(ha ws.world hws.world).2, hws.categories⟩, (ha ws.world hws.world).1⟩

theorem checkSignal_spared : Run.Spared (Workspace.Calm p files env) (fun _ => True) Run.checkSignal := by
  unfold Run.checkSignal
  refine (act_spared ((Act.Seeing.maintains World.Settled.lasting).cancelled)).bind fun up _ => ?_
  cases up with
  | true => exact .fail RunError.cancelled_noSelection
  | false => exact .pure trivial

/-- going through an entry that has no hard error -/
theorem entry_spared {K : Workspace → Prop} {stage : String} {line : FileLine} {s : Selection}
    (hs : ∀ e, s.outcome = .error e → e.unmatched = true) {k : String → Run (ForInStep PUnit)}
    (hk : ∀ text, Run.Spared K (fun r => r = .yield ⟨⟩) (k text)) :
    Run.Spared K (fun r => r = .yield ⟨⟩)
      (do
        match ← selected? stage line s with
        | none => pure (.yield ⟨⟩)
        | some text => k text) := by
  have hselected : Run.Spared K (fun _ => True) (selected? stage line s) := by
    unfold selected?
    cases houtcome : s.outcome with
    | ok text => exact .pure trivial
    | error e =>
      simp only [hs e houtcome, if_true]
      exact .pure trivial
  refine hselected.bind fun found _ => ?_
  cases found with
  | none => exact .pure rfl
  | some text => exact hk text

/-- going through rewritten texts -/
theorem normalized_spared {K : Workspace → Prop} {stage : String} {line : FileLine}
    {a : StateM Workspace (Except MatchError (List Normalized))}
    (ha : ∀ ws, K ws → K (a ws).2 ∧ ∃ found, (a ws).1 = .ok found)
    {body : Normalized → PUnit → Run (ForInStep PUnit)}
    (hbody : ∀ n, Run.Spared K (fun r => r = .yield ⟨⟩) (body n ⟨⟩)) :
    Run.Spared K (fun r => r = .yield ⟨⟩)
      (do
        let texts ← normalized stage line a
        let _ ← forIn texts PUnit.unit body
        pure (ForInStep.yield PUnit.unit)) := by
  have hlist : Run.Spared K (fun _ => True) (normalized stage line a) := by
    refine (Run.Spared.lift (P := fun r => ∃ found, r = .ok found) ha).bind fun r hr => ?_
    obtain ⟨texts, rfl⟩ := hr
    exact .pure trivial
  exact hlist.bind fun texts _ => (Run.Spared.forIn fun n _ => hbody n).bind fun _ _ => .pure rfl

section

variable (h : p.LuaFree) (htree : p.KeepsTree files env) (hplaced : p.Placed)

include h htree hplaced

/-- the nodes in a line -/
theorem processNodes_spared (root : ReadLine) (line : FileLine) (category : Selected) :
    Run.Spared (Workspace.Calm p files env) (fun _ => True) (p.processNodes root line category) := by
  have hrules : ∀ rule ∈ p.nodes, Act.Maintains (World.Settled p.scriptAt files env) (fun _ => True)
      (rule.select category.normalized.result line.content) := fun rule hrule =>
    NodeSelector.select_closed (Act.Seeing.maintains World.Settled.lasting).toClosed trivial
      (h.chain_maintains_of_rule htree hplaced (fun _ => (rfl : p.chainAt .node _ = _)) hrule) _ _
  have hall : Act.Maintains _ _ (Selection.selectAll NodeSelector.name _ 0 p.nodes) :=
    Selection.selectAll_closed (Act.Seeing.maintains World.Settled.lasting).toClosed hrules 0
  unfold processNodes
  refine (act_spared (hall.with_always (selectNodes_soft (fun _ hrule => h.node hrule) _ _))).bind fun nodes hnodes => ?_
  refine (Run.Spared.forIn fun node hnode => ?_).bind fun _ _ => .pure trivial
  refine entry_spared (hnodes node hnode) fun value => ?_
  refine normalized_spared (fun ws hws => normalizeNode_calm h htree hplaced value hws) fun n => ?_
  exact .round (.record _)

/-- **The records of a line** of a file that can be read -/
theorem processLine_spared (root : ReadLine) {line : FileLine} (hread : files.Readable line.path) :
    Run.Spared (Workspace.Calm p files env) (fun _ => True) (p.processLine root line) := by
  have hselect : Run.Spared (Workspace.Calm p files env)
      (fun found => Selection.AllSoft found ∨ found.any Selection.isCancelled = true)
      (Run.lift (Workspace.selectCategories p.categories line.path)) :=
    .lift fun ws hws => selectCategories_calm h htree hplaced hread hws
  unfold processLine
  refine hselect.bind fun found hfound => ?_
  by_cases hcut : found.any Selection.isCancelled = true
  · rw [if_pos hcut]
    exact (Run.Spared.fail (P := fun _ => False) RunError.cancelled_noSelection).bind fun _ hnever => hnever.elim
  rw [if_neg hcut]
  refine (Run.Spared.forIn fun category hcategory => ?_).bind fun _ _ => .pure trivial
  refine entry_spared (hfound.resolve_right hcut category hcategory) fun label => ?_
  refine normalized_spared (fun ws hws => normalizeCategory_calm h htree hplaced label hws) fun n => ?_
  cases p.categoryOnly with
  | true => exact .round (.record _)
  | false => exact .round (processNodes_spared h htree hplaced root line _)

/-- **The lines of a walk** -/
theorem processLines_spared (root : ReadLine) {lines : List FileLine}
    (hlines : ∀ l ∈ lines, (l.error = none → files.Readable l.path) ∧
      ∀ cause, l.error = some cause → (RunError.ofStream l.render cause).NoSelection) :
    Run.Spared (Workspace.Calm p files env) (fun _ => True) (p.processLines root lines) := by
  induction lines with
  | nil => exact checkSignal_spared
  | cons line rest ih =>
    obtain ⟨hread, hcause⟩ := hlines line List.mem_cons_self
    unfold processLines
    refine checkSignal_spared.bind fun _ _ => ?_
    cases herror : line.error with
    | some e => exact .fail (hcause e herror)
    | none =>
      refine (Run.Spared.count _).bind fun _ _ => ?_
      refine (processLine_spared h htree hplaced root (hread herror)).bind fun _ _ => ?_
      exact ih fun l hl => hlines l (List.mem_cons_of_mem _ hl)

/-- **A walk** gives lines of files that can be read, and no failure of the ignore chain. -/
theorem walk_spared (hwhole : files.Unbroken) (root : String) :
    Act.Maintains (World.Settled p.scriptAt files env)
      (fun lines => ∀ l ∈ lines, (l.error = none → files.Readable l.path) ∧
        ∀ cause, l.error = some cause → (RunError.ofStream l.render cause).NoSelection)
      (Walker.walk ⟨root, p.ignore⟩) := by
  have hlasting : World.Lasting (World.Settled p.scriptAt files env) := World.Settled.lasting
  have hseeing := Act.Seeing.maintains hlasting
  have hchain : p.chainAt .ignore 0 = some p.ignore := rfl
  have hignore : ∀ path, Act.Maintains (World.Settled p.scriptAt files env) (fun _ => True) (p.ignore.run path) :=
    h.chain_maintains htree hplaced hchain
  have hsoft : p.ignore.LuaFree := h .ignore 0 p.ignore rfl
  refine Walker.walk_all ⟨(Walker.interruption?_closed hseeing).with_always fun world last hlast => ?_,
    fun path => (Walker.isIgnored_closed hseeing hignore path).with_always fun world last hlast => ?_,
    fun path world hworld => ⟨?_, (Walker.visitLeaf_closed hseeing path world hworld).2⟩, fun text => hseeing.warn text⟩
  · rw [Walker.interruption?_cause hlast]
    exact ⟨nofun, fun cause hcause => Option.some.inj hcause ▸ nofun⟩
  · obtain ⟨e, he, hhard, -⟩ := Walker.isIgnored_cause hlast
    cases hhard.symm.trans (hsoft.soft path world e he)
  · rw [Walker.visitLeaf_run, hworld.files_eq]
    split
    · rename_i hfile
      rw [Walker.scanFile_run, hworld.files_eq]
      cases hopen : files.openFile path with
      | error e => exact .nothing
      | ok source =>
        intro l hl
        obtain ⟨item, hitem, rfl⟩ := List.mem_map.1 hl
        exact ⟨fun _ => ⟨source, hopen, hwhole path source hfile hopen⟩,
          fun cause hcause => readLines_noSelection source _ hitem hcause _⟩
    · exact .nothing

/-- **The lines of an input** -/
theorem processRoots_spared (hwhole : files.Unbroken) {roots : List ReadLine}
    (hroots : ∀ root ∈ roots, ∀ cause, root.error = some cause →
      ∀ location, (RunError.ofStream location cause).NoSelection) :
    Run.Spared (Workspace.Calm p files env) (fun _ => True) (p.processRoots roots) := by
  induction roots with
  | nil => exact checkSignal_spared
  | cons root rest ih =>
    have hrest := ih fun r hr => hroots r (List.mem_cons_of_mem _ hr)
    unfold processRoots
    refine checkSignal_spared.bind fun _ _ => ?_
    cases herror : root.error with
    | some cause => exact .fail (hroots root List.mem_cons_self cause herror _)
    | none =>
      simp only
      cases Text.isBlank root.text with
      | true => exact hrest
      | false =>
        refine Run.Spared.bind (P := fun _ => True) ?_ fun _ _ => hrest
        unfold processRoot
        refine (Run.Spared.count _).bind fun _ _ => ?_
        refine (act_spared (walk_spared h htree hplaced hwhole root.text)).bind fun lines hlines => ?_
        exact processLines_spared h htree hplaced root hlines

/-- **A run** without Lua does not fail with a rule. -/
theorem run_spared (hwhole : files.Unbroken) (input : Source) :
    Run.Spared (Workspace.Calm p files env) (fun _ => True) (p.run input) := by
  have hread : Act.Always (fun roots => ∀ root ∈ roots, ∀ cause, root.error = some cause →
      ∀ location, (RunError.ofStream location cause).NoSelection) (Act.readLines input) := fun w root hroot cause =>
    readLines_noSelection input _ hroot
  unfold run
  refine (act_spared (((Act.Seeing.maintains World.Settled.lasting).readLines input).with_always hread)).bind
    fun roots hroots => ?_
  refine (processRoots_spared h htree hplaced hwhole hroots).bind fun _ _ s hs => ?_
  exact ⟨hs, fun _ _ => trivial, nofun⟩

end

/-- what a pipeline without Lua keeps stays calm, whatever it serves -/
theorem Served.calm (h : p.LuaFree) (htree : p.KeepsTree files env) (hplaced : p.Placed) (hwhole : files.Unbroken)
    {ws : Workspace} (hserved : p.Served files env ws) : ws.Calm p files env := by
  induction hserved with
  | fresh => exact ⟨World.settled_fresh, .empty⟩
  | run _ fires input output ih =>
    exact (run_spared h htree hplaced hwhole input _ (ih.under fires)).1

end Pipeline

/-! ## Configurations -/

/-- the stages of all chains of a configuration -/
def Config.stageSpecs (c : Config) : List StageSpec :=
  c.ignore ++ c.category.flatMap (fun rule => rule.filename ++ rule.text) ++ c.node.flatMap (·.matcher) ++
    c.normalizer.category.flatMap (·.matcher) ++ c.normalizer.node.flatMap (·.matcher)

/-- a configuration without stages of Lua -/
def Config.LuaFree (c : Config) : Prop := ∀ spec ∈ c.stageSpecs, spec.lua = none

namespace Pipeline

theorem ofSpec_luaFree {env : Environment} {spec : StageSpec} (hspec : spec.lua = none) {s : Stage}
    (h : Stage.ofSpec env spec = .ok s) (script : Lua.Script) : s ≠ .lua script := by
  unfold Stage.ofSpec at h
  rw [hspec] at h
  rintro rfl
  split at h
  · rename_i hlua
    cases hlua
  · cases h
  · split at h <;> cases h
  · cases h
  · split at h
    · cases h
    · cases h
    · cases h
    · split at h <;> cases h

theorem compileFrom_luaFree {env : Environment} {specs : List StageSpec} (hspecs : ∀ spec ∈ specs, spec.lua = none)
    {i : Nat} {stages : List Stage} (h : Chain.compileFrom env i specs = .ok stages) :
    ∀ s ∈ stages, ∀ script, s ≠ .lua script := by
  induction specs generalizing i stages with
  | nil =>
    cases h
    exact nofun
  | cons spec rest ih =>
    obtain ⟨first, hfirst, h⟩ := bind_eq_ok h
    obtain ⟨others, hothers, h⟩ := bind_eq_ok h
    cases h
    obtain ⟨_, -, hstage⟩ := bind_eq_ok (foundAt_eq_ok hfirst)
    intro s hs
    rcases List.mem_cons.1 hs with rfl | hs
    · exact ofSpec_luaFree (hspecs spec List.mem_cons_self) hstage
    · exact ih (fun other hother => hspecs other (List.mem_cons_of_mem _ hother)) hothers s hs

theorem compile_luaFree {env : Environment} {place : Place} {specs : List StageSpec}
    (hspecs : ∀ spec ∈ specs, spec.lua = none) {c : Chain} (h : Chain.compile env place specs = .ok c) : c.LuaFree := by
  obtain ⟨stages, hstages, rfl⟩ := map_eq_ok h
  exact compileFrom_luaFree hspecs hstages

/-- a compiled rule comes from one that is written down -/
theorem exists_rule_of_compiled {α β : Type} {what : String} {compile : Nat → α → Except ConfigError β} {k : Nat}
    {rules : List α} {found : List β} (h : Selection.compileRules what compile k rules = .ok found) {r : β}
    (hr : r ∈ found) : ∃ i, ∃ rule ∈ rules, compile i rule = .ok r := by
  induction rules generalizing k found with
  | nil =>
    cases h
    exact absurd hr List.not_mem_nil
  | cons rule rest ih =>
    obtain ⟨first, hfirst, h⟩ := bind_eq_ok h
    obtain ⟨others, hothers, h⟩ := bind_eq_ok h
    cases h
    rcases List.mem_cons.1 hr with rfl | hr
    · exact ⟨k, rule, List.mem_cons_self, foundAt_eq_ok hfirst⟩
    · obtain ⟨i, source, hsource, hcompile⟩ := ih hothers hr
      exact ⟨i, source, List.mem_cons_of_mem _ hsource, hcompile⟩

theorem category_luaFree {env : Environment} {i : Nat} {rule : CategoryRule}
    (hspecs : ∀ spec ∈ rule.filename ++ rule.text, spec.lua = none) {s : CategorySelector}
    (h : CategorySelector.compile env i rule = .ok s) : s.chain.LuaFree := by
  unfold CategorySelector.compile at h
  simp only at h
  split at h
  · obtain ⟨c, hc, rfl⟩ := map_eq_ok h
    exact compile_luaFree (fun spec hspec => hspecs spec (List.mem_append_left _ hspec)) (foundAt_eq_ok hc)
  · obtain ⟨c, hc, rfl⟩ := map_eq_ok h
    exact compile_luaFree (fun spec hspec => hspecs spec (List.mem_append_right _ hspec)) (foundAt_eq_ok hc)
  · cases h

theorem normalizers_luaFree {env : Environment} {part : Part} {rules : List NormalizerRule}
    (hspecs : ∀ spec ∈ rules.flatMap (·.matcher), spec.lua = none) {found : List Normalizer}
    (h : compileNormalizers env part rules = .ok found) {n : Normalizer} (hn : n ∈ found) : n.chain.LuaFree := by
  have hrules : Selection.compileRules "normalizer" (Normalizer.compile env part) 0 rules = .ok found := h
  obtain ⟨i, rule, hrule, hcompile⟩ := exists_rule_of_compiled hrules hn
  obtain ⟨c, hc, rfl⟩ := map_eq_ok hcompile
  exact compile_luaFree (fun spec hspec => hspecs spec (List.mem_flatMap.2 ⟨rule, hrule, hspec⟩)) (foundAt_eq_ok hc)

/-- **The pipeline of a configuration without Lua** has no script of a Lua program. -/
theorem build_luaFree {env : Environment} {c : Config} (hfree : c.LuaFree) {p : Pipeline}
    (h : Pipeline.build env c = .ok p) (categoryOnly : Bool) : { p with categoryOnly := categoryOnly }.LuaFree := by
  obtain ⟨ignore, hignore, h⟩ := bind_eq_ok h
  obtain ⟨categories, hcategories, h⟩ := bind_eq_ok h
  obtain ⟨nodes, hnodes, h⟩ := bind_eq_ok h
  obtain ⟨categoryNormalizers, hcategoryNormalizers, h⟩ := bind_eq_ok h
  obtain ⟨nodeNormalizers, hnodeNormalizers, h⟩ := bind_eq_ok h
  cases h
  have hcategories : Selection.compileRules "category" (CategorySelector.compile env) 0 c.category = .ok categories :=
    hcategories
  have hnodes : Selection.compileRules "node" (NodeSelector.compile env) 0 c.node = .ok nodes := hnodes
  intro part i chain hchain
  cases part with
  | alone => cases hchain
  | ignore =>
    simp only [chainAt] at hchain
    split_ifs at hchain
    cases hchain
    exact compile_luaFree (fun spec hspec => hfree spec (by simp [Config.stageSpecs, hspec])) (foundAt_eq_ok hignore)
  | category =>
    obtain ⟨s, hs, rfl⟩ := Option.map_eq_some_iff.1 hchain
    obtain ⟨k, rule, hrule, hcompile⟩ := exists_rule_of_compiled hcategories (List.mem_of_getElem? hs)
    refine category_luaFree (fun spec hspec => hfree spec ?_) hcompile
    have hmem : spec ∈ c.category.flatMap fun rule => rule.filename ++ rule.text :=
      List.mem_flatMap.2 ⟨rule, hrule, hspec⟩
    simp only [Config.stageSpecs, List.mem_append, hmem, true_or, or_true]
  | node =>
    obtain ⟨s, hs, rfl⟩ := Option.map_eq_some_iff.1 hchain
    obtain ⟨k, rule, hrule, hcompile⟩ := exists_rule_of_compiled hnodes (List.mem_of_getElem? hs)
    obtain ⟨chain, hc, rfl⟩ := map_eq_ok hcompile
    refine compile_luaFree (fun spec hspec => hfree spec ?_) (foundAt_eq_ok hc)
    have hmem : spec ∈ c.node.flatMap (·.matcher) := List.mem_flatMap.2 ⟨rule, hrule, hspec⟩
    simp only [Config.stageSpecs, List.mem_append, hmem, true_or, or_true]
  | categoryNormalizer =>
    obtain ⟨n, hn, rfl⟩ := Option.map_eq_some_iff.1 hchain
    refine normalizers_luaFree (fun spec hspec => hfree spec ?_) (foundAt_eq_ok hcategoryNormalizers)
      (List.mem_of_getElem? hn)
    simp only [Config.stageSpecs, List.mem_append, hspec, true_or, or_true]
  | nodeNormalizer =>
    obtain ⟨n, hn, rfl⟩ := Option.map_eq_some_iff.1 hchain
    refine normalizers_luaFree (fun spec hspec => hfree spec ?_) (foundAt_eq_ok hnodeNormalizers)
      (List.mem_of_getElem? hn)
    simp only [Config.stageSpecs, List.mem_append, hspec, or_true]

/-- **Without Lua, no run fails with a rule**, whatever has been served, and whatever the signal and the room are. -/
theorem no_selection_of_luaFree {files : FileNode} {env : Environment} {c : Config} {built : Pipeline}
    (hbuild : Pipeline.build env c = .ok built) (hfree : c.LuaFree) (hwhole : files.Unbroken) (categoryOnly : Bool)
    (htree : { built with categoryOnly := categoryOnly }.KeepsTree files env) {ws : Workspace}
    (hserved : { built with categoryOnly := categoryOnly }.Served files env ws) (fires : Nat → Bool) (input : Source)
    (limit : Option Nat) (failure : IoError) (stage location reason : String) :
    (({ built with categoryOnly := categoryOnly }.run input).run
      { workspace := ws.under fires, output := { limit := limit, failure := failure } }).1 ≠
        .error (.selection stage location reason) := by
  have hluaFree := build_luaFree hfree hbuild categoryOnly
  have hplaced := build_placed hbuild categoryOnly
  have hcalm := hserved.calm hluaFree htree hplaced hwhole
  intro herror
  exact (run_spared hluaFree htree hplaced hwhole input _ (hcalm.under fires)).2.2 _ herror stage location reason rfl

end Pipeline

end Gleaner
