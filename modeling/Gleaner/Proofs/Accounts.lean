/-
What metrics say about several runs.

A pipeline is used for some runs, one after the other, and the files may change between them (`Job`). All of them add to
one table of metrics. If the runs succeed, the table accounts for what they asked (`Pipeline.Accounts`): category rules
are called once for every path that has a line, however many lines and runs there are, since their answers are kept;
node rules are called once for every text that the label of a line is rewritten to; and a normalizer is called as often
as its chain.

A run that stops behind the categories writes a record wherever the other looks for nodes, if looking for them leaves
the files as they were. If it does not, the lines that are found later may be others, and the numbers differ
(`Pipeline.lookups_differ_when_written`).

Results:
- `Question.answer_balance`, `Question.answer_covers`: what a question adds to the samples, and to the paths whose
  categories are kept;
- `Asked.balance`: several questions;
- `Pipeline.results_settled`, `Pipeline.results_shadow`: several runs;
- `Pipeline.metrics_account`: the table behind them.
-/
import Gleaner.Proofs.Projection
import Gleaner.Proofs.Records
import Gleaner.Proofs.Tariffs

namespace Gleaner

open Act

/-! ## Kept categories -/

/-- categories are kept for these paths, and for each of them once -/
structure Workspace.Covers (ws : Workspace) (paths : List String) : Prop where
  lawful : ws.categories.Lawful
  mem_iff : ∀ path, path ∈ ws.categories.keys ↔ path ∈ paths

/-- there are as many entries as different paths -/
theorem Workspace.Covers.size_eq {ws : Workspace} {paths : List String} (h : ws.Covers paths) :
    ws.categories.size = paths.toFinset.card := by
  have hkeys : ws.categories.keys.toFinset = paths.toFinset := by
    ext path
    rw [List.mem_toFinset, List.mem_toFinset, h.mem_iff]
  rw [← hkeys, List.toFinset_card_of_nodup h.lawful, Memo.keys, List.length_map, Memo.size]

theorem Workspace.Covers.of_same {ws ws' : Workspace} {paths : List String} (h : ws.Covers paths)
    (hsame : ws'.categories = ws.categories) : ws'.Covers paths := by
  refine ⟨?_, ?_⟩
  · rw [hsame]
    exact h.lawful
  · rw [hsame]
    exact h.mem_iff

/-! ## Questions -/

section

variable {φ : Sample → ℤ} {c d : String → ℤ} {p : Pipeline}

/-- what the samples weigh, less what the kept categories have cost -/
def Workspace.balance (φ : Sample → ℤ) (share : ℤ) (ws : Workspace) : ℤ :=
  weight φ ws.world.samples - share * ws.categories.size

/-- rewriting a text weighs nothing, whether it is kept or not -/
theorem Rates.weight_rewritten (h : Rates φ c d) {rules : List Normalizer} {text : String} {w w' : World}
    (hworld : w' = w ∨ w' = (normalize rules text w).2) : weight φ w'.samples = weight φ w.samples := by
  rcases hworld with rfl | rfl
  · rfl
  · rw [h.normalize_weighs rules text w, add_zero]

namespace Question

/-- categories that are not cut short are kept -/
theorem uncut_iff {path : String} {found : List Selection} :
    cuts (.categories path) found = [] ↔ found.any Selection.isCancelled = false := by
  change (if found.any Selection.isCancelled then [()] else []) = [] ↔ _
  cases found.any Selection.isCancelled with
  | true => exact iff_of_false (List.cons_ne_nil _ _) Bool.noConfusion
  | false => exact iff_of_true rfl rfl

/-- categories that are found, and not cut short -/
theorem whole_of_uncut {path : String} {ws : Workspace} (hmiss : ws.categories.get? path = none)
    (huncut : cuts (.categories path) ((Question.categories path).answer p ws).1 = []) :
    (selectCategories p.categories path ws.world).1.any Selection.isCancelled = false := by
  rw [← Workspace.selectCategories_of_miss p.categories hmiss]
  exact uncut_iff.1 huncut

/-- other questions leave the categories that are kept -/
theorem answer_categories {q : Question} (hq : ∀ path, q ≠ .categories path) (ws : Workspace) :
    (q.answer p ws).2.categories = ws.categories := by
  cases q with
  | categories path => exact absurd rfl (hq path)
  | rewriteLabel label =>
    obtain ⟨world, kept, hws, -⟩ := Workspace.normalizeCategory_leaves p.categoryNormalizers label ws
    exact (congrArg Workspace.categories hws : _)
  | rewriteValue value =>
    obtain ⟨world, kept, hws, -⟩ := Workspace.normalizeNode_leaves p.nodeNormalizers value ws
    exact (congrArg Workspace.categories hws : _)
  | walk root => rfl
  | nodes category content => rfl

/-- and weigh nothing, but for looking for nodes -/
theorem answer_weight (h : Rates φ c d) {q : Question} (hq : ∀ path, q ≠ .categories path) (ws : Workspace) :
    weight φ (q.answer p ws).2.world.samples = weight φ ws.world.samples +
      (lookups q (q.answer p ws).1).length * (p.nodes.map fun s => d s.name).sum := by
  cases q with
  | categories path => exact absurd rfl (hq path)
  | nodes category content =>
    simp only [lookups, List.length_singleton, Nat.cast_one, one_mul]
    exact h.selectNodes_weighs p.nodes category content ws.world
  | walk root =>
    simp only [lookups, List.length_nil, Nat.cast_zero, zero_mul]
    exact Walker.walk_weighs h.stageless ⟨root, p.ignore⟩ ws.world
  | rewriteLabel label =>
    obtain ⟨world, kept, hws, hworld⟩ := Workspace.normalizeCategory_leaves p.categoryNormalizers label ws
    simp only [lookups, List.length_nil, Nat.cast_zero, zero_mul, add_zero]
    rw [← h.weight_rewritten hworld]
    exact congrArg (fun ws : Workspace => weight φ ws.world.samples) hws
  | rewriteValue value =>
    obtain ⟨world, kept, hws, hworld⟩ := Workspace.normalizeNode_leaves p.nodeNormalizers value ws
    simp only [lookups, List.length_nil, Nat.cast_zero, zero_mul, add_zero]
    rw [← h.weight_rewritten hworld]
    exact congrArg (fun ws : Workspace => weight φ ws.world.samples) hws

/-- asking for categories costs what is kept for it -/
theorem categories_balance (h : Rates φ c d) {path : String} {ws : Workspace}
    (huncut : cuts (.categories path) ((Question.categories path).answer p ws).1 = []) :
    ((Question.categories path).answer p ws).2.balance φ (p.categories.map fun s => c s.name).sum =
      ws.balance φ (p.categories.map fun s => c s.name).sum := by
  change (Workspace.selectCategories p.categories path ws).2.balance φ _ = _
  cases hkept : ws.categories.get? path with
  | some kept => rw [Workspace.selectCategories_hit hkept]
  | none =>
    rw [Workspace.selectCategories_stored hkept (whole_of_uncut hkept huncut), Memo.insertIfAbsent_of_absent hkept,
      Workspace.balance, Workspace.balance, h.selectCategories_weighs p.categories path ws.world]
    simp only [Memo.size, List.length_append, List.length_singleton]
    push_cast
    ring

/-- **An answer** is paid for by the categories that are kept, and by looking for nodes. -/
theorem answer_balance (h : Rates φ c d) (q : Question) (ws : Workspace)
    (huncut : cuts q (q.answer p ws).1 = []) :
    (q.answer p ws).2.balance φ (p.categories.map fun s => c s.name).sum =
      ws.balance φ (p.categories.map fun s => c s.name).sum +
        (lookups q (q.answer p ws).1).length * (p.nodes.map fun s => d s.name).sum := by
  by_cases hq : ∀ path, q ≠ .categories path
  · rw [Workspace.balance, Workspace.balance, answer_weight h hq, answer_categories hq]
    exact add_sub_right_comm _ _ _
  · push Not at hq
    obtain ⟨path, rfl⟩ := hq
    simp only [categories_balance h huncut, lookups, List.length_nil, Nat.cast_zero, zero_mul, add_zero]

/-- categories that are asked for are kept -/
theorem categories_kept {path : String} {ws : Workspace}
    (huncut : cuts (.categories path) ((Question.categories path).answer p ws).1 = []) :
    (((Question.categories path).answer p ws).2.categories.get? path).isSome := by
  let service := Service.categories p.categories
  change ((service.table (service.ask path ws).2).get? path).isSome
  rw [Service.get?_ask, if_pos rfl]
  cases hkept : (service.table ws).get? path with
  | some kept => rfl
  | none =>
    have hkeep : service.keep (service.bare path ws.world).1 = some (service.bare path ws.world).1 :=
      if_neg (Bool.eq_false_iff.1 (whole_of_uncut hkept huncut))
    rw [hkeep]
    rfl

/-- **Behind an answer** categories are kept for the path that was asked for as well, if any. -/
theorem answer_covers {ws : Workspace} {seen : List String} (hcovers : ws.Covers seen) (q : Question)
    (huncut : cuts q (q.answer p ws).1 = []) : (q.answer p ws).2.Covers (seen ++ paths q (q.answer p ws).1) := by
  by_cases hq : ∀ path, q ≠ .categories path
  · have hnone : paths q (q.answer p ws).1 = [] := by
      cases q with
      | categories path => exact absurd rfl (hq path)
      | _ => rfl
    rw [hnone, List.append_nil]
    exact hcovers.of_same (answer_categories hq ws)
  · push Not at hq
    obtain ⟨path, rfl⟩ := hq
    have hkeys := @Service.mem_keys_ask _ _ (Service.categories p.categories) path ws (categories_kept huncut)
    refine ⟨@Service.lawful_ask _ _ (Service.categories p.categories) ws hcovers.lawful path, fun other => ?_⟩
    rw [paths, List.mem_append]
    exact (hkeys other).trans (or_congr (hcovers.mem_iff other) List.mem_singleton.symm)

end Question

theorem Workspace.Same.balance_eq {ws ws' : Workspace} (h : ws.Same ws') (share : ℤ) :
    ws'.balance φ share = ws.balance φ share := by
  rw [Workspace.balance, Workspace.balance, h.samples, h.categories]

open Question (cuts lookups paths)

/-- **Questions one after the other**, none of whose answers has been cut short -/
theorem Asked.balance (h : Rates φ c d) {ws ws' : Workspace} {asks : List (Question × Workspace)}
    (hasked : Asked p ws asks ws') (huncut : readings p cuts asks = []) {seen : List String}
    (hcovers : ws.Covers seen) :
    ws'.balance φ (p.categories.map fun s => c s.name).sum =
        ws.balance φ (p.categories.map fun s => c s.name).sum +
          (readings p lookups asks).length * (p.nodes.map fun s => d s.name).sum ∧
      ws'.Covers (seen ++ readings p paths asks) := by
  -- `seen` grows along the questions, so that a path which is asked for again costs nothing
  induction hasked generalizing seen with
  | nil hsame =>
    refine ⟨?_, ?_⟩
    · rw [hsame.balance_eq, readings, List.flatMap_nil, List.length_nil, Nat.cast_zero, zero_mul, add_zero]
    · rw [readings, List.flatMap_nil, List.append_nil]
      exact hcovers.of_same hsame.categories
  | @cons ws ws₁ ws' q rest hsame _ ih =>
    rw [readings, List.flatMap_cons, List.append_eq_nil_iff] at huncut
    have hbalance := q.answer_balance h ws₁ huncut.1
    have hanswer := q.answer_covers (hcovers.of_same hsame.categories) huncut.1
    obtain ⟨hrest, hbehind⟩ := ih huncut.2 hanswer
    refine ⟨?_, ?_⟩
    · rw [hrest, hbalance, hsame.balance_eq, readings, readings, List.flatMap_cons, List.length_append]
      push_cast
      ring
    · rwa [List.append_assoc] at hbehind

/-- **From the start**, category rules are called once for every path that is asked about, and node rules once for
every time that nodes are looked for. -/
theorem Asked.weight_eq (h : Rates φ c d) {world : World} {ws' : Workspace} {asks : List (Question × Workspace)}
    (hfresh : world.samples = []) (hasked : Asked p { world := world } asks ws')
    (huncut : readings p cuts asks = []) :
    weight φ ws'.world.samples =
      (p.categories.map fun s => c s.name).sum * (readings p paths asks).toFinset.card +
        (p.nodes.map fun s => d s.name).sum * (readings p lookups asks).length := by
  have hempty : Workspace.Covers { world := world } [] := ⟨List.nodup_nil, fun _ => Iff.rfl⟩
  have hstart : Workspace.balance φ (p.categories.map fun s => c s.name).sum { world := world } = 0 := by
    rw [Workspace.balance, hfresh]
    change (0 : ℤ) - _ * 0 = 0
    rw [mul_zero, sub_zero]
  obtain ⟨hbalance, hcovers⟩ := hasked.balance h huncut hempty
  rw [hstart, zero_add, Workspace.balance, hcovers.size_eq, List.nil_append] at hbalance
  rw [sub_eq_iff_eq_add] at hbalance
  rw [hbalance, add_comm, mul_comm (readings p lookups asks).length.cast]

end

/-! ## Several runs -/

/-- a run of a pipeline that is used for several -/
structure Job where
  input : Source
  /-- what happens to the files before the run -/
  change : FileNode → FileNode := id
  signal : Nat → Bool := fun _ => false
  output : Output := {}

namespace Job

/-- the state in which the run starts -/
def start (job : Job) (ws : Workspace) : RunState where
  workspace := { ws with world := { ws.world with files := job.change ws.world.files, signal := job.signal } }
  output := job.output

/-- the same run, with room for all that it writes -/
def roomy (job : Job) : Job := { job with output := {} }

theorem start_same (job : Job) (ws : Workspace) : ws.Same (job.start ws).workspace := ⟨rfl, rfl⟩

/-- the same happens before both runs -/
theorem start_alike (job : Job) {ws ws' : Workspace} (h : ws.Alike ws') :
    (job.start ws).workspace.Alike (job.roomy.start ws').workspace := by
  refine ⟨⟨⟨h.world.env, rfl, h.world.looks, h.world.sessions⟩, ?_⟩, h.categories, h.categoryNormalizers⟩
  exact congrArg job.change h.world.files

end Job

namespace Pipeline

variable (p : Pipeline)

/-- the workspace behind a run -/
def behind (job : Job) (ws : Workspace) : Workspace := ((p.run job.input).run (job.start ws)).2.workspace

/-- the workspace behind several runs -/
def behindAll (jobs : List Job) (ws : Workspace) : Workspace := jobs.foldl (fun ws job => p.behind job ws) ws

/-- what several runs give -/
def results : List Job → Workspace → List (Except RunError Summary)
  | [], _ => []
  | job :: rest, ws => ((p.run job.input).run (job.start ws)).1 :: results rest (p.behind job ws)

/-- what several runs ask -/
def asked : List Job → Workspace → List (Question × Workspace)
  | [], _ => []
  | job :: rest, ws => (p.traced job.input).asks (job.start ws) ++ asked rest (p.behind job ws)

variable {p} {jobs : List Job} {ws ws' : Workspace} {summaries : List Summary}

/-- **Runs that succeed** are settled together, and their questions come one from another. -/
theorem results_settled (hfull : p.categoryOnly = false) (hok : p.results jobs ws = summaries.map .ok) :
    Settled p (p.asked jobs ws) ∧ Asked p ws (p.asked jobs ws) (p.behindAll jobs ws) := by
  induction jobs generalizing ws summaries with
  | nil => exact ⟨fun _ _ _ _ _ => rfl, .nil (.refl ws)⟩
  | cons job rest ih =>
    cases summaries with
    | nil => cases hok
    | cons summary others =>
      obtain ⟨hfirst, hrest⟩ := List.cons.inj hok
      obtain ⟨hsettled, hasked⟩ := traced_settled hfull hfirst
      obtain ⟨hsettled', hasked'⟩ := ih hrest
      exact ⟨hsettled.append hsettled', (hasked.behind (job.start_same ws)).trans hasked'⟩

theorem lookups_length (asks : List (Question × Workspace)) :
    (readings p Question.lookups asks).length = asks.countP (·.1.isNodes) := by
  induction asks with
  | nil => rfl
  | cons x rest ih =>
    rw [readings, List.flatMap_cons, List.length_append, List.countP_cons, add_comm]
    obtain ⟨q, ws⟩ := x
    cases q <;> exact congrArg (· + _) ih

/-- **Runs that stop behind the categories** write as many records as the whole runs have looked for nodes. -/
theorem results_shadow (hplaced : p.Placed) (hfull : p.categoryOnly = false) (halike : ws.Alike ws')
    (hgentle : ∀ x ∈ p.asked jobs ws, x.1.forNodes = true → x.1.Spares p x.2)
    (hok : p.results jobs ws = summaries.map .ok) :
    ∃ previews : List Summary, p.stopping.results (jobs.map Job.roomy) ws' = previews.map .ok ∧
      (previews.map Summary.records).sum = (readings p Question.lookups (p.asked jobs ws)).length := by
  -- both leave workspaces that are alike, from which the next two start
  induction jobs generalizing ws ws' summaries with
  | nil => exact ⟨[], rfl, rfl⟩
  | cons job rest ih =>
    cases summaries with
    | nil => cases hok
    | cons summary others =>
      obtain ⟨hfirst, hrest⟩ := List.cons.inj hok
      obtain ⟨hgentle, hgentle'⟩ := List.forall_mem_append.1 hgentle
      obtain ⟨preview, hpreview, hbehind, done, done', -, hdid, -, hlookups⟩ :=
        run_shadows hplaced hfull (job.start_alike halike) hgentle hfirst (.inl rfl)
      obtain ⟨previews, hpreviews, hsum⟩ := ih hbehind hgentle' hrest
      have hrecords : preview.records = (recordsOf done').length := by
        rw [(work_of_ok hpreview).2, hdid.summary, foldl_tally]
        exact Nat.zero_add _
      refine ⟨preview :: previews, congrArg₂ _ hpreview hpreviews, ?_⟩
      rw [List.map_cons, List.sum_cons, hsum, hrecords, ← hlookups, asked, lookups_length, lookups_length,
        List.countP_append]
      rfl

/-! ## The table behind them -/

/-- a table of metrics accounts for what some runs have asked -/
structure Accounts (c : Config) (p : Pipeline) (asks : List (Question × Workspace))
    (table : List (String × Aggregate)) : Prop where
  /-- the categories of each line are asked for once -/
  paths : (readings p Question.paths asks).Perm (readings p Question.linePaths asks)
  /-- each output of a category rule is rewritten once -/
  labels : (readings p Question.labels asks).Perm (readings p Question.outputs asks)
  /-- the category rules of a name are called for each path that has a line, once -/
  categories : ∀ n, countAt table (entryName ("named-category-selector-" ++ n) none) =
    c.category.countP (fun rule => sanitizeKey rule.name = n) * (readings p Question.linePaths asks).toFinset.card
  /-- the node rules of a name are called for each text that an output for a line is rewritten to -/
  nodes : ∀ n, countAt table (entryName ("named-node-selector-" ++ n) none) =
    c.node.countP (fun rule => sanitizeKey rule.name = n) * (readings p Question.combinations asks).length
  /-- normalizers are called as often as their chains, and the calls end alike -/
  normalizers : ∀ n outcome, countAt table (entryName ("named-normalizer-" ++ n) outcome) =
    countAt table (entryName ("named-matcher-" ++ n) outcome)

/-- how many of some rules have a name -/
theorem sum_named {α β : Type} {name : α → String} {name' : β → String} {rules : List α} {specs : List β}
    (h : rules.map name = specs.map name') (n : String) :
    (rules.map fun rule => named n (name rule)).sum = specs.countP fun spec => sanitizeKey (name' spec) = n := by
  have hshares : rules.map (fun rule => named n (name rule)) = specs.map fun spec => named n (name' spec) := by
    simpa [List.map_map, Function.comp_def] using congrArg (List.map (named n)) h
  rw [hshares]
  exact sum_map_ite _ _

/-- **The table of runs that succeed** accounts for what they have asked. -/
theorem accounts_of_asked {c : Config} {world : World} {asks : List (Question × Workspace)}
    (hnames : p.Names c) (hfresh : world.samples = []) (hsettled : Settled p asks)
    (hasked : Asked p { world := world } asks ws') : Accounts c p asks ws'.world.table := by
  have hweight := fun {φ : Sample → ℤ} {e d : String → ℤ} (h : Rates φ e d) => hasked.weight_eq h hfresh hsettled.uncut
  have hnodes : p.nodes.map (·.name) = c.node.map (·.name) := by
    simpa [List.map_map, Function.comp_def] using congrArg (List.map Prod.fst) hnames.nodes
  refine ⟨hsettled.paths_perm, hsettled.labels_perm, fun n => ?_, fun n => ?_, fun n outcome => ?_⟩
  · have hcount := (countAt_table ws'.world .category n none).trans (hweight (.categories n))
    rw [sum_named hnames.categories, List.map_const', List.sum_replicate, smul_zero, zero_mul, add_zero,
      List.toFinset_eq_of_perm _ _ hsettled.paths_perm] at hcount
    exact_mod_cast hcount
  · have hcount := (countAt_table ws'.world .node n none).trans (hweight (.nodes n))
    rw [sum_named hnodes, List.map_const', List.sum_replicate, smul_zero, zero_mul, zero_add,
      hsettled.lookups_eq] at hcount
    exact_mod_cast hcount
  · have hdiff := hweight (.normalizers n outcome)
    rw [weight_sub, ← countAt_table, ← countAt_table, List.map_const', List.map_const', List.sum_replicate,
      List.sum_replicate, smul_zero, smul_zero, zero_mul, zero_mul, add_zero, sub_eq_zero] at hdiff
    exact_mod_cast hdiff

/-- **Metrics account for the work done.** Let a pipeline be built from a configuration, and let several runs of it
succeed, one after the other, with whatever changes of the files between them. Then the table of metrics behind them
accounts for what they have asked; and if whatever looks for nodes or rewrites their texts leaves the files as they
were, then the same runs succeed as well when they stop behind the categories, and the records that they write are as
many as the combinations of a line, an output of a category rule for it, and a text that it is rewritten to. -/
theorem metrics_account {env : Environment} {c : Config} (hbuilt : Pipeline.build env c = .ok p) (world : World)
    (hfresh : world.samples = []) (jobs : List Job) (hok : p.results jobs { world := world } = summaries.map .ok) :
    let asks := p.asked jobs { world := world }
    Accounts c p asks (p.behindAll jobs { world := world }).world.table ∧
      ((∀ x ∈ asks, x.1.forNodes = true → x.1.Spares p x.2) →
        ∃ previews : List Summary,
          p.stopping.results (jobs.map Job.roomy) { world := world } = previews.map .ok ∧
            (previews.map Summary.records).sum = (readings p Question.combinations asks).length) := by
  have hfull := build_whole hbuilt
  have hnames : p.Names c := build_names hbuilt p.categoryOnly
  obtain ⟨hsettled, hasked⟩ := results_settled hfull hok
  refine ⟨accounts_of_asked hnames hfresh hsettled hasked, fun hgentle => ?_⟩
  rw [← hsettled.lookups_eq]
  exact results_shadow (placed_of_build hbuilt) hfull (.refl _) hgentle hok

/-- two rules share a name once it is sanitized, and the file is walked twice -/
theorem metrics_account_twice :
    let c : Config := {
      category := [{ name := "a b", filename := [.ofValues ["k", "l"]] },
        { name := "a_b", filename := [.ofValues ["k"]] }],
      node := [{ name := "n", category := letterPattern, matcher := [.ofValues ["v"]] }] }
    let ws : Workspace := { world := { files := smallTree } }
    let jobs : List Job := [⟨smallInput, id, fun _ => false, {}⟩, ⟨smallInput, id, fun _ => false, {}⟩]
    ∃ p, Pipeline.build ⟨[]⟩ c = .ok p ∧ p.results jobs ws = [⟨1, 1, 2⟩, ⟨1, 1, 2⟩].map .ok ∧
      let table := (p.behindAll jobs ws).world.table
      countAt table (entryName "named-category-selector-a_b" none) = 2 * 1 ∧
        countAt table (entryName "named-node-selector-n" none) = 1 * 6 ∧
        ∃ previews : List Summary, p.stopping.results (jobs.map Job.roomy) ws = previews.map .ok ∧
          (previews.map Summary.records).sum = 6 := by
  intro c ws jobs
  have hbuilt : Pipeline.build ⟨[]⟩ c = .ok _ := rfl
  refine ⟨_, hbuilt, by decide +kernel, ?_⟩
  obtain ⟨haccounts, hstopping⟩ := @metrics_account _ [⟨1, 1, 2⟩, ⟨1, 1, 2⟩] _ _ hbuilt { files := smallTree } rfl jobs
    (by decide +kernel)
  refine ⟨(haccounts.categories "a_b").trans (by decide +kernel), (haccounts.nodes "n").trans (by decide +kernel), ?_⟩
  obtain ⟨previews, hpreviews, hsum⟩ := hstopping fun x _ => Question.spares_of_still (fun rule hrule s hs => by
    cases List.mem_singleton.1 hrule
    cases List.mem_singleton.1 hs
    exact fun _ _ _ => rfl) fun n hn => absurd hn List.not_mem_nil
  exact ⟨previews, hpreviews, hsum.trans (by decide +kernel)⟩

/-- looking for nodes in the first file empties the second one, in which the runs that stop behind the categories find a
line -/
theorem lookups_differ_when_written :
    let c : Config := {
      category := [{ name := "c", filename := [.ofValues ["k"]] }],
      node := [{ name := "n", category := letterPattern, matcher := [.ofShell ">b>a/x"] }] }
    let ws : Workspace := { world := {
      files := .dir [("a", .file [120, 10]), ("b", .file [121, 10])], env := ⟨[("PATH", "/usr/bin")]⟩ } }
    let job : Job := ⟨{ bytes := [97, 10, 98, 10] }, id, fun _ => false, {}⟩
    ∃ p, Pipeline.build ⟨[("PATH", "/usr/bin")]⟩ c = .ok p ∧ p.results [job] ws = [.ok ⟨2, 1, 0⟩] ∧
      p.stopping.results [job] ws = [.ok ⟨2, 2, 2⟩] ∧
      countAt (p.behindAll [job] ws).world.table (entryName "named-node-selector-n" none) ≠
        c.node.countP (fun rule => sanitizeKey rule.name = "n") * 2 := by
  intro c ws job
  have hbuilt : Pipeline.build ⟨[("PATH", "/usr/bin")]⟩ c = .ok _ := rfl
  exact ⟨_, hbuilt, by decide +kernel, by decide +kernel, by decide +kernel⟩

end Pipeline

end Gleaner
