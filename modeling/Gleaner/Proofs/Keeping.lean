/-
What a pipeline keeps between its runs.

A pipeline that was built has every script at a place of its own (`Pipeline.Placed`). If its stages are functions of
their candidates (`Pipeline.Functional`), its chains give the same in all settled worlds. What it keeps is then what its
rules give in a fresh world (`Workspace.Kept`), whatever the signal was when it was computed: a list of categories that
the signal cut short is not kept.

Results:
- `build_placed`: a pipeline that was built is placed;
- `selectCategories_kept`, `normalizeCategory_kept`, `normalizeNode_kept`: what is looked up is what rules give in a
  fresh world, or shows that it was cut short, and what is kept stays as it should be.
-/
import Gleaner.Pipeline
import Gleaner.Proofs.Selections

namespace Gleaner

open Act

/-! ## Chains and scripts of a pipeline -/

namespace Pipeline

/-- the chain of a rule -/
def chainAt (p : Pipeline) : Part → Nat → Option Chain
  | .alone, _ => none
  | .ignore, i => if i = 0 then some p.ignore else none
  | .category, i => p.categories[i]?.map (·.chain)
  | .node, i => p.nodes[i]?.map (·.chain)
  | .categoryNormalizer, i => p.categoryNormalizers[i]?.map (·.chain)
  | .nodeNormalizer, i => p.nodeNormalizers[i]?.map (·.chain)

/-- the script that stands at a place -/
def scriptAt (p : Pipeline) (place : Place) : Option Callable :=
  ((p.chainAt place.part place.rule).bind (·.stages[place.stage]?)).bind Stage.callable?

/-- every chain stands where its rule does -/
def Placed (p : Pipeline) : Prop := ∀ part i c, p.chainAt part i = some c → c.place = ⟨part, i, 0⟩

/-- all stages are functions of their candidates -/
def Functional (p : Pipeline) (files : FileNode) (env : Environment) : Prop :=
  ∀ part i c, p.chainAt part i = some c → ∀ s ∈ c.stages, s.IsFunction files env

theorem Placed.stands {p : Pipeline} (h : p.Placed) {part : Part} {i : Nat} {c : Chain}
    (hc : p.chainAt part i = some c) : Chain.Stands p.scriptAt c.place c.stages := by
  intro j script hj
  rw [h part i c hc, scriptAt]
  simp only [Nat.zero_add, hc, Option.bind_some]
  exact hj

/-- the chains of a pipeline give the same in all settled worlds -/
theorem Functional.chain_gives {p : Pipeline} {files : FileNode} {env : Environment} (h : p.Functional files env)
    (hplaced : p.Placed) {part : Part} {i : Nat} {c : Chain} (hc : p.chainAt part i = some c) (text : String) :
    Gives (World.Settled p.scriptAt files env) (c.run text) (c.value files env text) :=
  c.run_gives (h part i c hc) (hplaced.stands hc) text

/-- a rule of a list whose chains are those of a part -/
theorem Functional.rule_gives {p : Pipeline} {files : FileNode} {env : Environment} (h : p.Functional files env)
    (hplaced : p.Placed) {α : Type} {rules : List α} {chain : α → Chain} {part : Part}
    (hrules : ∀ i, p.chainAt part i = rules[i]?.map chain) {rule : α} (hrule : rule ∈ rules) (text : String) :
    Gives (World.Settled p.scriptAt files env) ((chain rule).run text) ((chain rule).value files env text) := by
  obtain ⟨i, hi⟩ := List.mem_iff_getElem?.1 hrule
  have hc : p.chainAt part i = some (chain rule) := by rw [hrules, hi, Option.map_some]
  exact h.chain_gives hplaced hc text

theorem bind_eq_ok {α β : Type} {x : Except ConfigError α} {f : α → Except ConfigError β} {b : β}
    (h : (x >>= f) = .ok b) : ∃ a, x = .ok a ∧ f a = .ok b := by
  cases x with
  | error e => cases h
  | ok a => exact ⟨a, rfl, h⟩

theorem map_eq_ok {α β : Type} {x : Except ConfigError α} {f : α → β} {b : β} (h : x.map f = .ok b) :
    ∃ a, x = .ok a ∧ f a = b := by
  cases x with
  | error e => cases h
  | ok a => cases h; exact ⟨a, rfl, rfl⟩

theorem foundAt_eq_ok {α : Type} {place : String} {r : Except ConfigError α} {a : α} (h : foundAt place r = .ok a) :
    r = .ok a := by
  cases r with
  | ok b => exact h
  | error e => cases h

theorem compile_place {env : Environment} {place : Place} {specs : List StageSpec} {c : Chain}
    (h : Chain.compile env place specs = .ok c) : c.place = place := by
  obtain ⟨stages, -, rfl⟩ := map_eq_ok h
  rfl

theorem compileRules_getElem? {α β : Type} {what : String} {compile : Nat → α → Except ConfigError β} {k : Nat}
    {rules : List α} {found : List β} (h : Selection.compileRules what compile k rules = .ok found) {i : Nat} {r : β}
    (hr : found[i]? = some r) : ∃ rule, compile (k + i) rule = .ok r := by
  induction rules generalizing k found i with
  | nil => cases h; cases hr
  | cons rule rest ih =>
    obtain ⟨first, hfirst, h⟩ := bind_eq_ok h
    obtain ⟨others, hothers, h⟩ := bind_eq_ok h
    cases h
    cases i with
    | zero =>
      cases hr
      exact ⟨rule, foundAt_eq_ok hfirst⟩
    | succ i =>
      obtain ⟨other, hother⟩ := ih hothers hr
      exact ⟨other, by rw [← hother, Nat.add_right_comm, Nat.add_assoc]⟩

theorem category_place {env : Environment} {i : Nat} {rule : CategoryRule} {s : CategorySelector}
    (h : CategorySelector.compile env i rule = .ok s) : s.chain.place = { part := .category, rule := i } := by
  unfold CategorySelector.compile at h
  simp only at h
  split at h
  · obtain ⟨c, hc, rfl⟩ := map_eq_ok h
    exact compile_place (foundAt_eq_ok hc)
  · obtain ⟨c, hc, rfl⟩ := map_eq_ok h
    exact compile_place (foundAt_eq_ok hc)
  · cases h

theorem node_place {env : Environment} {i : Nat} {rule : NodeRule} {s : NodeSelector}
    (h : NodeSelector.compile env i rule = .ok s) : s.chain.place = { part := .node, rule := i } := by
  obtain ⟨c, hc, rfl⟩ := map_eq_ok h
  exact compile_place (foundAt_eq_ok hc)

theorem normalizer_place {env : Environment} {part : Part} {i : Nat} {rule : NormalizerRule} {n : Normalizer}
    (h : Normalizer.compile env part i rule = .ok n) : n.chain.place = { part := part, rule := i } := by
  obtain ⟨c, hc, rfl⟩ := map_eq_ok h
  exact compile_place (foundAt_eq_ok hc)

/-- the chain of a compiled rule stands where its compiler puts it -/
theorem compileRules_place {α β : Type} {what : String} {compile : Nat → α → Except ConfigError β}
    {rules : List α} {found : List β} {chain : β → Chain} {part : Part}
    (h : Selection.compileRules what compile 0 rules = .ok found)
    (hplace : ∀ i rule r, compile i rule = .ok r → (chain r).place = { part := part, rule := i }) {i : Nat} {c : Chain}
    (hc : found[i]?.map chain = some c) : c.place = ⟨part, i, 0⟩ := by
  obtain ⟨r, hr, rfl⟩ := Option.map_eq_some_iff.1 hc
  obtain ⟨rule, hrule⟩ := compileRules_getElem? h hr
  rw [Nat.zero_add] at hrule
  exact hplace i rule r hrule

/-- **A pipeline that was built** has every chain in its own place, whether or not it stops behind the categories. -/
theorem build_placed {env : Environment} {c : Config} {p : Pipeline} (h : Pipeline.build env c = .ok p)
    (categoryOnly : Bool) : { p with categoryOnly := categoryOnly }.Placed := by
  obtain ⟨ignore, hignore, h⟩ := bind_eq_ok h
  obtain ⟨categories, hcategories, h⟩ := bind_eq_ok h
  obtain ⟨nodes, hnodes, h⟩ := bind_eq_ok h
  obtain ⟨categoryNormalizers, hcategoryNormalizers, h⟩ := bind_eq_ok h
  obtain ⟨nodeNormalizers, hnodeNormalizers, h⟩ := bind_eq_ok h
  cases h
  intro part i chain hchain
  cases part with
  | alone => cases hchain
  | ignore =>
    simp only [chainAt] at hchain
    split_ifs at hchain with hi
    cases hchain
    rw [hi, compile_place (foundAt_eq_ok hignore)]
  | category => exact compileRules_place hcategories (fun _ _ _ => category_place) hchain
  | node => exact compileRules_place hnodes (fun _ _ _ => node_place) hchain
  | categoryNormalizer =>
    exact compileRules_place (foundAt_eq_ok hcategoryNormalizers) (fun _ _ _ => normalizer_place) hchain
  | nodeNormalizer =>
    exact compileRules_place (foundAt_eq_ok hnodeNormalizers) (fun _ _ _ => normalizer_place) hchain

end Pipeline

/-! ## Tables -/

namespace Memo

variable {α ε σ : Type}

/-- everything that is kept is good for its key -/
def Holds (good : String → α → Prop) (m : Memo α) : Prop := ∀ key value, (key, value) ∈ m.entries → good key value

theorem Holds.empty {good : String → α → Prop} : (Memo.empty : Memo α).Holds good := nofun

theorem Holds.get? {good : String → α → Prop} {m : Memo α} (h : m.Holds good) {key : String} {value : α}
    (hv : m.get? key = some value) : good key value := by
  obtain ⟨⟨k, v⟩, hfind, rfl⟩ := Option.map_eq_some_iff.1 hv
  have hkey : k = key := by simpa using List.find?_some hfind
  exact hkey ▸ h k v (List.mem_of_find?_eq_some hfind)

theorem Holds.insertIfAbsent {good : String → α → Prop} {m : Memo α} (h : m.Holds good) {key : String} {value : α}
    (hv : good key value) :
    (m.insertIfAbsent key value).1.Holds good ∧ good key (m.insertIfAbsent key value).2 := by
  unfold Memo.insertIfAbsent
  cases hget : m.get? key with
  | some kept => exact ⟨h, h.get? hget⟩
  | none =>
    refine ⟨fun k v hmem => ?_, hv⟩
    rcases List.mem_append.1 hmem with hmem | hmem
    · exact h k v hmem
    · cases List.mem_singleton.1 hmem
      exact hv

/-- **Looking a key up** gives something good for it or fails as the computation does, and what is kept stays good. -/
theorem getOrTry_holds {good : String → α → Prop} {Inv : σ → Prop} {failure : ε → Prop} {read : σ → Memo α}
    {write : σ → Memo α → σ} {key : String} {compute : σ → Except ε α × σ} (hread : ∀ s, Inv s → (read s).Holds good)
    (hwrite : ∀ s m, Inv s → m.Holds good → Inv (write s m))
    (hcompute : ∀ s, Inv s → Inv (compute s).2 ∧
      ((∃ v, (compute s).1 = .ok v ∧ good key v) ∨ ∃ e, (compute s).1 = .error e ∧ failure e)) {s : σ} (hs : Inv s) :
    Inv (getOrTry read write key compute s).2 ∧
      ((∃ v, (getOrTry read write key compute s).1 = .ok v ∧ good key v) ∨
        ∃ e, (getOrTry read write key compute s).1 = .error e ∧ failure e) := by
  unfold getOrTry
  cases hget : (read s).get? key with
  | some value => exact ⟨hs, .inl ⟨value, rfl, (hread s hs).get? hget⟩⟩
  | none =>
    obtain ⟨hinv, hresult⟩ := hcompute s hs
    rcases hc : compute s with ⟨r, s'⟩
    rw [hc] at hinv hresult
    rcases hresult with ⟨v, rfl, hgood⟩ | ⟨e, rfl, hfail⟩
    · obtain ⟨hholds, hkept⟩ := (hread s' hinv).insertIfAbsent hgood
      exact ⟨hwrite _ _ hinv hholds, .inl ⟨_, rfl, hkept⟩⟩
    · exact ⟨hinv, .inr ⟨e, rfl, hfail⟩⟩

end Memo

/-! ## What is kept between runs -/

namespace Pipeline

/-- the categories of a path in a fresh world -/
def categoriesOf (p : Pipeline) (files : FileNode) (env : Environment) (path : String) : List Selection :=
  Selection.gather CategorySelector.name (fun rule => rule.value files env path) 0 p.categories

/-- the nodes in a line of a file of a category, in a fresh world -/
def nodesOf (p : Pipeline) (files : FileNode) (env : Environment) (category content : String) : List Selection :=
  Selection.gather NodeSelector.name (fun rule => rule.value files env category content) 0 p.nodes

end Pipeline

namespace Workspace

/-- the world is settled, and what is kept is what rules give in a fresh one -/
structure Kept (p : Pipeline) (files : FileNode) (env : Environment) (ws : Workspace) : Prop where
  world : ws.world.Settled p.scriptAt files env
  categories : ws.categories.Holds fun path found => found = p.categoriesOf files env path
  categoryNormalizers :
    ws.categoryNormalizers.Holds fun label found => rewritten files env p.categoryNormalizers label = .ok found
  nodeNormalizers : ws.nodeNormalizers.Holds fun value found => rewritten files env p.nodeNormalizers value = .ok found

/-- what is kept is right, and the signal is a given one -/
def KeptUnder (p : Pipeline) (files : FileNode) (env : Environment) (fires : Nat → Bool) (ws : Workspace) : Prop :=
  ws.Kept p files env ∧ ws.world.signal = fires

variable {p : Pipeline} {files : FileNode} {env : Environment} {fires : Nat → Bool} {ws : Workspace}

theorem kept_fresh : ({ world := World.fresh files env } : Workspace).Kept p files env :=
  ⟨World.settled_fresh, Memo.Holds.empty, Memo.Holds.empty, Memo.Holds.empty⟩

theorem KeptUnder.settledUnder (h : ws.KeptUnder p files env fires) :
    ws.world.SettledUnder p.scriptAt files env fires := ⟨h.1.world, h.2⟩

/-- what is kept does not depend on the world -/
theorem KeptUnder.act {α : Type} (h : ws.KeptUnder p files env fires) {a : Act α}
    (hworld : (a ws.world).2.SettledUnder p.scriptAt files env fires) :
    (act a ws).2.KeptUnder p files env fires :=
  ⟨⟨hworld.1, h.1.categories, h.1.categoryNormalizers, h.1.nodeNormalizers⟩, hworld.2⟩

end Workspace

section

variable {p : Pipeline} {files : FileNode} {env : Environment} {fires : Nat → Bool}

theorem Pipeline.Functional.category_gives (h : p.Functional files env) (hplaced : p.Placed) {rule : CategorySelector}
    (hrule : rule ∈ p.categories) (text : String) :
    Gives (World.SettledUnder p.scriptAt files env fires) (rule.chain.run text) (rule.chain.value files env text) :=
  have hrules : ∀ i, p.chainAt .category i = p.categories[i]?.map (·.chain) := fun _ => rfl
  (h.rule_gives hplaced hrules hrule text).under (rule.chain.run_blind text)

theorem Chain.value_uncut (c : Chain) (text : String) : Uncut (c.value files env text) :=
  c.run_uncut text (World.fresh files env)

/-- what a category rule gives in a fresh world -/
theorem Pipeline.Functional.category_value (h : p.Functional files env) (hplaced : p.Placed) {rule : CategorySelector}
    (hrule : rule ∈ p.categories) (path : String) :
    rule.value files env path = rule.outcome (rule.chain.value files env) files path := by
  have hsettles : Settles (World.SettledUnder p.scriptAt files env fun _ => false) (rule.select path)
      (rule.outcome (rule.chain.value files env) files path) fun r => Rises (fun _ => false) ∧ IsCutResult r :=
    rule.select_settles (fun text => h.category_gives hplaced hrule text) path
  rcases (hsettles _ World.settledUnder_fresh).1 with hvalue | ⟨⟨n, hn⟩, -⟩
  · exact hvalue
  · cases hn

theorem Pipeline.Functional.categories_settle (h : p.Functional files env) (hplaced : p.Placed) (path : String) :
    Settles (World.SettledUnder p.scriptAt files env fires) (selectCategories p.categories path)
      (p.categoriesOf files env path) fun found => Rises fires ∧ found.any Selection.isCancelled = true := by
  have hrules : ∀ rule ∈ p.categories, Settles (World.SettledUnder p.scriptAt files env fires) (rule.select path)
      (rule.value files env path) fun r => Rises fires ∧ IsCutResult r := by
    intro rule hrule
    rw [h.category_value hplaced hrule]
    exact rule.select_settles (fun text => h.category_gives hplaced hrule text) path
  exact Selection.selectAll_settles hrules 0

/-- no category in a fresh world shows a signal -/
theorem Pipeline.Functional.categories_uncut (h : p.Functional files env) (hplaced : p.Placed) (path : String) :
    (p.categoriesOf files env path).any Selection.isCancelled = false := by
  refine Selection.gather_uncut (fun rule hrule => ?_) 0
  rw [h.category_value hplaced hrule]
  exact rule.outcome_uncut (fun text => rule.chain.value_uncut text) path

theorem Pipeline.Functional.nodes_give (h : p.Functional files env) (hplaced : p.Placed) (category content : String) :
    Gives (World.SettledUnder p.scriptAt files env fires) (selectNodes p.nodes category content)
      (p.nodesOf files env category content) := by
  have hrules : ∀ i, p.chainAt .node i = p.nodes[i]?.map (·.chain) := fun _ => rfl
  refine (selectNodes_gives (fun rule hrule text => ?_) category content).under (selectNodes_blind _ _ _)
  exact ⟨_, h.rule_gives hplaced hrules hrule text⟩

theorem Pipeline.Functional.normalize_give (h : p.Functional files env) (hplaced : p.Placed) {rules : List Normalizer}
    {part : Part} (hrules : ∀ i, p.chainAt part i = rules[i]?.map (·.chain)) (input : String) :
    Gives (World.SettledUnder p.scriptAt files env fires) (normalize rules input)
      (rewritten files env rules input) := by
  refine (normalize_gives (fun rule hrule text => ?_) input).under (normalizeFrom_blind input 0 rules)
  exact ⟨_, h.rule_gives hplaced hrules hrule text⟩

end

namespace Workspace

variable {p : Pipeline} {files : FileNode} {env : Environment} {fires : Nat → Bool} {ws : Workspace}

/-- what is done for a path whose categories are not kept; categories that were cut short count as a failure -/
def computeCategories (rules : List CategorySelector) (path : String) (ws : Workspace) :
    Except (List Selection) (List Selection) × Workspace :=
  let (found, ws) := act (Gleaner.selectCategories rules path) ws
  (if found.any Selection.isCancelled then .error found else .ok found, ws)

theorem selectCategories_eq (rules : List CategorySelector) (path : String) (ws : Workspace) :
    selectCategories rules path ws =
      match Memo.getOrTry (·.categories) (fun ws m => { ws with categories := m }) path (computeCategories rules path)
        ws with
      | (.ok found, ws) => (found, ws)
      | (.error found, ws) => (found, ws) := rfl

/-- **Categories that are looked up** are good, since good ones are kept and computed, or they were cut short. -/
theorem selectCategories_holds {rules : List CategorySelector} {Inv : Workspace → Prop}
    {good : String → List Selection → Prop} (cut : List Selection → Prop) {path : String}
    (hread : ∀ ws : Workspace, Inv ws → ws.categories.Holds good)
    (hkeep : ∀ (ws : Workspace) m, Inv ws → m.Holds good → Inv { ws with categories := m })
    (hact : ∀ ws, Inv ws → Inv (act (Gleaner.selectCategories rules path) ws).2)
    (hgood : ∀ ws, Inv ws → (Gleaner.selectCategories rules path ws.world).1.any Selection.isCancelled = false →
      good path (Gleaner.selectCategories rules path ws.world).1)
    (hcut : ∀ ws, Inv ws → (Gleaner.selectCategories rules path ws.world).1.any Selection.isCancelled = true →
      cut (Gleaner.selectCategories rules path ws.world).1) (hws : Inv ws) :
    Inv (selectCategories rules path ws).2 ∧
      (good path (selectCategories rules path ws).1 ∨ cut (selectCategories rules path ws).1) := by
  have hcompute : ∀ ws, Inv ws → Inv (computeCategories rules path ws).2 ∧
      ((∃ v, (computeCategories rules path ws).1 = .ok v ∧ good path v) ∨
        ∃ found, (computeCategories rules path ws).1 = .error found ∧ cut found) := by
    intro ws hws
    refine ⟨hact ws hws, ?_⟩
    have hresult : (computeCategories rules path ws).1 =
        if (Gleaner.selectCategories rules path ws.world).1.any Selection.isCancelled then
          .error (Gleaner.selectCategories rules path ws.world).1
        else .ok (Gleaner.selectCategories rules path ws.world).1 := rfl
    rw [hresult]
    split
    · next hup => exact .inr ⟨_, rfl, hcut ws hws hup⟩
    · next hdown => exact .inl ⟨_, rfl, hgood ws hws (Bool.eq_false_of_not_eq_true hdown)⟩
  obtain ⟨hkept, hresult⟩ := Memo.getOrTry_holds hread hkeep hcompute hws
  rw [selectCategories_eq]
  rcases hget : Memo.getOrTry (·.categories) (fun ws m => { ws with categories := m }) path
    (computeCategories rules path) ws with ⟨r, ws'⟩
  rw [hget] at hkept hresult
  rcases hresult with ⟨v, rfl, hv⟩ | ⟨found, rfl, hfound⟩
  · simp only [hget]
    exact ⟨hkept, .inl hv⟩
  · simp only [hget]
    exact ⟨hkept, .inr hfound⟩

/-- **The categories that are looked up** are those of a fresh world, or show that they were cut short. -/
theorem selectCategories_kept (h : p.Functional files env) (hplaced : p.Placed) (hws : ws.KeptUnder p files env fires)
    (path : String) :
    (selectCategories p.categories path ws).2.KeptUnder p files env fires ∧
      ((selectCategories p.categories path ws).1 = p.categoriesOf files env path ∨
        Rises fires ∧ (selectCategories p.categories path ws).1.any Selection.isCancelled = true) := by
  have hsettle := fun (ws : Workspace) (hws : ws.KeptUnder p files env fires) =>
    h.categories_settle hplaced path ws.world hws.settledUnder
  have hkeep : ∀ (ws : Workspace) m, ws.KeptUnder p files env fires →
      m.Holds (fun path found => found = p.categoriesOf files env path) →
      ({ ws with categories := m } : Workspace).KeptUnder p files env fires :=
    fun ws m hws hm => ⟨⟨hws.1.world, hm, hws.1.categoryNormalizers, hws.1.nodeNormalizers⟩, hws.2⟩
  refine selectCategories_holds (fun found => Rises fires ∧ found.any Selection.isCancelled = true)
    (fun _ hws => hws.1.categories) hkeep (fun ws hws => hws.act (hsettle ws hws).2) (fun ws hws hdown => ?_)
    (fun ws hws hup => ?_) hws
  · rcases (hsettle ws hws).1 with hfound | ⟨-, hcut⟩
    · exact hfound
    · rw [hcut] at hdown
      cases hdown
  · rcases (hsettle ws hws).1 with hfound | ⟨hrises, -⟩
    · rw [hfound, h.categories_uncut hplaced path] at hup
      cases hup
    · exact ⟨hrises, hup⟩

/-- looking up what a text is rewritten to, in one of the tables for it -/
theorem normalize_kept {rules : List Normalizer} {read : Workspace → Memo (List Normalized)}
    {write : Workspace → Memo (List Normalized) → Workspace} {input : String}
    (hgives : Gives (World.SettledUnder p.scriptAt files env fires) (normalize rules input)
      (rewritten files env rules input))
    (hread : ∀ ws, ws.KeptUnder p files env fires →
      (read ws).Holds fun key found => rewritten files env rules key = .ok found)
    (hwrite : ∀ ws m, ws.KeptUnder p files env fires →
      m.Holds (fun key found => rewritten files env rules key = .ok found) →
      (write ws m).KeptUnder p files env fires) (hws : ws.KeptUnder p files env fires) :
    (Memo.getOrTry read write input (act (normalize rules input)) ws).2.KeptUnder p files env fires ∧
      (Memo.getOrTry read write input (act (normalize rules input)) ws).1 = rewritten files env rules input := by
  have hcompute : ∀ ws, ws.KeptUnder p files env fires →
      (act (normalize rules input) ws).2.KeptUnder p files env fires ∧
        ((∃ v, (act (normalize rules input) ws).1 = .ok v ∧ rewritten files env rules input = .ok v) ∨
          ∃ e, (act (normalize rules input) ws).1 = .error e ∧ rewritten files env rules input = .error e) := by
    intro ws hws
    obtain ⟨hresult, hworld⟩ := hgives ws.world hws.settledUnder
    refine ⟨hws.act hworld, ?_⟩
    have hact : (act (normalize rules input) ws).1 = rewritten files env rules input := hresult
    rw [hact]
    cases rewritten files env rules input with
    | ok v => exact .inl ⟨v, rfl, rfl⟩
    | error e => exact .inr ⟨e, rfl, rfl⟩
  obtain ⟨hkept, hresult⟩ := Memo.getOrTry_holds hread hwrite hcompute hws
  refine ⟨hkept, ?_⟩
  rcases hresult with ⟨v, hv, hgood⟩ | ⟨e, he, hgood⟩
  · exact hv.trans hgood.symm
  · exact he.trans hgood.symm

/-- **What a label is rewritten to**, looked up or not. -/
theorem normalizeCategory_kept (h : p.Functional files env) (hplaced : p.Placed)
    (hws : ws.KeptUnder p files env fires) (label : String) :
    (normalizeCategory p.categoryNormalizers label ws).2.KeptUnder p files env fires ∧
      (normalizeCategory p.categoryNormalizers label ws).1 = rewritten files env p.categoryNormalizers label :=
  normalize_kept (h.normalize_give hplaced (fun i => (rfl : p.chainAt .categoryNormalizer i = _)) label)
    (fun _ hws => hws.1.categoryNormalizers)
    (fun _ _ hws hm => ⟨⟨hws.1.world, hws.1.categories, hm, hws.1.nodeNormalizers⟩, hws.2⟩) hws

/-- **What a node is rewritten to**, looked up or not. -/
theorem normalizeNode_kept (h : p.Functional files env) (hplaced : p.Placed)
    (hws : ws.KeptUnder p files env fires) (value : String) :
    (normalizeNode p.nodeNormalizers value ws).2.KeptUnder p files env fires ∧
      (normalizeNode p.nodeNormalizers value ws).1 = rewritten files env p.nodeNormalizers value :=
  normalize_kept (h.normalize_give hplaced (fun i => (rfl : p.chainAt .nodeNormalizer i = _)) value)
    (fun _ hws => hws.1.nodeNormalizers)
    (fun _ _ hws hm => ⟨⟨hws.1.world, hws.1.categories, hws.1.categoryNormalizers, hm⟩, hws.2⟩) hws

end Workspace

end Gleaner
