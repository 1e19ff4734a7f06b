/-
Rules of merged configurations.

The lists of a merged configuration are those of the first followed by those of the second. So its rules are compiled
to those of the first and, standing further on, those of the second (`Pipeline.build_merge`). A chain of functions gives
the same wherever it stands (`Chain.run_agree`), and where a rule stands shows only in the number of its results.

`Act.Agree` compares two actions in two kinds of worlds: each gives one and the same in its own, and both give the same.

Results:
- `selectAll_agree`, `normalizeFrom_agree`: what lists of rules give that stand further on;
- `normalizeFrom_append`: the second list of two is tried only where no normalizer of the first has a match;
- `Config.merge_adds`: what the rules of a merged configuration give.
-/
import Gleaner.Proofs.Entries
import Gleaner.Proofs.Keeping
import Gleaner.Proofs.Runs
import Gleaner.Proofs.Threading

namespace Gleaner

open Act

/-! ## Compiling merged lists -/

section

variable {α β : Type} {what : String} {compile : Nat → α → Except ConfigError β}

theorem compileRules_append {i : Nat} {xs ys : List α} {first second : List β}
    (hxs : Selection.compileRules what compile i xs = .ok first)
    (hys : Selection.compileRules what compile (i + xs.length) ys = .ok second) :
    Selection.compileRules what compile i (xs ++ ys) = .ok (first ++ second) := by
  induction xs generalizing i first with
  | nil =>
    cases hxs
    exact hys
  | cons x xs ih =>
    obtain ⟨r, hr, hxs⟩ := Pipeline.bind_eq_ok hxs
    obtain ⟨rest, hrest, hxs⟩ := Pipeline.bind_eq_ok hxs
    cases hxs
    have hothers := ih hrest (by rwa [List.length_cons, Nat.add_comm xs.length 1, ← Nat.add_assoc] at hys)
    rw [List.cons_append, Selection.compileRules, hr, hothers]
    rfl

/-- the rules of two lists, one behind the other -/
theorem compileRules_split {i : Nat} {xs ys : List α} {found : List β}
    (h : Selection.compileRules what compile i (xs ++ ys) = .ok found) :
    ∃ first second, Selection.compileRules what compile i xs = .ok first ∧
      Selection.compileRules what compile (i + xs.length) ys = .ok second ∧ found = first ++ second := by
  induction xs generalizing i found with
  | nil => exact ⟨[], found, rfl, h, rfl⟩
  | cons x xs ih =>
    obtain ⟨r, hr, h⟩ := Pipeline.bind_eq_ok h
    obtain ⟨rest, hrest, h⟩ := Pipeline.bind_eq_ok h
    cases h
    obtain ⟨first, second, hfirst, hsecond, rfl⟩ := ih hrest
    rw [Nat.add_right_comm, Nat.add_assoc] at hsecond
    refine ⟨r :: first, second, ?_, hsecond, rfl⟩
    rw [Selection.compileRules, hr, hfirst]
    rfl

/-- a list whose rules are compiled in the same way wherever they stand -/
theorem compileRules_anywhere {compile : α → Except ConfigError β} {i : Nat} {xs : List α} {found : List β}
    (h : Selection.compileRules what (fun _ => compile) i xs = .ok found) (j : Nat) :
    Selection.compileRules what (fun _ => compile) j xs = .ok found := by
  induction xs generalizing i j found with
  | nil => exact h
  | cons x xs ih =>
    obtain ⟨r, hr, h⟩ := Pipeline.bind_eq_ok h
    obtain ⟨rest, hrest, h⟩ := Pipeline.bind_eq_ok h
    cases h
    have hx : compile x = .ok r := Pipeline.foundAt_eq_ok hr
    rw [Selection.compileRules, hx, ih hrest]
    rfl

/-- a list that is compiled to stand further on -/
theorem compileRules_moved {move : β → β} {k : Nat}
    (h : ∀ i x r, compile i x = .ok r → compile (k + i) x = .ok (move r)) {i : Nat} {xs : List α} {found : List β}
    (hxs : Selection.compileRules what compile i xs = .ok found) :
    Selection.compileRules what compile (k + i) xs = .ok (found.map move) := by
  induction xs generalizing i found with
  | nil =>
    cases hxs
    rfl
  | cons x xs ih =>
    obtain ⟨r, hr, hxs⟩ := Pipeline.bind_eq_ok hxs
    obtain ⟨rest, hrest, hxs⟩ := Pipeline.bind_eq_ok hxs
    cases hxs
    have hfirst := h i x r (Pipeline.foundAt_eq_ok hr)
    have hothers := ih hrest
    rw [Selection.compileRules, hfirst, Nat.add_assoc k i 1, hothers]
    rfl

/-- the rules of a merged list: those of the first and, standing further on, those of the second -/
theorem compileRules_merge (move : Nat → β → β)
    (h : ∀ k i x r, compile i x = .ok r → compile (k + i) x = .ok (move k r)) {xs ys : List α} {first second : List β}
    (hxs : Selection.compileRules what compile 0 xs = .ok first)
    (hys : Selection.compileRules what compile 0 ys = .ok second) :
    Selection.compileRules what compile 0 (xs ++ ys) = .ok (first ++ second.map (move xs.length)) := by
  have hsecond := compileRules_moved (h xs.length) hys
  rw [Nat.add_comm] at hsecond
  exact compileRules_append hxs hsecond

end

/-- a chain that stands `k` rules further on -/
def Chain.moved (k : Nat) (c : Chain) : Chain := { c with place := { c.place with rule := k + c.place.rule } }

def CategorySelector.moved (k : Nat) (s : CategorySelector) : CategorySelector := { s with chain := s.chain.moved k }

def NodeSelector.moved (k : Nat) (s : NodeSelector) : NodeSelector := { s with chain := s.chain.moved k }

def Normalizer.moved (k : Nat) (n : Normalizer) : Normalizer := { n with chain := n.chain.moved k }

section

variable (k : Nat)

theorem CategorySelector.moved_name (s : CategorySelector) : (s.moved k).name = s.name := rfl

theorem CategorySelector.moved_mode (s : CategorySelector) : (s.moved k).mode = s.mode := rfl

theorem NodeSelector.moved_name (s : NodeSelector) : (s.moved k).name = s.name := rfl

theorem NodeSelector.moved_category (s : NodeSelector) : (s.moved k).category = s.category := rfl

theorem Normalizer.moved_name (n : Normalizer) : (n.moved k).name = n.name := rfl

end

theorem Chain.compile_moved {env : Environment} {part : Part} {specs : List StageSpec} {i : Nat} {c : Chain}
    (h : Chain.compile env { part := part, rule := i } specs = .ok c) (k : Nat) :
    Chain.compile env { part := part, rule := k + i } specs = .ok (c.moved k) := by
  obtain ⟨stages, hstages, rfl⟩ := Pipeline.map_eq_ok h
  rw [compile, hstages]
  rfl

theorem CategorySelector.compile_moved {env : Environment} (k i : Nat) (rule : CategoryRule) (s : CategorySelector)
    (h : CategorySelector.compile env i rule = .ok s) :
    CategorySelector.compile env (k + i) rule = .ok (s.moved k) := by
  unfold compile at h ⊢
  simp only at h ⊢
  split at h
  · obtain ⟨c, hc, rfl⟩ := Pipeline.map_eq_ok h
    simp only [Chain.compile_moved (Pipeline.foundAt_eq_ok hc) k]
    rfl
  · obtain ⟨c, hc, rfl⟩ := Pipeline.map_eq_ok h
    simp only [Chain.compile_moved (Pipeline.foundAt_eq_ok hc) k]
    rfl
  · cases h

theorem NodeSelector.compile_moved {env : Environment} (k i : Nat) (rule : NodeRule) (s : NodeSelector)
    (h : NodeSelector.compile env i rule = .ok s) : NodeSelector.compile env (k + i) rule = .ok (s.moved k) := by
  obtain ⟨c, hc, rfl⟩ := Pipeline.map_eq_ok h
  unfold compile
  rw [Chain.compile_moved (Pipeline.foundAt_eq_ok hc) k]
  rfl

theorem Normalizer.compile_moved {env : Environment} {part : Part} (k i : Nat) (rule : NormalizerRule) (n : Normalizer)
    (h : Normalizer.compile env part i rule = .ok n) : Normalizer.compile env part (k + i) rule = .ok (n.moved k) := by
  obtain ⟨c, hc, rfl⟩ := Pipeline.map_eq_ok h
  unfold compile
  rw [Chain.compile_moved (Pipeline.foundAt_eq_ok hc) k]
  rfl

/-- the rules of two pipelines, those of the second standing behind those of the first -/
def Pipeline.followedBy (p q : Pipeline) : Pipeline where
  ignore := { p.ignore with stages := p.ignore.stages ++ q.ignore.stages }
  categories := p.categories ++ q.categories.map (CategorySelector.moved p.categories.length)
  nodes := p.nodes ++ q.nodes.map (NodeSelector.moved p.nodes.length)
  categoryNormalizers := p.categoryNormalizers ++ q.categoryNormalizers.map (Normalizer.moved p.categoryNormalizers.length)
  nodeNormalizers := p.nodeNormalizers ++ q.nodeNormalizers.map (Normalizer.moved p.nodeNormalizers.length)

/-- what a compiled list has as many rules as -/
theorem compileRules_length {α β : Type} {what : String} {compile : Nat → α → Except ConfigError β} {i : Nat}
    {xs : List α} {found : List β} (h : Selection.compileRules what compile i xs = .ok found) :
    found.length = xs.length := by
  induction xs generalizing i found with
  | nil =>
    cases h
    rfl
  | cons x xs ih =>
    obtain ⟨r, -, h⟩ := Pipeline.bind_eq_ok h
    obtain ⟨rest, hrest, h⟩ := Pipeline.bind_eq_ok h
    cases h
    simp [ih hrest]

theorem Chain.compile_append {env : Environment} {place : Place} {xs ys : List StageSpec} {c d : Chain}
    (hxs : Chain.compile env place xs = .ok c) (hys : Chain.compile env place ys = .ok d) :
    Chain.compile env place (xs ++ ys) = .ok { c with stages := c.stages ++ d.stages } := by
  obtain ⟨first, hfirst, rfl⟩ := Pipeline.map_eq_ok hxs
  obtain ⟨second, hsecond, rfl⟩ := Pipeline.map_eq_ok hys
  rw [compileFrom_eq_compileRules] at hfirst hsecond
  have hall := compileRules_merge (fun _ stage => stage) (by exact fun _ _ _ _ h => h) hfirst hsecond
  rw [compile, compileFrom_eq_compileRules, hall, List.map_id']
  rfl

theorem Chain.compile_split {env : Environment} {place : Place} {xs ys : List StageSpec} {c : Chain}
    (h : Chain.compile env place (xs ++ ys) = .ok c) :
    ∃ first second, Chain.compile env place xs = .ok ⟨place, first⟩ ∧ Chain.compile env place ys = .ok ⟨place, second⟩ ∧
      c = ⟨place, first ++ second⟩ := by
  obtain ⟨stages, hstages, rfl⟩ := Pipeline.map_eq_ok h
  rw [compileFrom_eq_compileRules] at hstages
  obtain ⟨first, second, hfirst, hsecond, rfl⟩ := compileRules_split hstages
  refine ⟨first, second, ?_, ?_, rfl⟩
  · rw [compile, compileFrom_eq_compileRules, hfirst]
    rfl
  · rw [compile, compileFrom_eq_compileRules, compileRules_anywhere hsecond 0]
    rfl

/-- **The rules of a merged configuration** are those of the first and, standing further on, those of the second. -/
theorem Pipeline.build_merge {env : Environment} {a b : Config} {p q : Pipeline} (ha : build env a = .ok p)
    (hb : build env b = .ok q) : build env (a.merge b) = .ok (p.followedBy q) := by
  obtain ⟨ignore, hignore, ha⟩ := bind_eq_ok ha
  obtain ⟨categories, hcategories, ha⟩ := bind_eq_ok ha
  obtain ⟨nodes, hnodes, ha⟩ := bind_eq_ok ha
  obtain ⟨categoryNormalizers, hcategoryNormalizers, ha⟩ := bind_eq_ok ha
  obtain ⟨nodeNormalizers, hnodeNormalizers, ha⟩ := bind_eq_ok ha
  cases ha
  obtain ⟨ignore', hignore', hb⟩ := bind_eq_ok hb
  obtain ⟨categories', hcategories', hb⟩ := bind_eq_ok hb
  obtain ⟨nodes', hnodes', hb⟩ := bind_eq_ok hb
  obtain ⟨categoryNormalizers', hcategoryNormalizers', hb⟩ := bind_eq_ok hb
  obtain ⟨nodeNormalizers', hnodeNormalizers', hb⟩ := bind_eq_ok hb
  cases hb
  have hchain := Chain.compile_append (foundAt_eq_ok hignore) (foundAt_eq_ok hignore')
  have hcategory := compileRules_merge CategorySelector.moved CategorySelector.compile_moved hcategories
    hcategories'
  have hnode := compileRules_merge NodeSelector.moved NodeSelector.compile_moved hnodes hnodes'
  have hfirst := compileRules_merge Normalizer.moved Normalizer.compile_moved
    (foundAt_eq_ok hcategoryNormalizers) (foundAt_eq_ok hcategoryNormalizers')
  have hsecond := compileRules_merge Normalizer.moved Normalizer.compile_moved
    (foundAt_eq_ok hnodeNormalizers) (foundAt_eq_ok hnodeNormalizers')
  unfold build Config.merge compileCategories compileNodes compileNormalizers followedBy
  rw [hchain, hcategory, hnode, hfirst, hsecond]
  rw [compileRules_length hcategories, compileRules_length hnodes,
    compileRules_length (foundAt_eq_ok hcategoryNormalizers), compileRules_length (foundAt_eq_ok hnodeNormalizers)]
  rfl

/-! ## Actions that give the same in two kinds of worlds -/

namespace Act

variable {α β ε : Type} {Ok Ok' : World → Prop}

/-- one action gives in all worlds of `Ok` what the other gives in all worlds of `Ok'` -/
def Agree (Ok Ok' : World → Prop) (a a' : Act α) : Prop := ∃ v, Gives Ok a v ∧ Gives Ok' a' v

theorem Agree.pure (v : α) : Agree Ok Ok' (pure v : Act α) (Pure.pure v) := ⟨v, Gives.pure v, Gives.pure v⟩

theorem Agree.bind {a a' : Act α} {f f' : α → Act β} (ha : Agree Ok Ok' a a') (hf : ∀ v, Agree Ok Ok' (f v) (f' v)) :
    Agree Ok Ok' (a >>= f) (a' >>= f') := by
  obtain ⟨u, hu, hu'⟩ := ha
  obtain ⟨v, hv, hv'⟩ := hf u
  exact ⟨v, hu.bind hv, hu'.bind hv'⟩

theorem Agree.measure (hOk : ∀ (w : World) samples, Ok w → Ok { w with samples := samples })
    (hOk' : ∀ (w : World) samples, Ok' w → Ok' { w with samples := samples }) (key : String)
    {a a' : Act (Except ε α)} (ha : Agree Ok Ok' a a') : Agree Ok Ok' (Act.measure key a) (Act.measure key a') := by
  obtain ⟨v, hv, hv'⟩ := ha
  exact ⟨v, hv.measure hOk key, hv'.measure hOk' key⟩

end Act

variable {scripts scripts' : Place → Option Callable} {files : FileNode} {env : Environment} {fires : Nat → Bool}

/-- actions that do not look at the signal agree under any signal -/
theorem Act.Agree.under {α : Type} {a a' : Act α}
    (h : Agree (World.Settled scripts files env) (World.Settled scripts' files env) a a') (ha : Blind a)
    (ha' : Blind a') :
    Agree (World.SettledUnder scripts files env fires) (World.SettledUnder scripts' files env fires) a a' := by
  obtain ⟨v, hv, hv'⟩ := h
  exact ⟨v, hv.under ha, hv'.under ha'⟩

/-! ## Chains that stand elsewhere -/

namespace Chain

theorem applyFrom_agree {Ok Ok' : World → Prop} (hOk : ∀ (w : World) samples, Ok w → Ok { w with samples := samples })
    (hOk' : ∀ (w : World) samples, Ok' w → Ok' { w with samples := samples }) {s : Stage} {place place' : Place}
    {last : Bool} (hstage : place.stage = place'.stage)
    (h : ∀ text, Agree Ok Ok' (s.apply place last text) (s.apply place' last text)) (done : List (List String))
    (texts : List String) : Agree Ok Ok' (applyFrom s place last done texts) (applyFrom s place' last done texts) := by
  induction texts generalizing done with
  | nil => exact Agree.pure _
  | cons text rest ih =>
    unfold applyFrom
    refine ((h text).measure hOk hOk' _).bind fun r => ?_
    cases r with
    | ok found => exact ih _
    | error e =>
      simp only
      split
      · exact ih _
      · rw [hstage]
        exact Agree.pure _

theorem runFrom_agree {place place' : Place} {stages : List Stage} (hstage : place.stage = place'.stage)
    (h : ∀ s ∈ stages, s.IsFunction files env) (hplace : Stands scripts place stages)
    (hplace' : Stands scripts' place' stages) (texts : List String) :
    Agree (World.Settled scripts files env) (World.Settled scripts' files env) (runFrom place stages texts)
      (runFrom place' stages texts) := by
  induction stages generalizing place place' texts with
  | nil => exact Agree.pure _
  | cons s rest ih =>
    have happly : ∀ text, Agree (World.Settled scripts files env) (World.Settled scripts' files env)
        (s.apply place rest.isEmpty text) (s.apply place' rest.isEmpty text) :=
      fun text => ⟨_, stage_gives h hplace _ text, stage_gives h hplace' _ text⟩
    have hnext := ih (congrArg (· + 1) hstage) (fun s hs => h s (List.mem_cons_of_mem _ hs)) hplace.rest hplace'.rest
    unfold runFrom
    refine (applyFrom_agree World.Settled.of_samples World.Settled.of_samples hstage happly [] texts).bind fun r => ?_
    rcases r with e | _ | ⟨found, more⟩
    · exact Agree.pure _
    · simp only [hstage]
      exact Agree.pure _
    · exact hnext _

/-- **A chain of functions gives the same wherever it stands.** -/
theorem run_agree {c c' : Chain} (hstages : c.stages = c'.stages) (hstage : c.place.stage = c'.place.stage)
    (h : ∀ s ∈ c'.stages, s.IsFunction files env) (hplace : Stands scripts c.place c.stages)
    (hplace' : Stands scripts' c'.place c'.stages) (text : String) :
    Agree (World.Settled scripts files env) (World.Settled scripts' files env) (c.run text) (c'.run text) := by
  unfold run
  rw [hstages] at hplace ⊢
  split
  · exact Agree.pure _
  · exact runFrom_agree hstage h hplace hplace' _

end Chain

/-! ## Rules that stand elsewhere -/

namespace CategorySelector

theorem firstMatch_agree {Ok Ok' : World → Prop} {c c' : Chain} (h : ∀ text, Agree Ok Ok' (c.run text) (c'.run text))
    (lines : List ReadLine) : Agree Ok Ok' (firstMatch c lines) (firstMatch c' lines) := by
  induction lines with
  | nil => exact Agree.pure _
  | cons line rest ih =>
    unfold firstMatch
    cases line.error with
    | some e => exact Agree.pure _
    | none =>
      refine (h line.text).bind fun r => ?_
      cases r with
      | ok found => exact Agree.pure _
      | error e =>
        simp only
        split
        · exact ih
        · exact Agree.pure _

/-- under a signal that does not change, lines are read in the same way at all times -/
theorem readLines_gives (source : Source) (up : Bool) :
    Gives (World.SettledUnder scripts files env fun _ => up) (Act.readLines source)
      (Gleaner.readLines source fun _ => up) := by
  intro w hw
  refine ⟨?_, hw.1.of_subset hw.1.files_eq rfl (List.Subset.refl _), hw.2⟩
  change (Gleaner.readLines source fun n => w.signal (w.looks + n)) = _
  rw [hw.2]

theorem scanFile_agree {c c' : Chain} {up : Bool}
    (h : ∀ text, Agree (World.SettledUnder scripts files env fun _ => up)
      (World.SettledUnder scripts' files env fun _ => up) (c.run text) (c'.run text)) (path : String) :
    Agree (World.SettledUnder scripts files env fun _ => up) (World.SettledUnder scripts' files env fun _ => up)
      (scanFile c path) (scanFile c' path) := by
  have hscan : ∀ {scripts : Place → Option Callable} {c : Chain} {v : MatchResult},
      (∀ source, files.openFile path = .ok source → Gives (World.SettledUnder scripts files env fun _ => up)
        (do firstMatch c (← Act.readLines source)) v) →
      (∀ e, files.openFile path = .error e → v = .error (.unmatched ("cannot open: " ++ e.message))) →
      Gives (World.SettledUnder scripts files env fun _ => up) (scanFile c path) v := by
    intro scripts c v hread hclosed w hw
    unfold scanFile
    rw [Act.bind_run, Act.get_run]
    simp only [hw.1.files_eq]
    cases hfile : files.openFile path with
    | error e =>
      rw [hclosed e hfile]
      exact ⟨rfl, hw.1.of_subset hw.1.files_eq rfl (List.Subset.refl _), hw.2⟩
    | ok source => exact hread source hfile w hw
  cases hfile : files.openFile path with
  | error e =>
    refine ⟨.error (.unmatched ("cannot open: " ++ e.message)), hscan ?_ ?_, hscan ?_ ?_⟩
    all_goals simp [hfile]
  | ok source =>
    have hread : Agree (World.SettledUnder scripts files env fun _ => up)
        (World.SettledUnder scripts' files env fun _ => up) (Act.readLines source) (Act.readLines source) :=
      ⟨_, readLines_gives source up, readLines_gives source up⟩
    obtain ⟨v, hv, hv'⟩ := hread.bind fun lines => firstMatch_agree h lines
    refine ⟨v, hscan ?_ ?_, hscan ?_ ?_⟩
    all_goals simp [hfile, hv, hv']

theorem select_agree {s s' : CategorySelector} {up : Bool} (hname : s.name = s'.name) (hmode : s.mode = s'.mode)
    (h : ∀ text, Agree (World.SettledUnder scripts files env fun _ => up)
      (World.SettledUnder scripts' files env fun _ => up) (s.chain.run text) (s'.chain.run text)) (path : String) :
    Agree (World.SettledUnder scripts files env fun _ => up) (World.SettledUnder scripts' files env fun _ => up)
      (s.select path) (s'.select path) := by
  unfold select
  rw [hname, hmode]
  refine (Agree.measure World.SettledUnder.of_samples World.SettledUnder.of_samples _ ?_).bind fun r => Agree.pure _
  cases s'.mode with
  | filename => exact h path
  | text => exact scanFile_agree h path

end CategorySelector

theorem NodeSelector.select_agree {Ok Ok' : World → Prop}
    (hOk : ∀ (w : World) samples, Ok w → Ok { w with samples := samples })
    (hOk' : ∀ (w : World) samples, Ok' w → Ok' { w with samples := samples }) {s s' : NodeSelector}
    (hname : s.name = s'.name) (hcategory : s.category = s'.category)
    (h : ∀ text, Agree Ok Ok' (s.chain.run text) (s'.chain.run text)) (category content : String) :
    Agree Ok Ok' (s.select category content) (s'.select category content) := by
  unfold select
  rw [hname, hcategory]
  refine (Agree.measure hOk hOk' _ ?_).bind fun r => Agree.pure _
  by_cases hmatch : s'.category.isMatch category = true
  · simp only [if_pos hmatch]
    exact (h content).bind fun r => Agree.pure _
  · simp only [if_neg hmatch]
    exact Agree.pure _

theorem Normalizer.run_agree {Ok Ok' : World → Prop}
    (hOk : ∀ (w : World) samples, Ok w → Ok { w with samples := samples })
    (hOk' : ∀ (w : World) samples, Ok' w → Ok' { w with samples := samples }) {n n' : Normalizer}
    (hname : n.name = n'.name) (h : ∀ text, Agree Ok Ok' (n.chain.run text) (n'.chain.run text)) (input : String) :
    Agree Ok Ok' (n.run input) (n'.run input) := by
  unfold run
  rw [hname]
  refine Agree.measure hOk hOk' _ ?_
  exact ((h input).measure hOk hOk' _).bind fun r => Agree.pure _

/-! ## Lists of rules that stand elsewhere -/

/-- an entry of a rule that stands `k` rules further on -/
def Selection.raised (k : Nat) (s : Selection) : Selection := { s with index := k + s.index }

theorem Selection.raised_zero (s : Selection) : s.raised 0 = s := by
  rw [raised, Nat.zero_add]

theorem Selection.expand_raised (k i : Nat) (name : String) (r : MatchResult) :
    Selection.expand (k + i) name r = (Selection.expand i name r).map (Selection.raised k) := by
  cases r with
  | ok found => simp [expand, raised]
  | error e => rfl

/-- **Rules that stand further on** give the same entries with higher numbers. -/
theorem Selection.selectAll_agree {α : Type} {Ok Ok' : World → Prop} {name : α → String} {select : α → Act MatchResult}
    {rules : List α} (move : α → α) (hname : ∀ rule, name (move rule) = name rule)
    (h : ∀ rule ∈ rules, Agree Ok Ok' (select (move rule)) (select rule)) (k i : Nat) :
    ∃ found, Gives Ok (selectAll name select (k + i) (rules.map move)) (found.map (raised k)) ∧
      Gives Ok' (selectAll name select i rules) found := by
  induction rules generalizing i with
  | nil => exact ⟨[], Gives.pure _, Gives.pure _⟩
  | cons rule rest ih =>
    obtain ⟨r, hmoved, hown⟩ := h rule List.mem_cons_self
    obtain ⟨found, hmovedRest, hownRest⟩ := ih (fun rule hrule => h rule (List.mem_cons_of_mem _ hrule)) (i + 1)
    refine ⟨expand i (name rule) r ++ found, ?_, ?_⟩
    · have hentries : Gives Ok (selectAll name select (k + i) ((rule :: rest).map move))
          (expand (k + i) (name (move rule)) r ++ found.map (raised k)) :=
        hmoved.bind (hmovedRest.bind (Gives.pure _))
      rwa [hname, expand_raised, ← List.map_append] at hentries
    · exact hown.bind (hownRest.bind (Gives.pure _))

/-- the entries of two lists of rules, one behind the other -/
theorem Selection.selectAll_append {α : Type} {Ok : World → Prop} {name : α → String} {select : α → Act MatchResult}
    {i : Nat} {xs ys : List α} {first second : List Selection} (hxs : Gives Ok (selectAll name select i xs) first)
    (hys : Gives Ok (selectAll name select (i + xs.length) ys) second) :
    Gives Ok (selectAll name select i (xs ++ ys)) (first ++ second) := by
  have hall : selectAll name select i (xs ++ ys) = (do
      let first ← selectAll name select i xs
      let second ← selectAll name select (i + xs.length) ys
      return first ++ second) := by
    clear hxs hys
    induction xs generalizing i with
    | nil => simp [selectAll]
    | cons rule rest ih =>
      simp only [List.cons_append, selectAll, ih, List.length_cons, Nat.add_comm rest.length 1, ← Nat.add_assoc,
        bind_assoc, pure_bind, List.append_assoc]
  rw [hall]
  exact hxs.bind (hys.bind (Gives.pure _))

/-- a rewritten text whose normalizer, if there is one, stands `k` normalizers further on -/
def Normalized.raised (k : Nat) (n : Normalized) : Normalized := { n with index := n.index.map (k + ·) }

/-- one result of normalizers is the other one with the normalizers `k` places further on: in every rewritten text and
in the annotation of a failure -/
inductive Normalized.Raised (k : Nat) :
    Except MatchError (List Normalized) → Except MatchError (List Normalized) → Prop where
  | found (texts : List Normalized) : Raised k (.ok texts) (.ok (texts.map (raised k)))
  | failed (e : MatchError) (i : Nat) :
      Raised k (.error (e.within (indexed "normalizer" i))) (.error (e.within (indexed "normalizer" (k + i))))

theorem Normalized.raised_zero (n : Normalized) : n.raised 0 = n := by
  obtain ⟨index, name, result⟩ := n
  cases index with
  | none => rfl
  | some i => rw [raised, Option.map_some, Nat.zero_add]

theorem Normalized.Raised.eq_of_zero {r r' : Except MatchError (List Normalized)} (h : Raised 0 r r') : r' = r := by
  cases h with
  | found texts =>
    rw [show raised 0 = id from funext raised_zero, List.map_id]
  | failed e i => rw [Nat.zero_add]

/-- **Normalizers that stand further on** give the same with higher numbers. -/
theorem normalizeFrom_agree {Ok Ok' : World → Prop} {input : String} {rules : List Normalizer}
    (move : Normalizer → Normalizer) (hname : ∀ rule, (move rule).name = rule.name)
    (h : ∀ rule ∈ rules, Agree Ok Ok' ((move rule).run input) (rule.run input)) (k i : Nat) :
    ∃ r' r, Gives Ok (normalizeFrom input (k + i) (rules.map move)) r' ∧ Gives Ok' (normalizeFrom input i rules) r ∧
      Normalized.Raised k r r' := by
  induction rules generalizing i with
  | nil => exact ⟨_, _, Gives.pure _, Gives.pure _, .found [.identity input]⟩
  | cons rule rest ih =>
    obtain ⟨v, hmoved, hown⟩ := h rule List.mem_cons_self
    obtain ⟨r', r, hmovedRest, hownRest, hraised⟩ :=
      ih (fun rule hrule => h rule (List.mem_cons_of_mem _ hrule)) (i + 1)
    cases v with
    | ok found =>
      refine ⟨_, _, hmoved.bind (Gives.pure _), hown.bind (Gives.pure _), ?_⟩
      have htexts : (found.map fun s => (⟨some (k + i), (move rule).name, s⟩ : Normalized)) =
          (found.map fun s => (⟨some i, rule.name, s⟩ : Normalized)).map (Normalized.raised k) := by
        simp [Normalized.raised, hname]
      rw [htexts]
      exact .found _
    | error e =>
      by_cases hunmatched : e.isUnmatched = true
      · refine ⟨r', r, hmoved.bind ?_, hown.bind ?_, hraised⟩
        · simp only [if_pos hunmatched]
          exact hmovedRest
        · simp only [if_pos hunmatched]
          exact hownRest
      · refine ⟨_, _, hmoved.bind ?_, hown.bind ?_, .failed e i⟩
        · simp only [if_neg hunmatched]
          exact Gives.pure _
        · simp only [if_neg hunmatched]
          exact Gives.pure _

/-- **Two lists of normalizers**, one behind the other: the second is tried if the first leaves the text as it is. -/
theorem normalizeFrom_append (input : String) (i : Nat) (xs ys : List Normalizer) :
    normalizeFrom input i (xs ++ ys) = (do
      let r ← normalizeFrom input i xs
      if r = .ok [.identity input] then normalizeFrom input (i + xs.length) ys else return r) := by
  induction xs generalizing i with
  | nil => simp [normalizeFrom]
  | cons n rest ih =>
    have hnext : i + 1 + rest.length = i + (n :: rest).length := by
      rw [List.length_cons, Nat.add_comm rest.length 1, Nat.add_assoc]
    rw [List.cons_append, normalizeFrom, normalizeFrom, bind_assoc]
    refine congrArg (n.run input >>= ·) (funext fun v => ?_)
    cases v with
    | ok found =>
      have hown : (found.map fun s => (⟨some i, n.name, s⟩ : Normalized)) ≠ [.identity input] := by
        rcases found with - | ⟨s, - | ⟨t, rest⟩⟩ <;> simp [Normalized.identity]
      simp [hown]
    | error e =>
      by_cases hunmatched : e.isUnmatched = true
      · simp only [if_pos hunmatched, ih, hnext]
      · simp [hunmatched]

/-! ## Merged lists of rules -/

section

variable {OkA OkB OkM : World → Prop}

/-- the entries of a merged list: those of the first rules and, with higher numbers, those of the second -/
theorem Selection.selectAll_merged {α : Type} {name : α → String} {select : α → Act MatchResult} {xs ys : List α}
    (move : α → α) (hname : ∀ rule, name (move rule) = name rule)
    (hxs : ∀ rule ∈ xs, Agree OkM OkA (select rule) (select rule))
    (hys : ∀ rule ∈ ys, Agree OkM OkB (select (move rule)) (select rule)) :
    ∃ first second, Gives OkA (selectAll name select 0 xs) first ∧ Gives OkB (selectAll name select 0 ys) second ∧
      Gives OkM (selectAll name select 0 (xs ++ ys.map move)) (first ++ second.map (raised xs.length)) := by
  obtain ⟨first, hfirst, hownFirst⟩ := selectAll_agree id (fun _ => rfl) hxs 0 0
  obtain ⟨second, hsecond, hownSecond⟩ := selectAll_agree move hname hys xs.length 0
  rw [show raised 0 = id from funext raised_zero, List.map_id, List.map_id] at hfirst
  refine ⟨first, second, hownFirst, hownSecond, selectAll_append hfirst ?_⟩
  rw [Nat.zero_add]
  exact hsecond

/-- what a merged list of normalizers gives: the result of the first ones, unless it is the text itself, and the result
of the second ones, with higher numbers, where it is -/
structure Normalized.Merged (input : String) (k : Nat) (first second merged : Except MatchError (List Normalized)) :
    Prop where
  of_found : first ≠ .ok [.identity input] → merged = first
  of_identity : first = .ok [.identity input] → Raised k second merged

theorem normalize_merged {input : String} {xs ys : List Normalizer} (move : Normalizer → Normalizer)
    (hname : ∀ rule, (move rule).name = rule.name)
    (hxs : ∀ rule ∈ xs, Agree OkM OkA (rule.run input) (rule.run input))
    (hys : ∀ rule ∈ ys, Agree OkM OkB ((move rule).run input) (rule.run input)) :
    ∃ first second merged, Gives OkA (normalize xs input) first ∧ Gives OkB (normalize ys input) second ∧
      Gives OkM (normalize (xs ++ ys.map move) input) merged ∧
      Normalized.Merged input xs.length first second merged := by
  obtain ⟨first, own, hfirst, hownFirst, hsame⟩ := normalizeFrom_agree id (fun _ => rfl) hxs 0 0
  obtain ⟨second', second, hsecond, hownSecond, hraised⟩ := normalizeFrom_agree move hname hys xs.length 0
  cases hsame.eq_of_zero
  rw [List.map_id] at hfirst
  by_cases hidentity : first = .ok [.identity input]
  · refine ⟨first, second, second', hownFirst, hownSecond, ?_, fun h => absurd hidentity h, fun _ => hraised⟩
    rw [normalize, normalizeFrom_append]
    refine hfirst.bind ?_
    rw [if_pos hidentity, Nat.zero_add]
    exact hsecond
  · refine ⟨first, second, first, hownFirst, hownSecond, ?_, fun _ => rfl, fun h => absurd h hidentity⟩
    rw [normalize, normalizeFrom_append]
    refine hfirst.bind ?_
    rw [if_neg hidentity]
    exact Gives.pure _

end

/-! ## Merged pipelines -/

namespace Pipeline

variable {p q m : Pipeline}

/-- a chain of one pipeline that stands elsewhere in another one -/
theorem Functional.chain_agree (h : p.Functional files env) (hplaced : p.Placed) (hmerged : m.Placed) {part : Part}
    {i j : Nat} {c c' : Chain} (hc : p.chainAt part i = some c) (hc' : m.chainAt part j = some c')
    (hstages : c'.stages = c.stages) (text : String) :
    Agree (World.Settled m.scriptAt files env) (World.Settled p.scriptAt files env) (c'.run text) (c.run text) := by
  have hstage : c'.place.stage = c.place.stage := by rw [hmerged part j c' hc', hplaced part i c hc]
  exact Chain.run_agree hstages hstage (h part i c hc) (hmerged.stands hc') (hplaced.stands hc) text

/-- the rules of a list that stand `k` rules further on in another pipeline -/
theorem Functional.rules_agree {α : Type} {rules : List α} {chain : α → Chain} {move : α → α} {part : Part} {k : Nat}
    (h : p.Functional files env) (hplaced : p.Placed) (hmerged : m.Placed)
    (hrules : ∀ i, p.chainAt part i = rules[i]?.map chain)
    (hmoved : ∀ i, i < rules.length → m.chainAt part (k + i) = rules[i]?.map fun rule => chain (move rule))
    (hstages : ∀ rule, (chain (move rule)).stages = (chain rule).stages) (rule : α) (hrule : rule ∈ rules)
    (text : String) :
    Agree (World.Settled m.scriptAt files env) (World.Settled p.scriptAt files env) ((chain (move rule)).run text)
      ((chain rule).run text) := by
  obtain ⟨i, hi⟩ := List.mem_iff_getElem?.1 hrule
  have hlt : i < rules.length := (List.getElem?_eq_some_iff.1 hi).1
  have hc : p.chainAt part i = some (chain rule) := by rw [hrules, hi, Option.map_some]
  have hc' : m.chainAt part (k + i) = some (chain (move rule)) := by rw [hmoved i hlt, hi, Option.map_some]
  exact h.chain_agree hplaced hmerged hc hc' (hstages rule) text

/-- **The chains of a merged list** give what they give in the pipeline they come from. -/
theorem Functional.merged_agree {α : Type} {xs ys : List α} (chain : α → Chain) (move : α → α) (part : Part)
    (hp : p.Functional files env) (hq : q.Functional files env) (hplacedA : p.Placed) (hplacedB : q.Placed)
    (hmerged : m.Placed) (hxs : ∀ i, p.chainAt part i = xs[i]?.map chain)
    (hys : ∀ i, q.chainAt part i = ys[i]?.map chain)
    (hall : ∀ i, m.chainAt part i = (xs ++ ys.map move)[i]?.map chain)
    (hstages : ∀ rule, (chain (move rule)).stages = (chain rule).stages) :
    (∀ rule ∈ xs, ∀ text, Agree (World.Settled m.scriptAt files env) (World.Settled p.scriptAt files env)
        ((chain rule).run text) ((chain rule).run text)) ∧
      ∀ rule ∈ ys, ∀ text, Agree (World.Settled m.scriptAt files env) (World.Settled q.scriptAt files env)
        ((chain (move rule)).run text) ((chain rule).run text) := by
  have hbefore : ∀ i, i < xs.length → m.chainAt part (0 + i) = xs[i]?.map chain := by
    intro i hi
    rw [hall, Nat.zero_add, List.getElem?_append_left hi]
  have hbehind : ∀ i, i < ys.length → m.chainAt part (xs.length + i) = ys[i]?.map fun rule => chain (move rule) := by
    intro i _
    rw [hall, List.getElem?_append_right (Nat.le_add_right _ _), Nat.add_sub_cancel_left, List.getElem?_map,
      Option.map_map]
    rfl
  exact ⟨hp.rules_agree hplacedA hmerged hxs hbefore fun _ => rfl,
    hq.rules_agree hplacedB hmerged hys hbehind hstages⟩

/-- a pipeline has as many rules as its configuration -/
theorem build_lengths {c : Config} (h : build env c = .ok p) :
    p.categories.length = c.category.length ∧ p.nodes.length = c.node.length ∧
      p.categoryNormalizers.length = c.normalizer.category.length ∧
      p.nodeNormalizers.length = c.normalizer.node.length := by
  obtain ⟨ignore, -, h⟩ := bind_eq_ok h
  obtain ⟨categories, hcategories, h⟩ := bind_eq_ok h
  obtain ⟨nodes, hnodes, h⟩ := bind_eq_ok h
  obtain ⟨categoryNormalizers, hcategoryNormalizers, h⟩ := bind_eq_ok h
  obtain ⟨nodeNormalizers, hnodeNormalizers, h⟩ := bind_eq_ok h
  cases h
  exact ⟨compileRules_length hcategories, compileRules_length hnodes,
    compileRules_length (foundAt_eq_ok hcategoryNormalizers), compileRules_length (foundAt_eq_ok hnodeNormalizers)⟩

section

variable {wa wb wm : World}

theorem Functional.categories_merged (hp : p.Functional files env) (hq : q.Functional files env) (hplacedA : p.Placed)
    (hplacedB : q.Placed) (hmerged : (p.followedBy q).Placed) {up : Bool}
    (hwa : wa.SettledUnder p.scriptAt files env fun _ => up) (hwb : wb.SettledUnder q.scriptAt files env fun _ => up)
    (hwm : wm.SettledUnder (p.followedBy q).scriptAt files env fun _ => up) (path : String) :
    (selectCategories (p.followedBy q).categories path wm).1 =
      (selectCategories p.categories path wa).1 ++
        (selectCategories q.categories path wb).1.map (Selection.raised p.categories.length) := by
  obtain ⟨hxs, hys⟩ := hp.merged_agree CategorySelector.chain (CategorySelector.moved p.categories.length) .category hq
    hplacedA hplacedB hmerged (fun _ => rfl) (fun _ => rfl) (fun _ => rfl) (fun _ => rfl)
  let OkM := World.SettledUnder (p.followedBy q).scriptAt files env fun _ => up
  have hbefore : ∀ rule ∈ p.categories,
      Agree OkM (World.SettledUnder p.scriptAt files env fun _ => up) (rule.select path) (rule.select path) := by
    intro rule hrule
    refine CategorySelector.select_agree rfl rfl (fun text => ?_) path
    exact (hxs rule hrule text).under (rule.chain.run_blind text) (rule.chain.run_blind text)
  have hbehind : ∀ rule ∈ q.categories, Agree OkM (World.SettledUnder q.scriptAt files env fun _ => up)
      ((rule.moved p.categories.length).select path) (rule.select path) := by
    intro rule hrule
    refine CategorySelector.select_agree (rule.moved_name _) (rule.moved_mode _) (fun text => ?_) path
    exact (hys rule hrule text).under (Chain.run_blind _ text) (rule.chain.run_blind text)
  obtain ⟨first, second, hfirst, hsecond, hall⟩ := Selection.selectAll_merged
    (CategorySelector.moved p.categories.length) (CategorySelector.moved_name _) hbefore hbehind
  have hleft : (selectCategories p.categories path wa).1 = first := (hfirst wa hwa).1
  have hright : (selectCategories q.categories path wb).1 = second := (hsecond wb hwb).1
  rw [hleft, hright]
  exact (hall wm hwm).1

theorem Functional.nodes_merged (hp : p.Functional files env) (hq : q.Functional files env) (hplacedA : p.Placed)
    (hplacedB : q.Placed) (hmerged : (p.followedBy q).Placed) (hwa : wa.Settled p.scriptAt files env)
    (hwb : wb.Settled q.scriptAt files env) (hwm : wm.Settled (p.followedBy q).scriptAt files env)
    (category content : String) :
    (selectNodes (p.followedBy q).nodes category content wm).1 =
      (selectNodes p.nodes category content wa).1 ++
        (selectNodes q.nodes category content wb).1.map (Selection.raised p.nodes.length) := by
  obtain ⟨hxs, hys⟩ := hp.merged_agree NodeSelector.chain (NodeSelector.moved p.nodes.length) .node hq
    hplacedA hplacedB hmerged (fun _ => rfl) (fun _ => rfl) (fun _ => rfl) (fun _ => rfl)
  let OkM := World.Settled (p.followedBy q).scriptAt files env
  have hbefore : ∀ rule ∈ p.nodes, Agree OkM (World.Settled p.scriptAt files env) (rule.select category content)
      (rule.select category content) := by
    intro rule hrule
    exact NodeSelector.select_agree World.Settled.of_samples World.Settled.of_samples rfl rfl (hxs rule hrule) _ _
  have hbehind : ∀ rule ∈ q.nodes, Agree OkM (World.Settled q.scriptAt files env)
      ((rule.moved p.nodes.length).select category content) (rule.select category content) := by
    intro rule hrule
    exact NodeSelector.select_agree World.Settled.of_samples World.Settled.of_samples (rule.moved_name _)
      (rule.moved_category _) (hys rule hrule) _ _
  obtain ⟨first, second, hfirst, hsecond, hall⟩ := Selection.selectAll_merged
    (NodeSelector.moved p.nodes.length) (NodeSelector.moved_name _) hbefore hbehind
  have hleft : (selectNodes p.nodes category content wa).1 = first := (hfirst wa hwa).1
  have hright : (selectNodes q.nodes category content wb).1 = second := (hsecond wb hwb).1
  rw [hleft, hright]
  exact (hall wm hwm).1

theorem Functional.normalizers_merged {xs ys : List Normalizer} (part : Part) (hp : p.Functional files env)
    (hq : q.Functional files env) (hplacedA : p.Placed) (hplacedB : q.Placed) (hmerged : m.Placed)
    (hxs : ∀ i, p.chainAt part i = xs[i]?.map (·.chain)) (hys : ∀ i, q.chainAt part i = ys[i]?.map (·.chain))
    (hall : ∀ i, m.chainAt part i = (xs ++ ys.map (Normalizer.moved xs.length))[i]?.map (·.chain))
    (hwa : wa.Settled p.scriptAt files env) (hwb : wb.Settled q.scriptAt files env)
    (hwm : wm.Settled m.scriptAt files env) (input : String) :
    Normalized.Merged input xs.length (normalize xs input wa).1 (normalize ys input wb).1
      (normalize (xs ++ ys.map (Normalizer.moved xs.length)) input wm).1 := by
  obtain ⟨hxs, hys⟩ := hp.merged_agree Normalizer.chain (Normalizer.moved xs.length) part hq hplacedA hplacedB hmerged
    hxs hys hall fun _ => rfl
  have hbefore : ∀ rule ∈ xs, Agree (World.Settled m.scriptAt files env) (World.Settled p.scriptAt files env)
      (rule.run input) (rule.run input) := by
    intro rule hrule
    exact Normalizer.run_agree World.Settled.of_samples World.Settled.of_samples rfl (hxs rule hrule) input
  have hbehind : ∀ rule ∈ ys, Agree (World.Settled m.scriptAt files env) (World.Settled q.scriptAt files env)
      ((rule.moved xs.length).run input) (rule.run input) := by
    intro rule hrule
    exact Normalizer.run_agree World.Settled.of_samples World.Settled.of_samples (rule.moved_name _)
      (hys rule hrule) input
  obtain ⟨first, second, merged, hfirst, hsecond, hall, hresult⟩ :=
    normalize_merged (Normalizer.moved xs.length) (Normalizer.moved_name _) hbefore hbehind
  rwa [(hfirst wa hwa).1, (hsecond wb hwb).1, (hall wm hwm).1]

end

end Pipeline

/-- **Merging adds up.** Let two configurations build, with stages that are functions of their candidates. Then the
merged one builds, and in settled worlds its rules give:
- for a path, the categories of the first configuration and those of the second one with higher numbers, under a signal
  that does not change;
- for a line of a category, likewise the nodes;
- for a text, in either section of normalizers, what the first configuration gives, failures included, unless that is
  the text itself; then what the second one gives, with higher numbers. -/
theorem Config.merge_adds {a b : Config} {p q : Pipeline} (ha : Pipeline.build env a = .ok p)
    (hb : Pipeline.build env b = .ok q) (hp : p.Functional files env) (hq : q.Functional files env) :
    ∃ m, Pipeline.build env (a.merge b) = .ok m ∧
      ∀ wa wb wm : World, wa.Settled p.scriptAt files env → wb.Settled q.scriptAt files env →
        wm.Settled m.scriptAt files env →
        (∀ up path, wa.signal = (fun _ => up) → wb.signal = (fun _ => up) → wm.signal = (fun _ => up) →
          (selectCategories m.categories path wm).1 =
            (selectCategories p.categories path wa).1 ++
              (selectCategories q.categories path wb).1.map (Selection.raised a.category.length)) ∧
        (∀ category content,
          (selectNodes m.nodes category content wm).1 =
            (selectNodes p.nodes category content wa).1 ++
              (selectNodes q.nodes category content wb).1.map (Selection.raised a.node.length)) ∧
        (∀ input, Normalized.Merged input a.normalizer.category.length (normalize p.categoryNormalizers input wa).1
          (normalize q.categoryNormalizers input wb).1 (normalize m.categoryNormalizers input wm).1) ∧
        ∀ input, Normalized.Merged input a.normalizer.node.length (normalize p.nodeNormalizers input wa).1
          (normalize q.nodeNormalizers input wb).1 (normalize m.nodeNormalizers input wm).1 := by
  have hbuild := Pipeline.build_merge ha hb
  have hplacedA : p.Placed := Pipeline.build_placed ha false
  have hplacedB : q.Placed := Pipeline.build_placed hb false
  have hplaced : (p.followedBy q).Placed := Pipeline.build_placed hbuild false
  obtain ⟨hcategoryCount, hnodeCount, hcategoryNormalizerCount, hnodeNormalizerCount⟩ := Pipeline.build_lengths ha
  rw [← hcategoryCount, ← hnodeCount, ← hcategoryNormalizerCount, ← hnodeNormalizerCount]
  refine ⟨p.followedBy q, hbuild, fun wa wb wm hwa hwb hwm => ⟨?_, ?_, ?_, ?_⟩⟩
  · intro up path hsignalA hsignalB hsignal
    exact hp.categories_merged hq hplacedA hplacedB hplaced ⟨hwa, hsignalA⟩ ⟨hwb, hsignalB⟩ ⟨hwm, hsignal⟩ path
  · exact hp.nodes_merged hq hplacedA hplacedB hplaced hwa hwb hwm
  · exact hp.normalizers_merged .categoryNormalizer hq hplacedA hplacedB hplaced (fun _ => rfl) (fun _ => rfl)
      (fun _ => rfl) hwa hwb hwm
  · exact hp.normalizers_merged .nodeNormalizer hq hplacedA hplacedB hplaced (fun _ => rfl) (fun _ => rfl)
      (fun _ => rfl) hwa hwb hwm

/-- a category of all files and a normalizer of categories -/
def singleConfig (value : String) (spec : StageSpec) : Config where
  category := [{ filename := [.ofValues [value]] }]
  normalizer := { category := [{ matcher := [spec] }] }

def singlePipeline (value : String) (stage : Stage) : Pipeline where
  ignore := ⟨{ part := .ignore }, []⟩
  categories := [⟨"", .filename, ⟨{ part := .category }, [.values [value]]⟩⟩]
  nodes := []
  categoryNormalizers := [⟨"", ⟨{ part := .categoryNormalizer }, [stage]⟩⟩]
  nodeNormalizers := []

theorem singlePipeline_functional (value : String) {stage : Stage} (h : stage.IsFunction files env) :
    (singlePipeline value stage).Functional files env := by
  intro part i c hc s hs
  cases part with
  | alone | node | nodeNormalizer => cases hc
  | ignore =>
    rcases i with - | i <;> cases hc
    cases hs
  | category =>
    rcases i with - | i <;> cases hc
    cases List.mem_singleton.1 hs
    trivial
  | categoryNormalizer =>
    rcases i with - | i <;> cases hc
    cases List.mem_singleton.1 hs
    exact h

/-- the categories of both, and the second normalizer on a text that the first one leaves as it is -/
theorem Config.merge_adds_single :
    ∃ m, Pipeline.build ⟨[]⟩ ((singleConfig "a" (.ofRegex letterPattern)).merge (singleConfig "b" (.ofValues ["v"]))) =
        .ok m ∧
      (selectCategories m.categories "f" (World.fresh smallTree ⟨[]⟩)).1 = [⟨0, "", .ok "a"⟩, ⟨1, "", .ok "b"⟩] ∧
      (normalize m.categoryNormalizers "x" (World.fresh smallTree ⟨[]⟩)).1 = .ok [⟨some 1, "", "v"⟩] := by
  have hletter : (singlePipeline "a" (.regex letterPattern [])).Functional smallTree ⟨[]⟩ :=
    singlePipeline_functional "a" trivial
  have hvalue : (singlePipeline "b" (.values ["v"])).Functional smallTree ⟨[]⟩ := singlePipeline_functional "b" trivial
  obtain ⟨m, hm, hgives⟩ := merge_adds (a := singleConfig "a" (.ofRegex letterPattern))
    (b := singleConfig "b" (.ofValues ["v"])) rfl rfl hletter hvalue
  obtain ⟨hcategories, -, hnormalized, -⟩ :=
    hgives _ _ _ World.settled_fresh World.settled_fresh World.settled_fresh
  refine ⟨m, hm, hcategories false "f" rfl rfl rfl, ?_⟩
  have hraised : Normalized.Raised 1 (.ok [⟨some 0, "", "v"⟩]) _ := (hnormalized "x").of_identity (by decide +kernel)
  generalize (normalize m.categoryNormalizers "x" _).1 = merged at hraised ⊢
  cases hraised
  rfl

end Gleaner
