/-
Loading configurations from several sources.

Each source has to mean something by itself, and what the sources mean is merged in their order. Merging is associative
and starts with nothing, so it does not matter how the sources are put together: a list of sources can be cut anywhere,
and its pieces can be loaded by themselves (`Bracketing`). The checks of a configuration are all checks of one entry, so
a merged configuration means something, or compiles, as soon as each of its parts does (`Config.checked_merge`).

Results:
- `Config.load_append`: the sources of two lists, loaded together and apart;
- `Config.validate_mergeAll`, `Pipeline.build_mergeAll`: merged configurations are checked and compiled one by one;
- `Config.load_error_iff`: the first source at fault decides, and says where it stands among all sources;
- `Config.load_distributes`: all of these for one file tree.
-/
import Gleaner.Proofs.Entries
import Gleaner.Proofs.Rendering

namespace Gleaner

namespace Config

/-! ## Merging -/

theorem merge_nothing (c : Config) : c.merge {} = c := by
  simp [merge]

theorem merge_assoc (a b c : Config) : (a.merge b).merge c = a.merge (b.merge c) := by
  simp [merge, List.append_assoc]

/-- configurations merged one behind the other -/
def mergeAll (configs : List Config) : Config := configs.foldl merge {}

theorem foldl_merge (acc : Config) (configs : List Config) :
    configs.foldl merge acc = acc.merge (mergeAll configs) := by
  induction configs generalizing acc with
  | nil => exact (merge_nothing acc).symm
  | cons c rest ih =>
    rw [mergeAll, List.foldl_cons, List.foldl_cons, ih, ih (merge {} c), merge_empty, merge_assoc]

theorem mergeAll_cons (c : Config) (rest : List Config) : mergeAll (c :: rest) = c.merge (mergeAll rest) := by
  rw [mergeAll, List.foldl_cons, foldl_merge, merge_empty]

/-! ## Checks of merged configurations -/

section

variable {checkStage : StageSpec → Except ConfigError Unit}

/-- the checks of the stages of a chain do not look at where the chain stands -/
theorem checked_ofStages (part : Part) (rule : Nat) (name : String) (specs : List StageSpec) :
    (∀ x ∈ Entry.ofStages part rule name specs, x.checkBy checkStage = .ok ()) ↔
      ∀ spec ∈ specs, checkStage spec = .ok () := by
  rw [Entry.ofStages, List.forall_mem_map]
  constructor
  · intro h spec hspec
    obtain ⟨i, hi, rfl⟩ := List.mem_iff_getElem.1 hspec
    exact h (specs[i], i) (List.mk_mem_zipIdx_iff_getElem?.2 (List.getElem?_eq_getElem hi))
  · intro h pair hpair
    exact h _ (List.fst_mem_of_mem_zipIdx hpair)

/-- the checks of a list of rules do not look at the numbers of the rules -/
theorem checked_rules {α : Type} (entries : α → Nat → List Entry) {Passes : α → Prop}
    (h : ∀ rule i, (∀ x ∈ entries rule i, x.checkBy checkStage = .ok ()) ↔ Passes rule) {rules : List α} :
    (∀ x ∈ rules.zipIdx.flatMap (fun numbered => entries numbered.1 numbered.2), x.checkBy checkStage = .ok ()) ↔
      ∀ rule ∈ rules, Passes rule := by
  rw [List.forall_mem_flatMap]
  constructor
  · intro hall rule hrule
    obtain ⟨i, hi, rfl⟩ := List.mem_iff_getElem.1 hrule
    exact (h _ i).1 (hall (rules[i], i) (List.mk_mem_zipIdx_iff_getElem?.2 (List.getElem?_eq_getElem hi)))
  · intro hall pair hpair
    exact (h pair.1 pair.2).2 (hall _ (List.fst_mem_of_mem_zipIdx hpair))

theorem checked_matchers {α : Type} (part : Part) (name : α → String) (matcher : α → List StageSpec) (rules : List α) :
    (∀ x ∈ rules.zipIdx.flatMap (fun numbered => Entry.ofStages part numbered.2 (name numbered.1) (matcher numbered.1)),
      x.checkBy checkStage = .ok ()) ↔ ∀ rule ∈ rules, ∀ spec ∈ matcher rule, checkStage spec = .ok () :=
  checked_rules (fun rule i => Entry.ofStages part i (name rule) (matcher rule)) fun _ _ => checked_ofStages _ _ _ _

theorem checked_ofCategory (rule : CategoryRule) (i : Nat) :
    (∀ x ∈ Entry.ofCategory rule i, x.checkBy checkStage = .ok ()) ↔
      Entry.checkMode rule = .ok () ∧ ∀ spec ∈ rule.filename ++ rule.text, checkStage spec = .ok () := by
  rw [Entry.ofCategory, List.forall_mem_cons, List.forall_mem_append, checked_ofStages, checked_ofStages,
    List.forall_mem_append]
  rfl

/-- what has to hold of the five lists of a configuration, each entry by itself -/
theorem checked_iff {c : Config} : (∀ x ∈ c.entries, x.checkBy checkStage = .ok ()) ↔
    (∀ spec ∈ c.ignore, checkStage spec = .ok ()) ∧
      (∀ rule ∈ c.category, Entry.checkMode rule = .ok () ∧
        ∀ spec ∈ rule.filename ++ rule.text, checkStage spec = .ok ()) ∧
      (∀ rule ∈ c.node, ∀ spec ∈ rule.matcher, checkStage spec = .ok ()) ∧
      (∀ rule ∈ c.normalizer.category, ∀ spec ∈ rule.matcher, checkStage spec = .ok ()) ∧
      ∀ rule ∈ c.normalizer.node, ∀ spec ∈ rule.matcher, checkStage spec = .ok () := by
  rw [entries]
  rw [List.forall_mem_append, List.forall_mem_append, List.forall_mem_append, List.forall_mem_append, checked_ofStages,
    checked_rules Entry.ofCategory checked_ofCategory,
    checked_matchers .node NodeRule.name NodeRule.matcher,
    checked_matchers .categoryNormalizer NormalizerRule.name NormalizerRule.matcher,
    checked_matchers .nodeNormalizer NormalizerRule.name NormalizerRule.matcher]
  simp only [and_assoc]

/-- **Checks are local**: the entries of a merged configuration pass if those of both its parts do. -/
theorem checked_merge {a b : Config} : (∀ x ∈ (a.merge b).entries, x.checkBy checkStage = .ok ()) ↔
    (∀ x ∈ a.entries, x.checkBy checkStage = .ok ()) ∧ ∀ x ∈ b.entries, x.checkBy checkStage = .ok () := by
  simp only [checked_iff, merge, List.forall_mem_append]
  tauto

theorem checked_mergeAll {configs : List Config} :
    (∀ x ∈ (mergeAll configs).entries, x.checkBy checkStage = .ok ()) ↔
      ∀ c ∈ configs, ∀ x ∈ c.entries, x.checkBy checkStage = .ok () := by
  induction configs with
  | nil =>
    have hempty : (mergeAll []).entries = [] := rfl
    simp [hempty]
  | cons c rest ih => rw [mergeAll_cons, checked_merge, ih, List.forall_mem_cons]

end

theorem validate_ok_iff {c : Config} : c.validate = .ok () ↔ ∀ x ∈ c.entries, x.check = .ok () := by
  rw [validate_eq, firstFault_ok_iff]

theorem validate_mergeAll {configs : List Config} :
    (mergeAll configs).validate = .ok () ↔ ∀ c ∈ configs, c.validate = .ok () := by
  simp only [validate_ok_iff]
  exact checked_mergeAll

end Config

theorem Pipeline.build_ok_iff {env : Environment} {c : Config} :
    (∃ p, build env c = .ok p) ↔ ∀ x ∈ c.entries, x.compile env = .ok () := by
  rw [← firstFault_ok_iff, ← build_eq]
  cases build env c <;> simp [verdict, Except.map]

theorem Pipeline.build_mergeAll {env : Environment} {configs : List Config} :
    (∃ p, build env (Config.mergeAll configs) = .ok p) ↔ ∀ c ∈ configs, ∃ p, build env c = .ok p := by
  simp only [build_ok_iff]
  exact Config.checked_mergeAll

/-! ## Lists of sources -/

namespace Config

open Pipeline (bind_eq_ok)

variable {files : FileNode}

theorem loadFrom_cons_of_ok {source : String} {found : Config} (h : ofSource files source = .ok found) (acc : Config)
    (i : Nat) (rest : List String) :
    loadFrom files acc i (source :: rest) = loadFrom files (acc.merge found) (i + 1) rest := by
  rw [loadFrom, h]
  rfl

theorem loadFrom_cons_of_error {source : String} {fault : ConfigError} (h : ofSource files source = .error fault)
    (acc : Config) (i : Nat) (rest : List String) :
    loadFrom files acc i (source :: rest) = .error (fault.found (indexed "config" i)) := by
  rw [loadFrom, h]
  rfl

/-- what is loaded does not depend on the number of the first source, and is put behind what there is -/
theorem loadFrom_ok_iff {acc c : Config} {i : Nat} {sources : List String} : loadFrom files acc i sources = .ok c ↔
    ∃ found, loadFrom files {} 0 sources = .ok found ∧ c = acc.merge found := by
  induction sources generalizing acc c i with
  | nil =>
    simp only [loadFrom, Except.ok.injEq]
    constructor
    · rintro rfl
      exact ⟨{}, rfl, (merge_nothing acc).symm⟩
    · rintro ⟨found, rfl, rfl⟩
      exact (merge_nothing acc).symm
  | cons source rest ih =>
    cases hsource : ofSource files source with
    | error fault => simp [loadFrom_cons_of_error hsource]
    | ok first =>
      rw [loadFrom_cons_of_ok hsource, loadFrom_cons_of_ok hsource, ih, merge_empty]
      constructor
      · rintro ⟨found, hfound, rfl⟩
        exact ⟨first.merge found, ih.2 ⟨found, hfound, rfl⟩, merge_assoc acc first found⟩
      · rintro ⟨all, hall, rfl⟩
        obtain ⟨found, hfound, rfl⟩ := ih.1 hall
        exact ⟨found, hfound, (merge_assoc acc first found).symm⟩

theorem loadFrom_append (acc : Config) (i : Nat) (xs ys : List String) :
    loadFrom files acc i (xs ++ ys) = (do loadFrom files (← loadFrom files acc i xs) (i + xs.length) ys) := by
  induction xs generalizing acc i with
  | nil => rfl
  | cons source rest ih =>
    rw [List.cons_append]
    cases hsource : ofSource files source with
    | error fault =>
      rw [loadFrom_cons_of_error hsource, loadFrom_cons_of_error hsource]
      rfl
    | ok first =>
      rw [loadFrom_cons_of_ok hsource, loadFrom_cons_of_ok hsource, ih, List.length_cons, Nat.add_assoc,
        Nat.add_comm 1 rest.length]

theorem load_of_ne_nil {sources : List String} (h : sources ≠ []) : load files sources = loadFrom files {} 0 sources :=
  if_neg (by simpa using h)

/-- **Sources loaded together and apart.** -/
theorem load_append {xs ys : List String} (hxs : xs ≠ []) (hys : ys ≠ []) {c : Config} :
    load files (xs ++ ys) = .ok c ↔ ∃ a b, load files xs = .ok a ∧ load files ys = .ok b ∧ c = a.merge b := by
  have hall : xs ++ ys ≠ [] := List.append_ne_nil_of_left_ne_nil hxs ys
  rw [load_of_ne_nil hxs, load_of_ne_nil hys, load_of_ne_nil hall, loadFrom_append]
  constructor
  · intro h
    obtain ⟨a, ha, h⟩ := bind_eq_ok h
    obtain ⟨b, hb, rfl⟩ := loadFrom_ok_iff.1 h
    exact ⟨a, b, ha, hb, rfl⟩
  · rintro ⟨a, b, ha, hb, rfl⟩
    rw [ha]
    exact loadFrom_ok_iff.2 ⟨b, hb, rfl⟩

theorem loadFrom_error_iff {acc : Config} {i : Nat} {sources : List String} {e : ConfigError} :
    loadFrom files acc i sources = .error e ↔ ∃ before source after fault, sources = before ++ source :: after ∧
      (∀ s ∈ before, ∃ c, ofSource files s = .ok c) ∧ ofSource files source = .error fault ∧
      e = fault.found (indexed "config" (i + before.length)) := by
  induction sources generalizing acc i with
  | nil => simp [loadFrom]
  | cons first rest ih =>
    cases hfirst : ofSource files first with
    | error fault =>
      rw [loadFrom_cons_of_error hfirst]
      constructor
      · intro h
        cases h
        exact ⟨[], first, rest, fault, rfl, by simp, hfirst, rfl⟩
      · rintro ⟨before, source, after, other, hsplit, hbefore, hsource, rfl⟩
        cases before with
        | nil =>
          obtain ⟨rfl, rfl⟩ := List.cons.inj hsplit
          rw [hfirst] at hsource
          cases hsource
          rfl
        | cons s before =>
          obtain ⟨rfl, -⟩ := List.cons.inj hsplit
          obtain ⟨c, hc⟩ := hbefore first List.mem_cons_self
          rw [hfirst] at hc
          cases hc
    | ok found =>
      rw [loadFrom_cons_of_ok hfirst, ih]
      constructor
      · rintro ⟨before, source, after, fault, rfl, hbefore, hsource, rfl⟩
        refine ⟨first :: before, source, after, fault, rfl, ?_, hsource, ?_⟩
        · exact List.forall_mem_cons.2 ⟨⟨found, hfirst⟩, hbefore⟩
        · rw [List.length_cons, Nat.add_assoc, Nat.add_comm 1]
      · rintro ⟨before, source, after, fault, hsplit, hbefore, hsource, rfl⟩
        cases before with
        | nil =>
          obtain ⟨rfl, rfl⟩ := List.cons.inj hsplit
          rw [hfirst] at hsource
          cases hsource
        | cons s before =>
          obtain ⟨rfl, rfl⟩ := List.cons.inj hsplit
          refine ⟨before, source, after, fault, rfl, (List.forall_mem_cons.1 hbefore).2, hsource, ?_⟩
          rw [List.length_cons, Nat.add_assoc, Nat.add_comm 1]

/-- **Why loading fails**: because of the first source that means nothing, whatever stands behind it. -/
theorem load_error_iff {sources : List String} {e : ConfigError} : load files sources = .error e ↔
    sources = [] ∧ e = .noConfig ∨ ∃ before source after fault, sources = before ++ source :: after ∧
      (∀ s ∈ before, ∃ c, ofSource files s = .ok c) ∧ ofSource files source = .error fault ∧
      e = fault.found (indexed "config" before.length) := by
  by_cases hsources : sources = []
  · simp [hsources, load, eq_comm]
  · rw [load_of_ne_nil hsources, loadFrom_error_iff]
    simp [hsources]

/-! ## Sources in brackets -/

/-- sources that are put together piece by piece -/
inductive Bracketing where
  | source (text : String)
  | both (first second : Bracketing)

namespace Bracketing

/-- all sources, in order -/
def sources : Bracketing → List String
  | .source text => [text]
  | .both first second => first.sources ++ second.sources

/-- loads every source by itself and merges along the brackets -/
def load (files : FileNode) : Bracketing → Except ConfigError Config
  | .source text => Config.load files [text]
  | .both first second => do
    let a ← first.load files
    let b ← second.load files
    return a.merge b

theorem sources_ne_nil (g : Bracketing) : g.sources ≠ [] := by
  induction g with
  | source text => exact List.cons_ne_nil text []
  | both first second hfirst _ => exact List.append_ne_nil_of_left_ne_nil hfirst second.sources

theorem load_ok_iff {g : Bracketing} {c : Config} : g.load files = .ok c ↔ Config.load files g.sources = .ok c := by
  induction g generalizing c with
  | source text => rfl
  | both first second hfirst hsecond =>
    rw [sources, load_append first.sources_ne_nil second.sources_ne_nil]
    constructor
    · intro h
      obtain ⟨a, ha, h⟩ := bind_eq_ok h
      obtain ⟨b, hb, h⟩ := bind_eq_ok h
      cases h
      exact ⟨a, b, hfirst.1 ha, hsecond.1 hb, rfl⟩
    · rintro ⟨a, b, ha, hb, rfl⟩
      rw [load, hfirst.2 ha, hsecond.2 hb]
      rfl

end Bracketing

/-- **Loading distributes over sources.**
- Two lists of sources can be loaded together exactly if each can be loaded, and what they give is merged.
- So sources give the same in whatever brackets they are put.
- Whether merged configurations mean something, and whether they compile, is decided for each of them by itself; they
  may be any configurations, not only such as can be loaded.
- Loading fails with the fault of the first source that means nothing, found at its place among all sources. -/
theorem load_distributes (files : FileNode) (env : Environment) :
    (∀ xs ys, xs ≠ [] → ys ≠ [] → ∀ c, load files (xs ++ ys) = .ok c ↔
      ∃ a b, load files xs = .ok a ∧ load files ys = .ok b ∧ c = a.merge b) ∧
    (∀ (g : Bracketing) c, g.load files = .ok c ↔ load files g.sources = .ok c) ∧
    (∀ configs : List Config,
      ((mergeAll configs).validate = .ok () ↔ ∀ c ∈ configs, c.validate = .ok ()) ∧
      ((∃ p, Pipeline.build env (mergeAll configs) = .ok p) ↔ ∀ c ∈ configs, ∃ p, Pipeline.build env c = .ok p)) ∧
    ∀ sources e, load files sources = .error e ↔
      sources = [] ∧ e = .noConfig ∨ ∃ before source after fault, sources = before ++ source :: after ∧
        (∀ s ∈ before, ∃ c, ofSource files s = .ok c) ∧ ofSource files source = .error fault ∧
        e = fault.found (indexed "config" before.length) := by
  refine ⟨?_, ?_, ?_, ?_⟩
  · intro xs ys hxs hys c
    exact load_append hxs hys
  · intro g c
    exact Bracketing.load_ok_iff
  · intro configs
    exact ⟨validate_mergeAll, Pipeline.build_mergeAll⟩
  · intro sources e
    exact load_error_iff

/-- a file and a text, loaded together; behind a third source that means nothing, it does not matter what follows -/
theorem load_distributes_small :
    let files := FileNode.dir [("f", .file "\x7b\"ignore\":[\x7b\"glob\":\"*.c\"\x7d]\x7d".toUTF8.toList)]
    let text := "\x7b\"ignore\":[\x7b\"val\":[\"a\"]\x7d]\x7d"
    (∃ a b, load files ["f"] = .ok a ∧ load files [text] = .ok b ∧
      load files ["f", text] = .ok (a.merge b)) ∧
    load files (["f", text] ++ "[" :: ["f"]) = .error ((ConfigError.unreadable none).found "config[2]") := by
  intro files text
  have hfound : ∀ {r : Except ConfigError Config}, r.toOption.isSome = true → ∃ c, r = .ok c := by
    intro r h
    cases r with
    | ok c => exact ⟨c, rfl⟩
    | error e => cases h
  have hfault : ofSource files "[" = .error (.unreadable none) := by cbv
  obtain ⟨happend, -, -, hfail⟩ := load_distributes files ⟨[]⟩
  obtain ⟨c, hc⟩ := hfound (r := load files ["f", text]) (by decide +kernel)
  obtain ⟨a, b, ha, hb, rfl⟩ := (happend ["f"] [text] (by decide) (by decide) c).1 hc
  refine ⟨⟨a, b, ha, hb, hc⟩, (hfail _ _).2 (.inr ⟨["f", text], "[", ["f"], _, rfl, ?_, hfault, by decide⟩)⟩
  rw [List.forall_mem_cons, List.forall_mem_singleton]
  exact ⟨hfound (by decide +kernel), hfound (by decide +kernel)⟩

end Config

end Gleaner
