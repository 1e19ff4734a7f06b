/-
Checking a configuration and compiling it.

Both go through the entries of a configuration in one order: what each category rule looks at, and every stage of every
chain (`Config.entries`). Checking stops at the first entry at fault; so does compiling, where an entry may also be at
fault because its glob is no pattern or the path of its script cannot be expanded (`StageSpec.Uncompilable`). The two
write different places behind a fault, but for the same entry.

Results:
- `Config.validate_eq`, `Pipeline.build_eq`: checking and compiling find the first fault among the entries;
- `StageSpec.compile_of_valid`: a stage that means something has one field that says what it does, and compiles to that
  kind of stage unless it cannot be compiled;
- `Config.checked_iff_compiled`: where both succeed, where both fail, and with what.
-/
import Gleaner.Pipeline
import Mathlib.Tactic

namespace Gleaner

/-! ## The first fault -/

/-- an error with places, the innermost first -/
def ConfigError.foundIn (e : ConfigError) (places : List String) : ConfigError := places.foldl ConfigError.found e

/-- what is found at the first fault of checks, each of which has its places -/
def firstFault : List (List String × Except ConfigError Unit) → Except ConfigError Unit
  | [] => .ok ()
  | (places, .error e) :: _ => .error (e.foundIn places)
  | (_, .ok ()) :: rest => firstFault rest

/-- a check at more places -/
def behind (places : List String) (check : List String × Except ConfigError Unit) :
    List String × Except ConfigError Unit :=
  (check.1 ++ places, check.2)

theorem behind_comp (outer inner : List String) : behind outer ∘ behind inner = behind (inner ++ outer) := by
  funext check
  simp [behind]

/-- whether a result is a fault -/
def verdict {α : Type} (r : Except ConfigError α) : Except ConfigError Unit := r.map fun _ => ()

theorem verdict_unit (r : Except ConfigError Unit) : verdict r = r := by
  cases r <;> rfl

theorem verdict_foundAt {α : Type} (place : String) (r : Except ConfigError α) :
    verdict (foundAt place r) = foundAt place (verdict r) := by
  cases r <;> rfl

theorem verdict_map {α β : Type} (f : α → β) (r : Except ConfigError α) : verdict (r.map f) = verdict r := by
  cases r <;> rfl

theorem verdict_bind {α β : Type} (r : Except ConfigError α) {f : α → Except ConfigError β}
    {rest : Except ConfigError Unit} (h : ∀ a, verdict (f a) = rest) :
    verdict (r >>= f) = (do verdict r; rest) := by
  cases r with
  | error e => rfl
  | ok a => exact h a

theorem firstFault_append (xs ys : List (List String × Except ConfigError Unit)) :
    firstFault (xs ++ ys) = (do firstFault xs; firstFault ys) := by
  induction xs with
  | nil => rfl
  | cons x xs ih =>
    obtain ⟨places, r⟩ := x
    cases r with
    | error e => rfl
    | ok u => exact ih

theorem foundAt_firstFault (place : String) (xs : List (List String × Except ConfigError Unit)) :
    foundAt place (firstFault xs) = firstFault (xs.map (behind [place])) := by
  induction xs with
  | nil => rfl
  | cons x xs ih =>
    obtain ⟨places, r⟩ := x
    cases r with
    | error e => simp [firstFault, behind, foundAt, ConfigError.foundIn]
    | ok u => exact ih

theorem firstFault_single (r : Except ConfigError Unit) : firstFault [([], r)] = r := by
  cases r <;> rfl

/-- **Where the first fault is**: all checks before it succeed. -/
theorem firstFault_error_iff {α : Type} {places : α → List String} {check : α → Except ConfigError Unit} {xs : List α}
    {e : ConfigError} : firstFault (xs.map fun x => (places x, check x)) = .error e ↔
      ∃ before x after fault, xs = before ++ x :: after ∧ (∀ y ∈ before, check y = .ok ()) ∧
        check x = .error fault ∧ e = fault.foundIn (places x) := by
  induction xs with
  | nil =>
    constructor
    · intro h
      cases h
    · rintro ⟨before, x, after, fault, hsplit, -⟩
      simp at hsplit
  | cons first rest ih =>
    rw [List.map_cons]
    cases hfirst : check first with
    | error fault =>
      constructor
      · intro h
        refine ⟨[], first, rest, fault, rfl, by simp, hfirst, ?_⟩
        simpa [firstFault] using h.symm
      · rintro ⟨before, x, after, other, hsplit, hbefore, hx, rfl⟩
        cases before with
        | nil =>
          obtain ⟨rfl, rfl⟩ := List.cons.inj hsplit
          rw [hfirst] at hx
          cases hx
          rfl
        | cons y before =>
          obtain ⟨rfl, -⟩ := List.cons.inj hsplit
          have hok := hbefore first List.mem_cons_self
          rw [hfirst] at hok
          cases hok
    | ok u =>
      change firstFault (rest.map fun x => (places x, check x)) = .error e ↔ _
      rw [ih]
      constructor
      · rintro ⟨before, x, after, fault, rfl, hbefore, hx, he⟩
        refine ⟨first :: before, x, after, fault, rfl, ?_, hx, he⟩
        intro y hy
        rcases List.mem_cons.1 hy with rfl | hy
        · exact hfirst
        · exact hbefore y hy
      · rintro ⟨before, x, after, fault, hsplit, hbefore, hx, he⟩
        cases before with
        | nil =>
          obtain ⟨rfl, rfl⟩ := List.cons.inj hsplit
          rw [hfirst] at hx
          cases hx
        | cons y before =>
          obtain ⟨rfl, rfl⟩ := List.cons.inj hsplit
          exact ⟨before, x, after, fault, rfl, fun z hz => hbefore z (List.mem_cons_of_mem _ hz), hx, he⟩

theorem firstFault_ok_iff {α : Type} {places : α → List String} {check : α → Except ConfigError Unit} {xs : List α} :
    firstFault (xs.map fun x => (places x, check x)) = .ok () ↔ ∀ x ∈ xs, check x = .ok () := by
  induction xs with
  | nil => simp [firstFault]
  | cons first rest ih =>
    rw [List.map_cons, List.forall_mem_cons]
    cases hfirst : check first with
    | error fault => simp [firstFault]
    | ok u => exact ih.trans (by simp)

/-! ## Lists of rules -/

/-- compiling a list finds the first fault among those of its items -/
theorem compileRules_eq {α β : Type} {what : String} {compile : Nat → α → Except ConfigError β}
    {faults : Nat → α → List (List String × Except ConfigError Unit)}
    (h : ∀ i x, verdict (compile i x) = firstFault (faults i x)) (i : Nat) (xs : List α) :
    verdict (Selection.compileRules what compile i xs) =
      firstFault ((xs.zipIdx i).flatMap fun (x, j) => (faults j x).map (behind [indexed what j])) := by
  induction xs generalizing i with
  | nil => rfl
  | cons x xs ih =>
    rw [List.zipIdx_cons, List.flatMap_cons, firstFault_append, ← ih, ← foundAt_firstFault, ← h, ← verdict_foundAt]
    refine verdict_bind _ fun first => ?_
    exact verdict_map (first :: ·) _

theorem validateFrom_eq_compileRules {α : Type} (what : String) (check : α → Except ConfigError Unit) (i : Nat)
    (xs : List α) : validateFrom what check i xs = verdict (Selection.compileRules what (fun _ => check) i xs) := by
  induction xs generalizing i with
  | nil => rfl
  | cons x xs ih =>
    rw [validateFrom, Selection.compileRules, ih]
    cases foundAt (indexed what i) (check x) with
    | error e => rfl
    | ok u => exact (verdict_map (u :: ·) _).symm

/-- checking a list finds the first fault among those of its items -/
theorem validateAll_eq {α : Type} {what : String} {check : α → Except ConfigError Unit}
    {faults : Nat → α → List (List String × Except ConfigError Unit)} (h : ∀ i x, check x = firstFault (faults i x))
    (xs : List α) : validateAll what check xs =
      firstFault (xs.zipIdx.flatMap fun (x, j) => (faults j x).map (behind [indexed what j])) := by
  rw [validateAll, validateFrom_eq_compileRules]
  refine compileRules_eq (fun i x => ?_) 0 xs
  rw [verdict_unit, h i]

theorem compileFrom_eq_compileRules (env : Environment) (i : Nat) (specs : List StageSpec) :
    Chain.compileFrom env i specs = Selection.compileRules "matcher"
      (fun _ spec => do spec.validate; Stage.ofSpec env spec) i specs := by
  induction specs generalizing i with
  | nil => rfl
  | cons spec specs ih =>
    rw [Chain.compileFrom, Selection.compileRules, ih]

/-! ## The entries of a configuration -/

/-- a part of a configuration that is checked by itself -/
inductive Entry where
  /-- what category rule number `rule` looks at -/
  | mode (rule : Nat) (spec : CategoryRule)
  /-- stage number `index` of a chain, which is that of a rule of some name -/
  | stage (part : Part) (rule : Nat) (name : String) (index : Nat) (spec : StageSpec)

/-- whether a stage means something and can be compiled -/
def StageSpec.compileCheck (env : Environment) (spec : StageSpec) : Except ConfigError Unit :=
  verdict do
    spec.validate
    Stage.ofSpec env spec

namespace Entry

/-- the places of an entry, those of its chain being given, the innermost first -/
def placesIn (chainPlaces : Part → Nat → String → List String) : Entry → List String
  | .mode rule _ => [indexed "category" rule]
  | .stage part rule name index _ => indexed "matcher" index :: chainPlaces part rule name

/-- where a fault is found when a configuration is checked -/
def placesInDocument : Entry → List String :=
  placesIn fun
    | .category, rule, name => [labelled "category" name, indexed "category" rule]
    | .node, rule, name => [labelled "node" name, indexed "node" rule]
    | .categoryNormalizer, rule, name => [labelled "normalizer" name, indexed "category normalizer" rule]
    | .nodeNormalizer, rule, name => [labelled "normalizer" name, indexed "node normalizer" rule]
    | _, _, _ => ["ignore"]

/-- where a fault is found when a configuration is compiled -/
def placesInPipeline : Entry → List String :=
  placesIn fun
    | .category, rule, name => [labelled "category" name, indexed "category" rule]
    | .node, rule, name => [labelled "node" name, indexed "node" rule]
    | .categoryNormalizer, rule, name =>
      [labelled "named-matcher" name, indexed "normalizer" rule, "normalizer.category"]
    | .nodeNormalizer, rule, name => [labelled "named-matcher" name, indexed "normalizer" rule, "normalizer.node"]
    | _, _, _ => ["ignore"]

/-- a category rule looks either at paths or at lines -/
def checkMode (spec : CategoryRule) : Except ConfigError Unit :=
  if spec.filename.isEmpty == spec.text.isEmpty then
    .error (.invalidSelector (labelled "category" spec.name ++ " should have only either filename or text"))
  else .ok ()

/-- a check of an entry, that of stages being given -/
def checkBy (checkStage : StageSpec → Except ConfigError Unit) : Entry → Except ConfigError Unit
  | .mode _ spec => checkMode spec
  | .stage _ _ _ _ spec => checkStage spec

/-- whether an entry means something -/
def check : Entry → Except ConfigError Unit := checkBy StageSpec.validate

/-- whether an entry means something and can be compiled -/
def compile (env : Environment) : Entry → Except ConfigError Unit := checkBy (StageSpec.compileCheck env)

/-- the stages of a chain -/
def ofStages (part : Part) (rule : Nat) (name : String) (specs : List StageSpec) : List Entry :=
  specs.zipIdx.map fun (spec, index) => .stage part rule name index spec

/-- a category rule -/
def ofCategory (spec : CategoryRule) (rule : Nat) : List Entry :=
  .mode rule spec :: (ofStages .category rule spec.name spec.filename ++ ofStages .category rule spec.name spec.text)

end Entry

/-- everything that is checked of a configuration, in order -/
def Config.entries (c : Config) : List Entry :=
  Entry.ofStages .ignore 0 "" c.ignore ++
    c.category.zipIdx.flatMap (fun (rule, i) => Entry.ofCategory rule i) ++
    c.node.zipIdx.flatMap (fun (rule, i) => Entry.ofStages .node i rule.name rule.matcher) ++
    c.normalizer.category.zipIdx.flatMap
      (fun (rule, i) => Entry.ofStages .categoryNormalizer i rule.name rule.matcher) ++
    c.normalizer.node.zipIdx.flatMap (fun (rule, i) => Entry.ofStages .nodeNormalizer i rule.name rule.matcher)

/-! ## Checking and compiling go through the entries -/

/-- the checks of the stages of a chain -/
def stageFaults (check : StageSpec → Except ConfigError Unit) (specs : List StageSpec) :
    List (List String × Except ConfigError Unit) :=
  specs.zipIdx.map fun (spec, i) => ([indexed "matcher" i], check spec)

theorem validateChain_eq (specs : List StageSpec) :
    validateChain specs = firstFault (stageFaults StageSpec.validate specs) := by
  have hfaults : ∀ (i : Nat) (spec : StageSpec), spec.validate = firstFault [([], spec.validate)] :=
    fun _ spec => (firstFault_single spec.validate).symm
  rw [validateChain, validateAll_eq hfaults]
  simp only [stageFaults, behind, List.map_cons, List.map_nil, List.nil_append]
  rw [List.map_eq_flatMap]

theorem Chain.compile_eq (env : Environment) (place : Place) (specs : List StageSpec) :
    verdict (Chain.compile env place specs) =
      firstFault (stageFaults (StageSpec.compileCheck env) specs) := by
  have hfaults : ∀ (i : Nat) (spec : StageSpec), verdict (do spec.validate; Stage.ofSpec env spec) =
      firstFault [([], spec.compileCheck env)] :=
    fun _ spec => (firstFault_single _).symm
  rw [Chain.compile, verdict_map, compileFrom_eq_compileRules, compileRules_eq hfaults]
  simp only [stageFaults, behind, List.map_cons, List.map_nil, List.nil_append]
  rw [List.map_eq_flatMap]

theorem CategoryRule.validate_eq (r : CategoryRule) : r.validate =
    firstFault (([], Entry.checkMode r) ::
      (stageFaults StageSpec.validate r.filename ++ stageFaults StageSpec.validate r.text).map
        (behind [labelled "category" r.name])) := by
  unfold validate Entry.checkMode
  split
  · rfl
  · rw [validateChain_eq, validateChain_eq, ← firstFault_append, foundAt_firstFault]
    rfl

theorem CategorySelector.compile_eq (env : Environment) (i : Nat) (r : CategoryRule) :
    verdict (CategorySelector.compile env i r) =
      firstFault (([], Entry.checkMode r) ::
        (stageFaults (StageSpec.compileCheck env) r.filename ++
          stageFaults (StageSpec.compileCheck env) r.text).map
            (behind [labelled "category" r.name])) := by
  have hchain : ∀ (specs : List StageSpec) (mode : CategoryMode),
      verdict ((foundAt (labelled "category" r.name)
        (Chain.compile env { part := .category, rule := i } specs)).map (CategorySelector.mk r.name mode)) =
      firstFault ((stageFaults (StageSpec.compileCheck env) specs).map
        (behind [labelled "category" r.name])) := by
    intro specs mode
    rw [verdict_map, verdict_foundAt, Chain.compile_eq, foundAt_firstFault]
  -- the stages of the other kind are none
  unfold compile Entry.checkMode
  cases hfilename : r.filename with
  | nil =>
    cases htext : r.text with
    | nil => rfl
    | cons spec specs => exact hchain (spec :: specs) .text
  | cons spec specs =>
    cases htext : r.text with
    | nil =>
      rw [show stageFaults _ [] = [] from rfl, List.append_nil]
      exact hchain (spec :: specs) .filename
    | cons other others => rfl

theorem NodeRule.validate_eq (r : NodeRule) : r.validate =
    firstFault ((stageFaults StageSpec.validate r.matcher).map (behind [labelled "node" r.name])) := by
  rw [validate, validateChain_eq, foundAt_firstFault]

theorem NodeSelector.compile_eq (env : Environment) (i : Nat) (r : NodeRule) :
    verdict (NodeSelector.compile env i r) =
      firstFault ((stageFaults (StageSpec.compileCheck env) r.matcher).map
        (behind [labelled "node" r.name])) := by
  rw [compile, verdict_map, verdict_foundAt, Chain.compile_eq, foundAt_firstFault]

theorem NormalizerRule.validate_eq (r : NormalizerRule) : r.validate =
    firstFault ((stageFaults StageSpec.validate r.matcher).map (behind [labelled "normalizer" r.name])) := by
  rw [validate, validateChain_eq, foundAt_firstFault]

theorem Normalizer.compile_eq (env : Environment) (part : Part) (i : Nat) (r : NormalizerRule) :
    verdict (Normalizer.compile env part i r) =
      firstFault ((stageFaults (StageSpec.compileCheck env) r.matcher).map
        (behind [labelled "named-matcher" r.name])) := by
  rw [compile, verdict_map, verdict_foundAt, Chain.compile_eq, foundAt_firstFault]

/-- the checks of the entries of a configuration, list by list -/
theorem Config.map_entries (chainPlaces : Part → Nat → String → List String)
    (checkStage : StageSpec → Except ConfigError Unit) (c : Config) :
    c.entries.map (fun x => (x.placesIn chainPlaces, x.checkBy checkStage)) =
      (stageFaults checkStage c.ignore).map (behind (chainPlaces .ignore 0 "")) ++
        c.category.zipIdx.flatMap (fun (rule, i) => ([indexed "category" i], Entry.checkMode rule) ::
          (stageFaults checkStage rule.filename ++ stageFaults checkStage rule.text).map
            (behind (chainPlaces .category i rule.name))) ++
        c.node.zipIdx.flatMap (fun (rule, i) =>
          (stageFaults checkStage rule.matcher).map (behind (chainPlaces .node i rule.name))) ++
        c.normalizer.category.zipIdx.flatMap (fun (rule, i) =>
          (stageFaults checkStage rule.matcher).map (behind (chainPlaces .categoryNormalizer i rule.name))) ++
        c.normalizer.node.zipIdx.flatMap (fun (rule, i) =>
          (stageFaults checkStage rule.matcher).map (behind (chainPlaces .nodeNormalizer i rule.name))) := by
  have hstages : ∀ part rule name (specs : List StageSpec),
      (Entry.ofStages part rule name specs).map (fun x => (x.placesIn chainPlaces, x.checkBy checkStage)) =
        (stageFaults checkStage specs).map (behind (chainPlaces part rule name)) := by
    intro part rule name specs
    simp only [Entry.ofStages, stageFaults, List.map_map]
    rfl
  simp only [entries, Entry.ofCategory, List.map_append, List.map_flatMap, List.map_cons, hstages]
  rfl

/-- **Checking finds the first fault among the entries.** -/
theorem Config.validate_eq (c : Config) :
    c.validate = firstFault (c.entries.map fun x => (x.placesInDocument, x.check)) := by
  have hrules : ∀ (what : String) (rules : List NormalizerRule), validateAll what NormalizerRule.validate rules = _ :=
    fun what rules => validateAll_eq (fun _ rule => rule.validate_eq) rules
  have hcategory : validateAll "category" CategoryRule.validate c.category = _ :=
    validateAll_eq (fun _ rule => rule.validate_eq) c.category
  have hnode : validateAll "node" NodeRule.validate c.node = _ :=
    validateAll_eq (fun _ rule => rule.validate_eq) c.node
  rw [validate, validateChain_eq, foundAt_firstFault, hcategory, hnode, hrules, hrules]
  simp only [← firstFault_append, List.map_cons, List.map_map, behind_comp]
  refine congrArg firstFault (Eq.symm ?_)
  refine (map_entries _ _ c).trans ?_
  simp only [List.append_assoc]
  rfl

/-- **Compiling finds the first fault among the entries**, which may also be that one of them cannot be compiled. -/
theorem Pipeline.build_eq (env : Environment) (c : Config) :
    verdict (Pipeline.build env c) = firstFault (c.entries.map fun x => (x.placesInPipeline, x.compile env)) := by
  have hcategory : verdict (compileCategories env c.category) = _ :=
    compileRules_eq (CategorySelector.compile_eq env) 0 c.category
  have hnode : verdict (compileNodes env c.node) = _ := compileRules_eq (NodeSelector.compile_eq env) 0 c.node
  have hrules : ∀ (part : Part) (rules : List NormalizerRule), verdict (compileNormalizers env part rules) = _ :=
    fun part rules => compileRules_eq (Normalizer.compile_eq env part) 0 rules
  have hchain : verdict (foundAt "ignore" (Chain.compile env { part := .ignore } c.ignore)) = _ :=
    (verdict_foundAt _ _).trans (by rw [Chain.compile_eq, foundAt_firstFault])
  have hnormalizers : ∀ (place : String) (part : Part) (rules : List NormalizerRule),
      verdict (foundAt place (compileNormalizers env part rules)) = _ :=
    fun place part rules => (verdict_foundAt _ _).trans (by rw [hrules, foundAt_firstFault])
  have hbuild : verdict (build env c) = (do
      verdict (foundAt "ignore" (Chain.compile env { part := .ignore } c.ignore))
      verdict (compileCategories env c.category)
      verdict (compileNodes env c.node)
      verdict (foundAt "normalizer.category" (compileNormalizers env .categoryNormalizer c.normalizer.category))
      verdict (foundAt "normalizer.node" (compileNormalizers env .nodeNormalizer c.normalizer.node))) := by
    refine verdict_bind _ fun ignore => ?_
    refine verdict_bind _ fun categories => ?_
    refine verdict_bind _ fun nodes => ?_
    refine verdict_bind _ fun categoryNormalizers => ?_
    exact verdict_map _ _
  rw [hbuild, hchain, hcategory, hnode, hnormalizers, hnormalizers]
  simp only [← firstFault_append, List.map_cons, List.map_map, List.map_flatMap, behind_comp]
  refine congrArg firstFault (Eq.symm ?_)
  refine (Config.map_entries _ _ c).trans ?_
  simp only [List.append_assoc]
  rfl

/-! ## Stages that mean something -/

namespace StageSpec

/-- the kinds of stages that the fields name; values name a kind only if nothing else does -/
def kinds (s : StageSpec) : List String :=
  (s.regex.map fun _ => if s.template.isSome then "template" else "regex").toList ++
    (s.negated.map fun _ => "not").toList ++ (s.shell.map fun _ => "sh").toList ++
    (s.glob.map fun _ => "glob").toList ++ (s.lua.map fun _ => "lua").toList ++
    if s.primaries = 0 ∧ s.values ≠ [] then ["value"] else []

/-- the ways in which a stage that means something may fail to compile -/
inductive Uncompilable (env : Environment) (s : StageSpec) : ConfigError → Prop where
  /-- its glob is no pattern -/
  | glob {pattern : String} {e : Glob.GlobError} (hglob : s.glob = some pattern) (h : Glob.compile pattern = .error e) :
      Uncompilable env s (.invalidPattern pattern (some (e.describe pattern)))
  /-- the path of its script names a variable that is not there -/
  | path {lua : LuaSpec} {file name : String} (hlua : s.lua = some lua) (hfile : lua.file = some file)
      (hsource : lua.source = none) (h : Expand.path env file = .error name) :
      Uncompilable env s (.invalidMatcher ("cannot expand lua file path " ++ file ++ ": error looking key '" ++ name ++
        "' up: environment variable not found"))

/-- what a stage that means something looks like -/
theorem valid_cases {s : StageSpec} (h : s.validate = .ok ()) :
    s.primaries = 0 ∧ s.template = none ∧ s.values ≠ [] ∨
      s.primaries = 1 ∧ (s.template.isSome → s.regex.isSome) ∧ ∀ lua ∈ s.lua, lua.validate = .ok () := by
  unfold validate at h
  split at h
  · cases h
  · simp only at h
    split at h
    · next hzero =>
      left
      split_ifs at h with htemplate hvalues
      · cases h
      · refine ⟨hzero, by simpa using htemplate, ?_⟩
        simpa using hvalues
      · cases h
    · next hone =>
      right
      split_ifs at h with htemplate hboth hvalues
      · cases h
      · cases h
      · cases h
      · refine ⟨hone, ?_, ?_⟩
        · intro hsome
          simpa [hsome, Option.isSome_iff_ne_none] using htemplate
        · intro lua hlua
          rw [Option.mem_def.1 hlua] at h
          exact h
    · cases h

/-- a stage that means nothing is an invalid stage -/
theorem fault_of_invalid (s : StageSpec) {fault : ConfigError} (h : s.validate = .error fault) :
    ∃ reason, fault = .invalidMatcher reason := by
  have hinvalid : ∀ {reason : String}, invalid reason = .error fault → ∃ reason, fault = .invalidMatcher reason := by
    intro reason h
    cases h
    exact ⟨reason, rfl⟩
  unfold validate at h
  split at h
  · exact hinvalid h
  · simp only at h
    split at h
    · split_ifs at h with htemplate hvalues
      · exact hinvalid h
      · exact hinvalid h
    · split_ifs at h with htemplate hboth hvalues
      · exact hinvalid h
      · exact hinvalid h
      · exact hinvalid h
      · split at h
        · unfold LuaSpec.validate at h
          split_ifs at h with hentry hsource
          · exact hinvalid h
          · exact hinvalid h
        · cases h
    · exact hinvalid h

/-- a script that means something has a text or a file -/
theorem luaScript_of_valid (env : Environment) {s : StageSpec} {lua : LuaSpec} (hlua : s.lua = some lua)
    (h : lua.validate = .ok ()) : (∃ script, Stage.luaScript env lua = .ok script) ∨
      ∃ fault, s.Uncompilable env fault ∧ Stage.luaScript env lua = .error fault := by
  unfold Stage.luaScript
  cases hsource : lua.source with
  | some code => exact .inl ⟨_, rfl⟩
  | none =>
    cases hfile : lua.file with
    | some file =>
      simp only
      cases hpath : Expand.path env file with
      | ok path => exact .inl ⟨_, rfl⟩
      | error name => exact .inr ⟨_, .path hlua hfile hsource hpath, rfl⟩
    | none =>
      unfold LuaSpec.validate at h
      rw [hsource, hfile] at h
      split at h
      · cases h
      · cases h

theorem none_of_primaries {s : StageSpec} (h : s.primaries = 0) :
    s.regex = none ∧ s.negated = none ∧ s.shell = none ∧ s.glob = none ∧ s.lua = none := by
  obtain ⟨regex, negated, shell, glob, lua, template, values⟩ := s
  cases regex <;> cases negated <;> cases shell <;> cases glob <;> cases lua <;> cases h
  exact ⟨rfl, rfl, rfl, rfl, rfl⟩

theorem one_of_primaries {s : StageSpec} (h : s.primaries = 1) :
    (∃ p, s.regex = some p ∧ s.negated = none ∧ s.shell = none ∧ s.glob = none ∧ s.lua = none) ∨
      (∃ p, s.regex = none ∧ s.negated = some p ∧ s.shell = none ∧ s.glob = none ∧ s.lua = none) ∨
      (∃ body, s.regex = none ∧ s.negated = none ∧ s.shell = some body ∧ s.glob = none ∧ s.lua = none) ∨
      (∃ pattern, s.regex = none ∧ s.negated = none ∧ s.shell = none ∧ s.glob = some pattern ∧ s.lua = none) ∨
      ∃ lua, s.regex = none ∧ s.negated = none ∧ s.shell = none ∧ s.glob = none ∧ s.lua = some lua := by
  obtain ⟨regex, negated, shell, glob, lua, template, values⟩ := s
  cases regex <;> cases negated <;> cases shell <;> cases glob <;> cases lua <;> cases h <;> simp

/-- **A stage that means something** names one kind of stage, and compiles to a stage of that kind unless it is
uncompilable. -/
theorem compile_of_valid (env : Environment) {s : StageSpec} (h : s.validate = .ok ()) :
    ∃ kind, s.kinds = [kind] ∧ ((∃ stage, Stage.ofSpec env s = .ok stage ∧ stage.kind = kind) ∨
      ∃ fault, s.Uncompilable env fault ∧ Stage.ofSpec env s = .error fault) := by
  rcases valid_cases h with ⟨hzero, htemplate, hvalues⟩ | ⟨hone, htemplate, hlua⟩
  · -- values alone
    obtain ⟨hregex, hnegated, hshell, hglob, hlua⟩ := none_of_primaries hzero
    refine ⟨"value", ?_, .inl ⟨.values s.values, ?_, rfl⟩⟩
    · simp [kinds, hzero, hregex, hnegated, hshell, hglob, hlua, hvalues]
    · simp [Stage.ofSpec, hregex, hnegated, hshell, hglob, hlua, htemplate, hvalues]
  · have hvalue : ¬(s.primaries = 0 ∧ s.values ≠ []) := by simp [hone]
    rcases one_of_primaries hone with ⟨p, hregex, hnegated, hshell, hglob, hnolua⟩ |
      ⟨p, hregex, hnegated, hshell, hglob, hnolua⟩ | ⟨body, hregex, hnegated, hshell, hglob, hnolua⟩ |
      ⟨pattern, hregex, hnegated, hshell, hglob, hnolua⟩ | ⟨lua, hregex, hnegated, hshell, hglob, hsome⟩
    · cases htext : s.template with
      | some text =>
        refine ⟨"template", ?_, .inl ⟨.template p text, ?_, rfl⟩⟩
        · simp [kinds, hvalue, hregex, hnegated, hshell, hglob, hnolua, htext]
        · simp [Stage.ofSpec, hregex, hnegated, hshell, hglob, hnolua, htext]
      | none =>
        refine ⟨"regex", ?_, .inl ⟨.regex p s.values, ?_, rfl⟩⟩
        · simp [kinds, hvalue, hregex, hnegated, hshell, hglob, hnolua, htext]
        · simp [Stage.ofSpec, hregex, hnegated, hshell, hglob, hnolua, htext]
    · refine ⟨"not", ?_, .inl ⟨.negated p s.values, ?_, rfl⟩⟩
      · simp [kinds, hvalue, hregex, hnegated, hshell, hglob, hnolua]
      · simp [Stage.ofSpec, hnegated, hshell, hglob, hnolua]
    · refine ⟨"sh", ?_, .inl ⟨.shell { body := body }, ?_, rfl⟩⟩
      · simp [kinds, hvalue, hregex, hnegated, hshell, hglob, hnolua]
      · simp [Stage.ofSpec, hshell, hnolua]
    · refine ⟨"glob", by simp [kinds, hvalue, hregex, hnegated, hshell, hglob, hnolua], ?_⟩
      cases hcompile : Glob.compile pattern with
      | ok g => exact .inl ⟨.glob g, by simp [Stage.ofSpec, hshell, hglob, hnolua, hcompile], rfl⟩
      | error e =>
        exact .inr ⟨_, .glob hglob hcompile, by simp [Stage.ofSpec, hshell, hglob, hnolua, hcompile]⟩
    · refine ⟨"lua", by simp [kinds, hvalue, hregex, hnegated, hshell, hglob, hsome], ?_⟩
      rcases luaScript_of_valid env hsome (hlua lua hsome) with ⟨script, hscript⟩ | ⟨fault, hfault, hscript⟩
      · exact .inl ⟨.lua script, by simp [Stage.ofSpec, hsome, hscript, Except.map], rfl⟩
      · exact .inr ⟨fault, hfault, by simp [Stage.ofSpec, hsome, hscript, Except.map]⟩

/-- an uncompilable stage that means something does not compile -/
theorem Uncompilable.ofSpec {env : Environment} {s : StageSpec} {fault : ConfigError}
    (hfault : s.Uncompilable env fault) (h : s.validate = .ok ()) : Stage.ofSpec env s = .error fault := by
  cases hfault with
  | @glob pattern e hglob hcompile =>
    have hothers : s.shell = none ∧ s.lua = none := by
      rcases valid_cases h with ⟨hzero, -⟩ | ⟨hone, -⟩
      · obtain ⟨-, -, hshell, -, hlua⟩ := none_of_primaries hzero
        exact ⟨hshell, hlua⟩
      · have hcount := one_of_primaries hone
        simp only [hglob, reduceCtorEq, false_and, and_false, exists_false, false_or, or_false] at hcount
        obtain ⟨-, -, -, hshell, -, hlua⟩ := hcount
        exact ⟨hshell, hlua⟩
    simp [Stage.ofSpec, hothers, hglob, hcompile]
  | @path lua file name hlua hfile hsource hpath =>
    simp [Stage.ofSpec, Stage.luaScript, hlua, hsource, hfile, hpath, Except.map]

end StageSpec

/-! ## Checking and compiling agree -/

namespace Entry

/-- an entry that may mean something and cannot be compiled -/
def Uncompilable (env : Environment) : Entry → ConfigError → Prop
  | .mode _ _, _ => False
  | .stage _ _ _ _ spec, fault => spec.Uncompilable env fault

/-- an entry that means nothing is at fault for the same reason when it is compiled -/
theorem compile_of_fault {env : Environment} {x : Entry} {fault : ConfigError} (h : x.check = .error fault) :
    x.compile env = .error fault := by
  cases x with
  | mode rule spec => exact h
  | stage part rule name index spec =>
    change spec.validate = .error fault at h
    change verdict (do spec.validate; Stage.ofSpec env spec) = .error fault
    rw [h]
    rfl

/-- an entry that means something is at fault only if it is uncompilable -/
theorem compile_of_check (env : Environment) {x : Entry} (h : x.check = .ok ()) :
    x.compile env = .ok () ∨ ∃ fault, x.Uncompilable env fault ∧ x.compile env = .error fault := by
  cases x with
  | mode rule spec => exact .inl h
  | stage part rule name index spec =>
    change spec.validate = .ok () at h
    have hcompile : (Entry.stage part rule name index spec).compile env = verdict (Stage.ofSpec env spec) := by
      change verdict (do spec.validate; Stage.ofSpec env spec) = _
      rw [h]
      rfl
    obtain ⟨kind, -, ⟨stage, hstage, -⟩ | ⟨fault, hfault, hstage⟩⟩ := StageSpec.compile_of_valid env h
    · exact .inl (by rw [hcompile, hstage]; rfl)
    · exact .inr ⟨fault, hfault, by rw [hcompile, hstage]; rfl⟩

theorem not_uncompilable_of_compile {env : Environment} {x : Entry} (h : x.compile env = .ok ()) (fault : ConfigError) :
    ¬ x.Uncompilable env fault := by
  intro hfault
  cases x with
  | mode rule spec => exact hfault
  | stage part rule name index spec =>
    change verdict (do spec.validate; Stage.ofSpec env spec) = .ok () at h
    cases hvalid : spec.validate with
    | error e =>
      rw [hvalid] at h
      cases h
    | ok u =>
      have hstage := StageSpec.Uncompilable.ofSpec hfault hvalid
      rw [hvalid, hstage] at h
      cases h

theorem compile_ok_iff {env : Environment} {x : Entry} :
    x.compile env = .ok () ↔ x.check = .ok () ∧ ∀ fault, ¬ x.Uncompilable env fault := by
  constructor
  · intro h
    refine ⟨?_, not_uncompilable_of_compile h⟩
    cases hcheck : x.check with
    | ok u => rfl
    | error e =>
      rw [compile_of_fault hcheck] at h
      cases h
  · rintro ⟨hcheck, hfault⟩
    rcases compile_of_check env hcheck with h | ⟨fault, h, -⟩
    · exact h
    · exact absurd h (hfault fault)

/-- faults have no places of their own -/
theorem check_innermost {x : Entry} {fault : ConfigError} (h : x.check = .error fault) : fault.innermost = fault := by
  cases x with
  | mode rule spec =>
    change checkMode spec = .error fault at h
    unfold checkMode at h
    split at h
    · cases h
      rfl
    · cases h
  | stage part rule name index spec =>
    obtain ⟨reason, rfl⟩ := spec.fault_of_invalid h
    rfl

end Entry

theorem ConfigError.innermost_foundIn (e : ConfigError) (places : List String) :
    (e.foundIn places).innermost = e.innermost := by
  induction places generalizing e with
  | nil => rfl
  | cons place places ih => exact ih (e.found place)

/-- **Checking and compiling agree** on every configuration, whether or not it means something.
- It can be compiled exactly if it means something and none of its entries is uncompilable.
- If it means something, compiling fails only with the fault of the first uncompilable entry. A stage that means
  something names one kind of stage; it compiles to a stage of that kind unless it is uncompilable.
- If it means nothing, compiling fails as well. Checking finds the first entry that means nothing; so does compiling,
  with the same fault, unless an entry before that one is uncompilable. -/
theorem Config.checked_iff_compiled (env : Environment) (c : Config) :
    ((∃ p, Pipeline.build env c = .ok p) ↔
      c.validate = .ok () ∧ ∀ x ∈ c.entries, ∀ fault, ¬ x.Uncompilable env fault) ∧
    (c.validate = .ok () → ∀ e, Pipeline.build env c = .error e →
      ∃ before x after fault, c.entries = before ++ x :: after ∧
        (∀ y ∈ before, ∀ fault, ¬ y.Uncompilable env fault) ∧ x.Uncompilable env fault ∧
        e = fault.foundIn x.placesInPipeline) ∧
    (∀ spec : StageSpec, spec.validate = .ok () → ∃ kind, spec.kinds = [kind] ∧
      ((∃ stage, Stage.ofSpec env spec = .ok stage ∧ stage.kind = kind) ∨
        ∃ fault, spec.Uncompilable env fault ∧ Stage.ofSpec env spec = .error fault)) ∧
    ∀ e, c.validate = .error e →
      ∃ before x after, c.entries = before ++ x :: after ∧ (∀ y ∈ before, y.check = .ok ()) ∧
        x.check = .error e.innermost ∧ e = e.innermost.foundIn x.placesInDocument ∧
        ∃ e', Pipeline.build env c = .error e' ∧
          ((∀ y ∈ before, ∀ fault, ¬ y.Uncompilable env fault) →
            e'.innermost = e.innermost ∧ e' = e.innermost.foundIn x.placesInPipeline) := by
  have hbuilt : ∀ {r : Except ConfigError Pipeline}, (∃ p, r = .ok p) ↔ verdict r = .ok () := by
    intro r
    cases r <;> simp [verdict, Except.map]
  have hfailed : ∀ {r : Except ConfigError Pipeline} {e : ConfigError}, r = .error e ↔ verdict r = .error e := by
    intro r e
    cases r <;> simp [verdict, Except.map]
  have hvalid : c.validate = .ok () ↔ ∀ x ∈ c.entries, x.check = .ok () := by
    rw [validate_eq, firstFault_ok_iff]
  refine ⟨?_, ?_, fun spec => spec.compile_of_valid env, ?_⟩
  · rw [hbuilt, Pipeline.build_eq, firstFault_ok_iff, hvalid, ← forall₂_and]
    exact forall₂_congr fun x _ => Entry.compile_ok_iff
  · intro hok e he
    rw [hfailed, Pipeline.build_eq, firstFault_error_iff] at he
    obtain ⟨before, x, after, fault, hsplit, hbefore, hx, he⟩ := he
    have hcheck : x.check = .ok () := hvalid.1 hok x (by simp [hsplit])
    rcases Entry.compile_of_check env hcheck with hcompile | ⟨other, hother, hcompile⟩
    · rw [hx] at hcompile
      cases hcompile
    · rw [hx] at hcompile
      cases hcompile
      exact ⟨before, x, after, fault, hsplit, fun y hy => (Entry.compile_ok_iff.1 (hbefore y hy)).2, hother, he⟩
  · intro e he
    rw [validate_eq, firstFault_error_iff] at he
    obtain ⟨before, x, after, fault, hsplit, hbefore, hx, rfl⟩ := he
    have hinnermost : (fault.foundIn x.placesInDocument).innermost = fault :=
      (fault.innermost_foundIn _).trans (Entry.check_innermost hx)
    rw [hinnermost]
    refine ⟨before, x, after, hsplit, hbefore, hx, rfl, ?_⟩
    cases hbuild : Pipeline.build env c with
    | ok p =>
      have hall := (hbuilt.1 ⟨p, hbuild⟩)
      rw [Pipeline.build_eq, firstFault_ok_iff] at hall
      have hcompile := hall x (by simp [hsplit])
      rw [Entry.compile_of_fault hx] at hcompile
      cases hcompile
    | error e' =>
      refine ⟨e', rfl, fun hquiet => ?_⟩
      have hsame : Pipeline.build env c = .error (fault.foundIn x.placesInPipeline) := by
        rw [hfailed, Pipeline.build_eq, firstFault_error_iff]
        exact ⟨before, x, after, fault, hsplit, fun y hy => Entry.compile_ok_iff.2 ⟨hbefore y hy, hquiet y hy⟩,
          Entry.compile_of_fault hx, rfl⟩
      rw [hbuild] at hsame
      cases hsame
      exact ⟨(fault.innermost_foundIn _).trans (Entry.check_innermost hx), rfl⟩

/-- a glob that is no pattern behind a normalizer that means nothing -/
def faultyConfig : Config where
  category := [{ name := "c", filename := [.ofGlob "*.c"] }]
  normalizer := {
    category := [{ name := "n", matcher := [.ofValues ["a"], {}] }],
    node := [{ matcher := [.ofGlob "[a"] }] }

/-- checking and compiling find the same stage, each at its own places -/
theorem Config.checked_iff_compiled_faulty : ∃ e e',
    faultyConfig.validate = .error e ∧ Pipeline.build ⟨[]⟩ faultyConfig = .error e' ∧
      e.message = "invalid matcher: empty matcher: matcher[1]: normalizer(n): category normalizer[0]" ∧
      e'.message =
        "invalid matcher: empty matcher: matcher[1]: named-matcher(n): normalizer[0]: normalizer.category" := by
  have hinvalid : faultyConfig.validate = .error ((ConfigError.invalidMatcher "empty matcher").foundIn
      [indexed "matcher" 1, labelled "normalizer" "n", indexed "category normalizer" 0]) := rfl
  obtain ⟨-, -, -, -, -, -, -, e', hbuild, -⟩ :=
    (checked_iff_compiled ⟨[]⟩ faultyConfig).2.2.2 _ hinvalid
  have hplaces : Pipeline.build ⟨[]⟩ faultyConfig = .error ((ConfigError.invalidMatcher "empty matcher").foundIn
      [indexed "matcher" 1, labelled "named-matcher" "n", indexed "normalizer" 0, "normalizer.category"]) := rfl
  refine ⟨_, e', hinvalid, hbuild, by decide, ?_⟩
  rw [hplaces] at hbuild
  cases hbuild
  decide

end Gleaner
