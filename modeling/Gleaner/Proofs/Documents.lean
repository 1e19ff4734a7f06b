/-
Configurations are read back from the trees they are written as.

A table that is written has some of its fields, in their order; the fields that are left out are read as missing, so
what is left out has to be what a missing field means. Each kind of table says which fields it has in one lemma
(`StageSpec.tree_eq`), and one lemma gives the values of the fields back (`Tree.record?_table`).

The pattern of a rule is written as its text and compiled again when it is read. So configurations are read back if
their patterns come out of the compiler (`Config.Compiled`), and those that are read have only such patterns.

Results:
- `Config.written_read`: a configuration is read back from its tree, and two configurations have different trees;
- `Config.compiled_of_read`: what is read has compiled patterns.
-/
import Gleaner.Config.Document
import Gleaner.Proofs.Patterns
import Mathlib

namespace Gleaner

/-! ## Tables with some of their fields -/

namespace Tree

/-- the fields that are there, by their names -/
def present (names : List String) (values : List (Option Tree)) : List (String × Tree) :=
  (names.zip values).filterMap fun (name, value) => value.map (name, ·)

theorem present_nil : present [] [] = [] := rfl

theorem present_cons (name : String) (names : List String) (value : Option Tree) (values : List (Option Tree)) :
    present (name :: names) (value :: values) = (value.map (name, ·)).toList ++ present names values := by
  cases value <;> rfl

theorem keys_present_sublist (names : List String) (values : List (Option Tree)) :
    ((present names values).map (·.1)).Sublist names := by
  induction names generalizing values with
  | nil => simp [present]
  | cons name names ih =>
    cases values with
    | nil => simp [present]
    | cons value values =>
      rw [present_cons, List.map_append]
      cases value with
      | none => exact (ih values).cons name
      | some value => exact (ih values).cons_cons name

theorem find?_present_of_notMem {names : List String} {name : String} (h : name ∉ names)
    (values : List (Option Tree)) : (present names values).find? (·.1 == name) = none := by
  rw [List.find?_eq_none]
  intro field hfield heq
  have hkey : field.1 ∈ names := (keys_present_sublist names values).subset (List.mem_map_of_mem hfield)
  exact h (beq_iff_eq.1 heq ▸ hkey)

/-- the values of the fields of a table, those that are left out being missing -/
theorem values_present {names : List String} (hnodup : names.Nodup) {values : List (Option Tree)}
    (hlength : names.length = values.length) :
    names.map (fun name => ((present names values).find? (·.1 == name)).map (·.2)) = values := by
  induction names generalizing values with
  | nil => exact (List.length_eq_zero_iff.1 hlength.symm).symm
  | cons name names ih =>
    obtain ⟨value, values, rfl⟩ := List.exists_cons_of_length_eq_add_one hlength.symm
    obtain ⟨hname, hnodup⟩ := List.nodup_cons.1 hnodup
    have hhead : ((present (name :: names) (value :: values)).find? (·.1 == name)).map (·.2) = value := by
      rw [present_cons]
      cases value with
      | none => simp [find?_present_of_notMem hname]
      | some value => simp
    have hrest : ∀ other ∈ names, (present (name :: names) (value :: values)).find? (·.1 == other) =
        (present names values).find? (·.1 == other) := by
      intro other hother
      have hne : name ≠ other := fun heq => hname (heq ▸ hother)
      rw [present_cons]
      cases value with
      | none => rfl
      | some value => simp [hne]
    rw [List.map_cons, hhead, List.map_congr_left fun other hother => by rw [hrest other hother]]
    rw [ih hnodup (Nat.succ.inj hlength)]

/-- **The values of a table** are those it was written with. -/
theorem record?_table {names : List String} (hnodup : names.Nodup) {values : List (Option Tree)}
    (hlength : names.length = values.length) : (table (present names values)).record? names = some values := by
  have hkeys := keys_present_sublist names values
  have hknown : ((present names values).map (·.1)).all (names.contains ·) = true := by
    rw [List.all_eq_true]
    intro key hkey
    exact List.contains_iff_mem.2 (hkeys.subset hkey)
  have hdistinct : decide ((present names values).map (·.1)).Nodup = true := decide_eq_true (hkeys.nodup hnodup)
  simp only [record?, hknown, hdistinct, Bool.and_self, if_true, values_present hnodup hlength]

/-! ## Fields that may be left out -/

/-- the tree of a text that is left out if it is empty -/
def ofText? (s : String) : Option Tree := if s.isEmpty then none else some (.text s)

/-- the tree of a list that is left out if it is empty -/
def ofList? {α : Type} (write : α → Tree) (xs : List α) : Option Tree :=
  if xs.isEmpty then none else some (.list .items (xs.map write))

theorem optionalField_eq (key : String) (value : Option String) :
    optionalField key value = ((value.map text).map (key, ·)).toList := by
  cases value <;> rfl

theorem textField_eq (key s : String) : textField key s = ((ofText? s).map (key, ·)).toList := by
  unfold textField ofText?
  split <;> rfl

theorem listField_eq {α : Type} (key : String) (write : α → Tree) (xs : List α) :
    listField key write xs = ((ofList? write xs).map (key, ·)).toList := by
  unfold listField ofList?
  split <;> rfl

theorem mapM_map {α : Type} {read : Tree → Option α} {write : α → Tree} {xs : List α}
    (h : ∀ x ∈ xs, read (write x) = some x) : (xs.map write).mapM read = some xs := by
  induction xs with
  | nil => rfl
  | cons x xs ih =>
    have hx := h x List.mem_cons_self
    have hxs := ih fun y hy => h y (List.mem_cons_of_mem x hy)
    simp [hx, hxs]

theorem asList?_items {α : Type} {read : Tree → Option α} {write : α → Tree} {xs : List α}
    (h : ∀ x ∈ xs, read (write x) = some x) : asList? read (.list .items (xs.map write)) = some xs :=
  mapM_map h

theorem fieldOr_ofText? (s : String) : fieldOr "" asText? (ofText? s) = some s := by
  unfold ofText?
  split
  · next h => rw [String.isEmpty_iff.1 h]; rfl
  · rfl

theorem fieldOr_ofList? {α : Type} {read : Tree → Option α} {write : α → Tree} {xs : List α}
    (h : ∀ x ∈ xs, read (write x) = some x) : fieldOr [] (asList? read) (ofList? write xs) = some xs := by
  unfold ofList?
  split
  · next hempty => rw [List.isEmpty_iff.1 hempty]; rfl
  · exact asList?_items h

/-- a value that may be left out is there exactly if it was written -/
theorem fieldOr_optional {α : Type} {read : Tree → Option α} {write : α → Tree} {value : Option α}
    (h : ∀ x ∈ value, asOptional? read (write x) = some (some x)) :
    fieldOr none (asOptional? read) (value.map write) = some value := by
  cases value with
  | none => rfl
  | some x => exact h x rfl

theorem fieldOr_optionalText (value : Option String) :
    fieldOr none (asOptional? asText?) (value.map text) = some value :=
  fieldOr_optional fun _ _ => rfl

end Tree

open Gleaner.Tree

/-! ## Configurations with compiled patterns -/

/-- a pattern that is what its text compiles to -/
def Regex.Pattern.Compiled (p : Regex.Pattern) : Prop := compile p.source = .ok p

/-- a stage whose patterns are compiled -/
structure StageSpec.Compiled (s : StageSpec) : Prop where
  regex : ∀ p ∈ s.regex, p.Compiled
  negated : ∀ p ∈ s.negated, p.Compiled

/-- stages whose patterns are compiled -/
def AllCompiled (stages : List StageSpec) : Prop := ∀ s ∈ stages, s.Compiled

/-- a configuration whose patterns are compiled -/
structure Config.Compiled (c : Config) : Prop where
  ignore : AllCompiled c.ignore
  category : ∀ r ∈ c.category, AllCompiled r.filename ∧ AllCompiled r.text
  node : ∀ r ∈ c.node, r.category.Compiled ∧ AllCompiled r.matcher
  categoryNormalizer : ∀ r ∈ c.normalizer.category, AllCompiled r.matcher
  nodeNormalizer : ∀ r ∈ c.normalizer.node, AllCompiled r.matcher

/-! ## The fields of each table -/

theorem LuaSpec.tree_eq (l : LuaSpec) :
    l.tree = .table (present ["src", "file", "entry"]
      [l.source.map text, l.file.map text, some (.text l.entry)]) := by
  simp only [tree, optionalField_eq, present_cons, present_nil]
  simp

theorem StageSpec.tree_eq (s : StageSpec) :
    s.tree = .table (present ["r", "not", "sh", "glob", "lua", "tmpl", "val"]
      [(s.regex.map (·.source)).map text, (s.negated.map (·.source)).map text, s.shell.map text, s.glob.map text,
        s.lua.map LuaSpec.tree, s.template.map text, ofList? text s.values]) := by
  simp only [tree, optionalField_eq, listField_eq, present_cons, present_nil]
  simp [Function.comp_def]

theorem CategoryRule.tree_eq (r : CategoryRule) :
    r.tree = .table (present ["name", "filename", "text"]
      [ofText? r.name, ofList? StageSpec.tree r.filename, ofList? StageSpec.tree r.text]) := by
  simp only [tree, textField_eq, listField_eq, present_cons, present_nil]
  simp

theorem NodeRule.tree_eq (r : NodeRule) :
    r.tree = .table (present ["name", "category", "matcher"]
      [ofText? r.name, some (.text r.category.source), some (.list .items (r.matcher.map StageSpec.tree))]) := by
  simp only [tree, textField_eq, present_cons, present_nil]
  simp

theorem NormalizerRule.tree_eq (r : NormalizerRule) :
    r.tree = .table (present ["name", "matcher"]
      [ofText? r.name, some (.list .items (r.matcher.map StageSpec.tree))]) := by
  simp only [tree, textField_eq, present_cons, present_nil]
  simp

theorem Normalizers.tree_eq (n : Normalizers) :
    n.tree = .table (present ["category", "node"]
      [ofList? NormalizerRule.tree n.category, ofList? NormalizerRule.tree n.node]) := by
  simp only [tree, listField_eq, present_cons, present_nil]
  simp

theorem Config.tree_eq (c : Config) :
    c.tree = .table (present ["ignore", "category", "node", "normalizer"]
      [ofList? StageSpec.tree c.ignore, some (.list .items (c.category.map CategoryRule.tree)),
        some (.list .items (c.node.map NodeRule.tree)),
        if c.normalizer.isEmpty then none else some c.normalizer.tree]) := by
  simp only [tree, listField_eq, present_cons, present_nil]
  split <;> simp

/-! ## Reading back -/

theorem readPattern_text {p : Regex.Pattern} (h : p.Compiled) : readPattern (.text p.source) = some p := by
  simp only [readPattern, asText?, Option.bind_eq_bind, Option.bind_some]
  rw [h]
  rfl

theorem LuaSpec.ofTree?_tree (l : LuaSpec) : LuaSpec.ofTree? l.tree = some l := by
  rw [tree_eq, ofTree?, record?_table (by decide) rfl]
  simp only [Option.bind_eq_bind, Option.bind_some, fieldOr_optionalText]
  rfl

theorem StageSpec.ofTree?_tree {s : StageSpec} (h : s.Compiled) : StageSpec.ofTree? s.tree = some s := by
  have hpattern : ∀ {p : Option Regex.Pattern}, (∀ x ∈ p, x.Compiled) →
      fieldOr none (asOptional? readPattern) ((p.map (·.source)).map text) = some p := by
    intro p hp
    rw [Option.map_map]
    refine fieldOr_optional fun x hx => ?_
    change (readPattern (.text x.source)).map some = _
    rw [readPattern_text (hp x hx)]
    rfl
  have hlua : fieldOr none (asOptional? LuaSpec.ofTree?) (s.lua.map LuaSpec.tree) = some s.lua := by
    refine fieldOr_optional fun x hx => ?_
    change (LuaSpec.ofTree? x.tree).map some = _
    rw [x.ofTree?_tree]
    rfl
  have hvalues : fieldOr [] (asList? asText?) (ofList? text s.values) = some s.values :=
    fieldOr_ofList? fun _ _ => rfl
  rw [tree_eq, ofTree?, record?_table (by decide) rfl]
  simp only [Option.bind_eq_bind, Option.bind_some, hpattern h.regex, hpattern h.negated, fieldOr_optionalText, hlua,
    hvalues]
  rfl

theorem stagesOf_ofList? {stages : List StageSpec} (h : AllCompiled stages) :
    stagesOf (ofList? StageSpec.tree stages) = some stages :=
  fieldOr_ofList? fun s hs => StageSpec.ofTree?_tree (h s hs)

theorem stagesOf_items {stages : List StageSpec} (h : AllCompiled stages) :
    stagesOf (some (.list .items (stages.map StageSpec.tree))) = some stages :=
  asList?_items fun s hs => StageSpec.ofTree?_tree (h s hs)

theorem CategoryRule.ofTree?_tree {r : CategoryRule} (h : AllCompiled r.filename ∧ AllCompiled r.text) :
    CategoryRule.ofTree? r.tree = some r := by
  rw [tree_eq, ofTree?, record?_table (by decide) rfl]
  simp only [Option.bind_eq_bind, Option.bind_some, fieldOr_ofText?, stagesOf_ofList? h.1, stagesOf_ofList? h.2]
  rfl

theorem NodeRule.ofTree?_tree {r : NodeRule} (h : r.category.Compiled ∧ AllCompiled r.matcher) :
    NodeRule.ofTree? r.tree = some r := by
  rw [tree_eq, ofTree?, record?_table (by decide) rfl]
  simp only [Option.bind_eq_bind, Option.bind_some, fieldOr_ofText?, readPattern_text h.1, stagesOf_items h.2]
  rfl

theorem NormalizerRule.ofTree?_tree {r : NormalizerRule} (h : AllCompiled r.matcher) :
    NormalizerRule.ofTree? r.tree = some r := by
  rw [tree_eq, ofTree?, record?_table (by decide) rfl]
  simp only [Option.bind_eq_bind, Option.bind_some, fieldOr_ofText?, stagesOf_items h]
  rfl

theorem Normalizers.ofTree?_tree {n : Normalizers} (hcategory : ∀ r ∈ n.category, AllCompiled r.matcher)
    (hnode : ∀ r ∈ n.node, AllCompiled r.matcher) : Normalizers.ofTree? n.tree = some n := by
  have hrules : ∀ {rules : List NormalizerRule}, (∀ r ∈ rules, AllCompiled r.matcher) →
      fieldOr [] (asList? NormalizerRule.ofTree?) (ofList? NormalizerRule.tree rules) = some rules :=
    fun h => fieldOr_ofList? fun r hr => NormalizerRule.ofTree?_tree (h r hr)
  rw [tree_eq, ofTree?, record?_table (by decide) rfl]
  simp only [Option.bind_eq_bind, Option.bind_some, hrules hcategory, hrules hnode]
  rfl

theorem Normalizers.eq_of_isEmpty {n : Normalizers} (h : n.isEmpty = true) : n = {} := by
  obtain ⟨category, node⟩ := n
  simp only [isEmpty, Bool.and_eq_true, List.isEmpty_iff] at h
  obtain ⟨rfl, rfl⟩ := h
  rfl

theorem Config.ofTree?_tree {c : Config} (h : c.Compiled) : Config.ofTree? c.tree = some c := by
  have hcategory : fieldOr [] (asList? CategoryRule.ofTree?)
      (some (.list .items (c.category.map CategoryRule.tree))) = some c.category :=
    asList?_items fun r hr => CategoryRule.ofTree?_tree (h.category r hr)
  have hnode : fieldOr [] (asList? NodeRule.ofTree?)
      (some (.list .items (c.node.map NodeRule.tree))) = some c.node :=
    asList?_items fun r hr => NodeRule.ofTree?_tree (h.node r hr)
  -- a section that is left out is read as the one without rules
  have hnormalizer : fieldOr {} Normalizers.ofTree? (if c.normalizer.isEmpty then none else some c.normalizer.tree) =
      some c.normalizer := by
    split
    · next hempty => rw [Normalizers.eq_of_isEmpty hempty]; rfl
    · exact Normalizers.ofTree?_tree h.categoryNormalizer h.nodeNormalizer
  rw [tree_eq, ofTree?, record?_table (by decide) rfl]
  simp only [Option.bind_eq_bind, Option.bind_some, stagesOf_ofList? h.ignore, hcategory, hnode, hnormalizer]
  rfl

/-- **What is written can be read.** A configuration is read back from its tree as it was, whether or not it means
something, and so a tree is written by one configuration only. -/
theorem Config.written_read {c : Config} (h : c.Compiled) :
    Config.ofTree? c.tree = some c ∧ ∀ d : Config, d.Compiled → d.tree = c.tree → d = c := by
  refine ⟨ofTree?_tree h, fun d hd htree => ?_⟩
  have hread : Config.ofTree? d.tree = some d := ofTree?_tree hd
  rw [htree, ofTree?_tree h] at hread
  exact (Option.some.inj hread).symm

/-- a pattern with an anchor, a group and a repetition -/
def anchoredPattern : Regex.Pattern where
  source := "^(a)?"
  program := {
    insts := #[.accept, .save 1 0, .save 3 1, .char 'a' 2, .save 2 3, .split 4 1, .look .textStart 5, .save 0 6],
    start := 7,
    slots := 4 }
  groupNames := #[none, none]

/-- a configuration that means nothing: fields that are there and empty, too many of them, and half a section -/
def oddConfig : Config where
  category := [
    { filename := [{ shell := some "", glob := some "", template := some "", values := ["", "null"] }],
      text := [{ lua := some {} }, {}] },
    {}]
  node := [{ category := anchoredPattern }]
  normalizer := { node := [{}] }

theorem anchoredPattern_compiled : anchoredPattern.Compiled := by
  unfold Regex.Pattern.Compiled
  cbv

theorem oddConfig_compiled : oddConfig.Compiled := by
  have hplain : ∀ s : StageSpec, s.regex = none → s.negated = none → s.Compiled := by
    intro s hregex hnegated
    constructor
    · simp [hregex]
    · simp [hnegated]
  constructor
  · simp [oddConfig, AllCompiled]
  · simp [oddConfig, AllCompiled, hplain]
  · simp [oddConfig, AllCompiled, anchoredPattern_compiled]
  · simp [oddConfig]
  · simp [oddConfig, AllCompiled]

/-- the odd configuration is read back, and it is not written as the empty one is -/
theorem Config.written_read_odd :
    Config.ofTree? oddConfig.tree = some oddConfig ∧ (Config.tree {} ≠ oddConfig.tree) := by
  have hempty : ({} : Config).Compiled := by constructor <;> simp [AllCompiled]
  obtain ⟨hread, hother⟩ := written_read oddConfig_compiled
  refine ⟨hread, fun htree => ?_⟩
  have hcategory : ([] : List CategoryRule) = oddConfig.category := congrArg category (hother {} hempty htree)
  cases hcategory

/-! ## What is read has compiled patterns -/

theorem Regex.Pattern.compiled_of_compile {source : String} {p : Regex.Pattern} (h : compile source = .ok p) :
    p.Compiled := by
  obtain ⟨e, rfl⟩ := compile_eq_ok h
  exact h

theorem readPattern_compiled {t : Tree} {p : Regex.Pattern} (h : readPattern t = some p) : p.Compiled := by
  obtain ⟨source, -, hcompile⟩ := Option.bind_eq_some_iff.1 h
  cases hp : Regex.Pattern.compile source with
  | error e => simp [hp, Except.toOption] at hcompile
  | ok q =>
    rw [hp] at hcompile
    cases hcompile
    exact Regex.Pattern.compiled_of_compile hp

namespace Tree

/-- what a list is read as holds of its items what reading makes of each -/
theorem asList?_of {α : Type} {good : α → Prop} {read : Tree → Option α} (h : ∀ t x, read t = some x → good x)
    {t : Tree} {xs : List α} (hread : asList? read t = some xs) : ∀ x ∈ xs, good x := by
  have hitems : ∀ {items : List Tree} {xs : List α}, items.mapM read = some xs → ∀ x ∈ xs, good x := by
    intro items
    induction items with
    | nil =>
      intro xs hmap
      cases hmap
      simp
    | cons item items ih =>
      intro xs hmap
      rw [List.mapM_cons] at hmap
      obtain ⟨first, hfirst, hmap⟩ := Option.bind_eq_some_iff.1 hmap
      obtain ⟨others, hothers, hmap⟩ := Option.bind_eq_some_iff.1 hmap
      cases hmap
      intro x hx
      rcases List.mem_cons.1 hx with rfl | hx
      · exact h item x hfirst
      · exact ih hothers x hx
  cases t with
  | list use items => exact hitems hread
  | _ =>
    simp only [asList?] at hread
    split at hread
    · cases hread
      simp
    · cases hread

theorem fieldOr_asList?_of {α : Type} {good : α → Prop} {read : Tree → Option α} (h : ∀ t x, read t = some x → good x)
    {field : Option Tree} {xs : List α} (hread : fieldOr [] (asList? read) field = some xs) : ∀ x ∈ xs, good x := by
  cases field with
  | none =>
    cases hread
    simp
  | some t => exact asList?_of h hread

theorem fieldOr_asOptional?_of {α : Type} {good : α → Prop} {read : Tree → Option α}
    (h : ∀ t x, read t = some x → good x) {field : Option Tree} {value : Option α}
    (hread : fieldOr none (asOptional? read) field = some value) : ∀ x ∈ value, good x := by
  rintro x rfl
  cases field with
  | none => cases hread
  | some t =>
    have hmap : ∀ {t : Tree}, (read t).map some = some (some x) → good x := by
      intro t hmap
      obtain ⟨y, hy, heq⟩ := Option.map_eq_some_iff.1 hmap
      cases heq
      exact h t x hy
    cases t with
    | missing => cases hread
    | null s => cases hread
    | wrongNull s => cases hread
    | _ => exact hmap hread

end Tree

theorem StageSpec.compiled_of_read {t : Tree} {s : StageSpec} (h : StageSpec.ofTree? t = some s) : s.Compiled := by
  unfold ofTree? at h
  obtain ⟨values, -, h⟩ := Option.bind_eq_some_iff.1 h
  split at h
  · obtain ⟨regex, hregex, h⟩ := Option.bind_eq_some_iff.1 h
    obtain ⟨negated, hnegated, h⟩ := Option.bind_eq_some_iff.1 h
    obtain ⟨shell, -, h⟩ := Option.bind_eq_some_iff.1 h
    obtain ⟨glob, -, h⟩ := Option.bind_eq_some_iff.1 h
    obtain ⟨lua, -, h⟩ := Option.bind_eq_some_iff.1 h
    obtain ⟨template, -, h⟩ := Option.bind_eq_some_iff.1 h
    obtain ⟨values, -, h⟩ := Option.bind_eq_some_iff.1 h
    cases h
    exact ⟨fieldOr_asOptional?_of (fun _ _ => readPattern_compiled) hregex,
      fieldOr_asOptional?_of (fun _ _ => readPattern_compiled) hnegated⟩
  · cases h

theorem stagesOf_compiled {field : Option Tree} {stages : List StageSpec} (h : stagesOf field = some stages) :
    AllCompiled stages :=
  fieldOr_asList?_of (fun _ _ => StageSpec.compiled_of_read) h

theorem CategoryRule.compiled_of_read {t : Tree} {r : CategoryRule} (h : CategoryRule.ofTree? t = some r) :
    AllCompiled r.filename ∧ AllCompiled r.text := by
  unfold ofTree? at h
  obtain ⟨values, -, h⟩ := Option.bind_eq_some_iff.1 h
  split at h
  · obtain ⟨name, -, h⟩ := Option.bind_eq_some_iff.1 h
    obtain ⟨filename, hfilename, h⟩ := Option.bind_eq_some_iff.1 h
    obtain ⟨text, htext, h⟩ := Option.bind_eq_some_iff.1 h
    cases h
    exact ⟨stagesOf_compiled hfilename, stagesOf_compiled htext⟩
  · cases h

theorem NodeRule.compiled_of_read {t : Tree} {r : NodeRule} (h : NodeRule.ofTree? t = some r) :
    r.category.Compiled ∧ AllCompiled r.matcher := by
  unfold ofTree? at h
  obtain ⟨values, -, h⟩ := Option.bind_eq_some_iff.1 h
  split at h
  · obtain ⟨name, -, h⟩ := Option.bind_eq_some_iff.1 h
    obtain ⟨category, hcategory, h⟩ := Option.bind_eq_some_iff.1 h
    obtain ⟨matcher, hmatcher, h⟩ := Option.bind_eq_some_iff.1 h
    obtain ⟨t, -, hpattern⟩ := Option.bind_eq_some_iff.1 hcategory
    cases h
    exact ⟨readPattern_compiled hpattern, stagesOf_compiled hmatcher⟩
  · cases h

theorem NormalizerRule.compiled_of_read {t : Tree} {r : NormalizerRule} (h : NormalizerRule.ofTree? t = some r) :
    AllCompiled r.matcher := by
  unfold ofTree? at h
  obtain ⟨values, -, h⟩ := Option.bind_eq_some_iff.1 h
  split at h
  · obtain ⟨name, -, h⟩ := Option.bind_eq_some_iff.1 h
    obtain ⟨matcher, hmatcher, h⟩ := Option.bind_eq_some_iff.1 h
    cases h
    exact stagesOf_compiled hmatcher
  · cases h

theorem Normalizers.compiled_of_read {t : Tree} {n : Normalizers} (h : Normalizers.ofTree? t = some n) :
    (∀ r ∈ n.category, AllCompiled r.matcher) ∧ ∀ r ∈ n.node, AllCompiled r.matcher := by
  unfold ofTree? at h
  obtain ⟨values, -, h⟩ := Option.bind_eq_some_iff.1 h
  split at h
  · obtain ⟨category, hcategory, h⟩ := Option.bind_eq_some_iff.1 h
    obtain ⟨node, hnode, h⟩ := Option.bind_eq_some_iff.1 h
    cases h
    exact ⟨fieldOr_asList?_of (fun _ _ => NormalizerRule.compiled_of_read) hcategory,
      fieldOr_asList?_of (fun _ _ => NormalizerRule.compiled_of_read) hnode⟩
  · cases h

/-- **What is read has compiled patterns.** -/
theorem Config.compiled_of_read {t : Tree} {c : Config} (h : Config.ofTree? t = some c) : c.Compiled := by
  unfold ofTree? at h
  obtain ⟨values, -, h⟩ := Option.bind_eq_some_iff.1 h
  split at h
  · next ignoreField categoryField nodeField normalizerField =>
    obtain ⟨ignore, hignore, h⟩ := Option.bind_eq_some_iff.1 h
    obtain ⟨category, hcategory, h⟩ := Option.bind_eq_some_iff.1 h
    obtain ⟨node, hnode, h⟩ := Option.bind_eq_some_iff.1 h
    obtain ⟨normalizer, hnormalizer, h⟩ := Option.bind_eq_some_iff.1 h
    cases h
    have hrules : (∀ r ∈ normalizer.category, AllCompiled r.matcher) ∧
        ∀ r ∈ normalizer.node, AllCompiled r.matcher := by
      cases normalizerField with
      | none =>
        cases hnormalizer
        simp
      | some t => exact Normalizers.compiled_of_read hnormalizer
    exact ⟨stagesOf_compiled hignore, fieldOr_asList?_of (fun _ _ => CategoryRule.compiled_of_read) hcategory,
      fieldOr_asList?_of (fun _ _ => NodeRule.compiled_of_read) hnode, hrules.1, hrules.2⟩
  · cases h

end Gleaner
