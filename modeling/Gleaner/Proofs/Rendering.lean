/-
Checked configurations that are loaded again.

The text of checked configurations is loaded as one source. As YAML it is read back from its lines (`Yaml.parse_print`).
As JSON it meets the reader of YAML first. Either that finds nothing in it, and it is read back as JSON
(`Json.parse_render`), or it finds a tree. That is the tree that was written (`Yaml.parse_render`), unless there are line
breaks in its texts that stand between quotes as they are, for YAML folds those: a next line becomes a blank, and the
blanks around a separator are lost (`Yaml.isUnfolded`).

Results:
- `Command.checkConfig_reloads`: just when what was printed is loaded as the merged configuration, and is then printed
  the same;
- `Command.checkConfig_folded`: a pattern that JSON does not bring back.
-/
import Gleaner.Command.Basic
import Gleaner.Proofs.Brackets
import Gleaner.Proofs.Entries
import Gleaner.Proofs.Keeping
import Gleaner.Proofs.Printed
import Gleaner.Proofs.Recasts

namespace Gleaner

/-! ## Texts in a tree -/

namespace Tree

mutual
/-- the texts in a tree -/
def texts : Tree → List String
  | .text s => [s]
  | .list _ items => itemTexts items
  | .table fields => fieldTexts fields
  | _ => []

def itemTexts : List Tree → List String
  | [] => []
  | item :: rest => texts item ++ itemTexts rest

def fieldTexts : List (String × Tree) → List String
  | [] => []
  | (_, value) :: rest => texts value ++ fieldTexts rest
end

theorem itemTexts_eq (items : List Tree) : itemTexts items = items.flatMap texts := by
  induction items with
  | nil => rfl
  | cons t items ih => rw [itemTexts, ih, List.flatMap_cons]

theorem fieldTexts_eq (fields : List (String × Tree)) : fieldTexts fields = fields.flatMap fun f => f.2.texts := by
  induction fields with
  | nil => rfl
  | cons f fields ih => rw [fieldTexts, ih, List.flatMap_cons]

theorem Written.of_texts {P Q : String → Prop} {t : Tree} (h : t.Written P) (htexts : ∀ s ∈ t.texts, Q s) :
    t.Written Q := by
  induction h with
  | text => exact .text (htexts _ (List.mem_singleton_self _))
  | list _ ih =>
    refine .list fun t ht => ih t ht fun s hs => htexts s ?_
    rw [texts, itemTexts_eq]
    exact List.mem_flatMap.2 ⟨t, ht, hs⟩
  | table hkeys _ ih =>
    refine .table hkeys fun f hf => ih f hf fun s hs => htexts s ?_
    rw [texts, fieldTexts_eq]
    exact List.mem_flatMap.2 ⟨f, hf, hs⟩

end Tree

/-! ## Loaded configurations -/

namespace Config

open Pipeline (bind_eq_ok foundAt_eq_ok)

theorem merge_empty (c : Config) : merge {} c = c := by
  simp [merge]

theorem compiled_empty : ({} : Config).Compiled := by
  constructor <;> exact nofun

theorem Compiled.merge {a b : Config} (ha : a.Compiled) (hb : b.Compiled) : (a.merge b).Compiled where
  ignore := List.forall_mem_append.2 ⟨ha.ignore, hb.ignore⟩
  category := List.forall_mem_append.2 ⟨ha.category, hb.category⟩
  node := List.forall_mem_append.2 ⟨ha.node, hb.node⟩
  categoryNormalizer := List.forall_mem_append.2 ⟨ha.categoryNormalizer, hb.categoryNormalizer⟩
  nodeNormalizer := List.forall_mem_append.2 ⟨ha.nodeNormalizer, hb.nodeNormalizer⟩

/-- a document is what one of the notations says -/
theorem exists_tree_of_readDocument {α : Type} {read : Tree → Option α} {text : String} {x : α}
    (h : readDocument read text = .ok x) : ∃ t, read t = some x := by
  have hbind : ∀ {found : Option Tree}, found.bind read = some x → ∃ t, read t = some x := fun hfound =>
    let ⟨t, _, ht⟩ := Option.bind_eq_some_iff.1 hfound
    ⟨t, ht⟩
  simp only [readDocument] at h
  split at h
  · next y hy =>
    cases h
    rcases Option.or_eq_some_iff.1 hy with hy | ⟨-, hy⟩
    · rcases Option.or_eq_some_iff.1 hy with hy | ⟨-, hy⟩
      · exact hbind hy
      · exact hbind hy
    · exact hbind hy
  · cases h

theorem compiled_of_parseValid {text : String} {c : Config} (h : parseValid text = .ok c) : c.Compiled := by
  obtain ⟨d, hparse, h⟩ := bind_eq_ok h
  obtain ⟨_, -, h⟩ := bind_eq_ok h
  obtain ⟨t, ht⟩ := exists_tree_of_readDocument hparse
  cases h
  exact compiled_of_read ht

theorem compiled_of_source {files : FileNode} {source : String} {c : Config} (h : ofSource files source = .ok c) :
    c.Compiled := by
  unfold ofSource at h
  split at h
  · split at h
    · exact compiled_of_parseValid (foundAt_eq_ok h)
    · cases h
  · exact compiled_of_parseValid h

/-- merging further sources keeps the patterns compiled -/
theorem compiled_of_loadFrom {files : FileNode} {sources : List String} {acc c : Config} {i : Nat} (hacc : acc.Compiled)
    (h : loadFrom files acc i sources = .ok c) : c.Compiled := by
  induction sources generalizing acc i with
  | nil =>
    cases h
    exact hacc
  | cons source sources ih =>
    obtain ⟨d, hsource, h⟩ := bind_eq_ok h
    exact ih (hacc.merge (compiled_of_source (foundAt_eq_ok hsource))) h

/-- **What is loaded has compiled patterns.** -/
theorem compiled_of_load {files : FileNode} {sources : List String} {c : Config} (h : load files sources = .ok c) :
    c.Compiled := by
  unfold load at h
  split at h
  · cases h
  · exact compiled_of_loadFrom compiled_empty h

/-- **What compiles means something.** -/
theorem validate_of_build {env : Environment} {c : Config} {p : Pipeline} (h : Pipeline.build env c = .ok p) :
    c.validate = .ok () := by
  have hbuilt : verdict (Pipeline.build env c) = .ok () := by rw [h]; rfl
  rw [Pipeline.build_eq, firstFault_ok_iff] at hbuilt
  rw [validate_eq, firstFault_ok_iff]
  exact fun x hx => (Entry.compile_ok_iff.1 (hbuilt x hx)).1

/-! ## Printed configurations -/

/-- whether YAML finds another configuration in the JSON text of this one -/
def Misread (c : Config) : Prop := ∃ d, (Yaml.parse (c.json ++ "\n")).toOption.bind ofTree? = some d ∧ d ≠ c

/-- **YAML** is read as the configuration that was printed. -/
theorem parse_yaml {c : Config} (h : c.Compiled) : parse c.yaml = .ok c := by
  obtain ⟨fields, htree, hne⟩ := c.exists_fields
  have hprinted : Yaml.parse c.yaml = .ok c.tree := by
    have hwritten := (c.within_tree 0).1
    rw [htree] at hwritten
    rw [yaml, htree]
    exact Yaml.parse_print hwritten hne
  simp [parse, readDocument, hprinted, ofTree?_tree h, Except.toOption]

/-- **JSON** is read as the configuration that was printed, unless YAML finds another one in it. -/
theorem parse_json {c : Config} (h : c.Compiled) : parse (c.json ++ "\n") = .ok c ↔ ¬ c.Misread := by
  obtain ⟨hwritten, hshallow⟩ := c.within_tree 120
  have hrecast : ofTree? c.tree.recast = some c := lasting_ofTree? c.tree hwritten c (ofTree?_tree h)
  have hjson : ((Json.parse (c.json ++ "\n")).toOption.map Tree.ofJson).bind ofTree? = some c := by
    rw [show Json.parse (c.json ++ "\n") = .ok c.tree.toJson from Json.parse_render hshallow]
    exact hrecast
  unfold Misread
  cases hyaml : (Yaml.parse (c.json ++ "\n")).toOption.bind ofTree? with
  | none => simp [parse, readDocument, hyaml, hjson]
  | some d => simp [parse, readDocument, hyaml]

/-- another configuration is found only if a text is folded -/
theorem Misread.exists_folded {c : Config} (h : c.Compiled) (hmisread : c.Misread) :
    ∃ s ∈ c.tree.texts, Yaml.isUnfolded s.toList = false := by
  by_contra hnone
  simp only [not_exists, not_and, Bool.not_eq_false] at hnone
  obtain ⟨d, hd, hne⟩ := hmisread
  obtain ⟨t, ht, hread⟩ := Option.bind_eq_some_iff.1 hd
  cases hparse : Yaml.parse (c.json ++ "\n") with
  | error e => simp [hparse, Except.toOption] at ht
  | ok t' =>
    obtain rfl := Yaml.parse_render ((c.within_tree 0).1.of_texts hnone) hparse
    simp only [hparse, Except.toOption, Option.some.injEq] at ht
    rw [← ht, ofTree?_tree h] at hread
    exact hne (Option.some.inj hread).symm

/-- a single source that is no file is loaded as what it says -/
theorem load_text {files : FileNode} {text : String} {c : Config} (hfile : files.isFile text = false)
    (hvalid : c.validate = .ok ()) : load files [text] = .ok c ↔ parse text = .ok c := by
  have hload : load files [text] = foundAt (indexed "config" 0) (parseValid text) := by
    cases hvalue : parseValid text with
    | error e => simp [load, loadFrom, ofSource, hfile, hvalue, foundAt, bind, Except.bind]
    | ok d => simp [load, loadFrom, ofSource, hfile, hvalue, foundAt, bind, Except.bind, merge_empty]
  rw [hload]
  constructor
  · intro h
    obtain ⟨d, hparse, h⟩ := bind_eq_ok (foundAt_eq_ok h)
    obtain ⟨_, -, h⟩ := bind_eq_ok h
    cases h
    exact hparse
  · intro hparse
    simp [parseValid, hparse, hvalid, foundAt, bind, Except.bind, pure, Except.pure]

end Config

/-! ## Checked configurations -/

namespace Command

theorem ok_of_toOption {ε α : Type} {r : Except ε α} {x : α} (h : r.toOption = some x) : r = .ok x := by
  cases r with
  | error e => cases h
  | ok y => exact congrArg Except.ok (Option.some.inj h)

theorem during_bind_ok {α β : Type} {text : String} {r : Except ConfigError α} {f : α → Except CommandFailure β} {y : β} :
    (during text r >>= f) = .ok y ↔ ∃ x, r = .ok x ∧ f x = .ok y := by
  cases r <;> simp [during, Except.mapError, bind, Except.bind]

/-- what is prepared was loaded and compiled -/
theorem prepare_ok_iff {w : World} {sources : List String} {c : Config} {p : Pipeline} :
    prepare w sources = .ok (c, p) ↔ Config.load w.files sources = .ok c ∧ Pipeline.build w.env c = .ok p := by
  simp only [prepare, during_bind_ok, pure, Except.pure, Except.ok.injEq, Prod.mk.injEq]
  constructor
  · rintro ⟨d, hload, q, hbuild, rfl, rfl⟩
    exact ⟨hload, hbuild⟩
  · rintro ⟨hload, hbuild⟩
    exact ⟨c, hload, p, hbuild, rfl, rfl⟩

/-- the text of a configuration -/
def textOf (json : Bool) (c : Config) : String := if json then c.json ++ "\n" else c.yaml

theorem checkConfig_ok_iff {w : World} {sources : List String} {json : Bool} {text : String} :
    checkConfig w sources json = .ok text ↔ ∃ c p, prepare w sources = .ok (c, p) ∧ textOf json c = text := by
  unfold checkConfig textOf
  rcases prepare w sources with e | ⟨c, p⟩ <;> simp [bind, Except.bind, pure, Except.pure]

/-- **What was printed is loaded again.** The text of checked configurations, which names no file, is loaded as their
merged configuration and then printed the same, unless it is JSON and YAML finds another configuration in it. It does so
only if it folds one of the texts. -/
theorem checkConfig_reloads {w : World} {sources : List String} {json : Bool} {text : String}
    (h : checkConfig w sources json = .ok text) (hfile : w.files.isFile text = false) :
    ∃ c, Config.load w.files sources = .ok c ∧
      (Config.load w.files [text] = .ok c ↔ ¬ (json = true ∧ c.Misread)) ∧
      (Config.load w.files [text] = .ok c → checkConfig w [text] json = .ok text) ∧
      (c.Misread → ∃ s ∈ c.tree.texts, Yaml.isUnfolded s.toList = false) := by
  obtain ⟨c, p, hprepare, rfl⟩ := checkConfig_ok_iff.1 h
  obtain ⟨hload, hbuild⟩ := prepare_ok_iff.1 hprepare
  have hcompiled := Config.compiled_of_load hload
  have hparse : Config.parse (textOf json c) = .ok c ↔ ¬ (json = true ∧ c.Misread) := by
    cases json with
    | false => exact iff_of_true (Config.parse_yaml hcompiled) (fun hjson => Bool.false_ne_true hjson.1)
    | true => simpa [textOf] using Config.parse_json hcompiled
  refine ⟨c, hload, (Config.load_text hfile (Config.validate_of_build hbuild)).trans hparse, fun hreload => ?_,
    Config.Misread.exists_folded hcompiled⟩
  exact checkConfig_ok_iff.2 ⟨c, p, prepare_ok_iff.2 ⟨hreload, hbuild⟩, rfl⟩

/-- two sources, in one of them a text with a separator, are printed as JSON and loaded again -/
theorem checkConfig_reloads_separator :
    let sources := ["\x7b\"category\":[\x7b\"name\":\"a\",\"filename\":[\x7b\"val\":[\"b\\Lc\"]\x7d]\x7d]\x7d",
      "\x7b\"node\":[\x7b\"category\":\"^(a)?\",\"matcher\":[\x7b\"sh\":\"cat\"\x7d]\x7d]\x7d"]
    let text := "\x7b\"category\":[\x7b\"name\":\"a\",\"filename\":[\x7b\"val\":[\"b\u2028c\"]\x7d]\x7d]," ++
      "\"node\":[\x7b\"category\":\"^(a)?\",\"matcher\":[\x7b\"sh\":\"cat\"\x7d]\x7d]\x7d\n"
    checkConfig {} sources true = .ok text ∧
      ∃ c, Config.load .emptyDir sources = .ok c ∧ Config.load .emptyDir [text] = .ok c := by
  intro sources text
  have h : checkConfig {} sources true = .ok text := ok_of_toOption (by decide +kernel)
  have hunfolded : (Config.load .emptyDir sources).toOption.all
      (fun c => c.tree.texts.all fun s => Yaml.isUnfolded s.toList) = true := by decide +kernel
  obtain ⟨c, hload, hreload, -, hfolded⟩ := checkConfig_reloads h (by decide +kernel)
  rw [show Config.load .emptyDir sources = .ok c from hload] at hunfolded
  refine ⟨h, c, hload, hreload.2 fun ⟨_, hmisread⟩ => ?_⟩
  obtain ⟨s, hs, hfold⟩ := hfolded hmisread
  exact Bool.false_ne_true (hfold.symm.trans (List.all_eq_true.1 hunfolded s hs))

/-- **JSON does not bring back a next line**, which YAML reads as a blank. -/
theorem checkConfig_folded :
    let printed := "\x7b\"category\":[\x7b\"filename\":[\x7b\"val\":[\"a\u0085b\"]\x7d]\x7d],\"node\":[]\x7d\n"
    let folded := "\x7b\"category\":[\x7b\"filename\":[\x7b\"val\":[\"a b\"]\x7d]\x7d],\"node\":[]\x7d\n"
    checkConfig {} ["\x7b\"category\":[\x7b\"filename\":[\x7b\"val\":[\"a\\Nb\"]\x7d]\x7d]\x7d"] true = .ok printed ∧
      checkConfig {} [printed] true = .ok folded ∧ folded ≠ printed := by
  intro printed folded
  exact ⟨ok_of_toOption (by decide +kernel), ok_of_toOption (by decide +kernel), by decide⟩

end Command

end Gleaner
