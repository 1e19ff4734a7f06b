/-
Trees of configurations that go through JSON.

A list that comes back from JSON may be read as a record too, its items being the values of the fields in their order;
a list that was written may not. This matters only where the list was refused. So whatever is read of a tree is read of
what comes back as well (`Tree.Lasting`), though not the other way round.

The tree of a configuration has texts, lists and tables only, has words as keys, and is at most seven lists and tables
deep (`Tree.Within`).

Results:
- `Config.lasting_ofTree?`: what comes back from JSON is read as the configuration it was;
- `Config.within_tree`: the tree of a configuration.
-/
import Gleaner.Proofs.Documents
import Gleaner.Proofs.JsonTexts
import Gleaner.Proofs.Nodes

namespace Gleaner

/-! ## Trees that come back from JSON -/

namespace Tree

/-- a tree that went through JSON -/
def recast (t : Tree) : Tree := ofJson t.toJson

theorem recast_list (use : ListUse) (items : List Tree) : recast (.list use items) = .list .record (items.map recast) := by
  have hitems : ofJsonItems (toJsonItems items) = items.map recast := by
    induction items with
    | nil => rfl
    | cons t items ih => rw [toJsonItems, ofJsonItems, ih, List.map_cons, recast]
  rw [recast, toJson, ofJson, hitems]

theorem recast_table (fields : List (String × Tree)) :
    recast (.table fields) = .table (fields.map fun f => (f.1, f.2.recast)) := by
  have hfields : ofJsonFields (toJsonFields fields) = fields.map fun f => (f.1, f.2.recast) := by
    induction fields with
    | nil => rfl
    | cons f fields ih => rw [toJsonFields, ofJsonFields, ih, List.map_cons, recast]
  rw [recast, toJson, ofJson, hfields]

/-- what one reading gives the other gives as well -/
def Keeps {α : Type} (a b : Option α) : Prop := ∀ x, a = some x → b = some x

theorem Keeps.refl {α : Type} (a : Option α) : Keeps a a := fun _ h => h

theorem Keeps.none {α : Type} {b : Option α} : Keeps none b := fun _ h => by cases h

theorem Keeps.bind {α β : Type} {a b : Option α} {f g : α → Option β} (h : Keeps a b) (hf : ∀ x, Keeps (f x) (g x)) :
    Keeps (a >>= f) (b >>= g) := by
  intro y hy
  obtain ⟨x, hx, hfx⟩ := Option.bind_eq_some_iff.1 hy
  exact Option.bind_eq_some_iff.2 ⟨x, h x hx, hf x y hfx⟩

theorem Keeps.map {α β : Type} {a b : Option α} (f : α → β) (h : Keeps a b) : Keeps (a.map f) (b.map f) := by
  intro y hy
  obtain ⟨x, hx, rfl⟩ := Option.map_eq_some_iff.1 hy
  rw [h x hx, Option.map_some]

variable {P : String → Prop} {α : Type} {read : Tree → Option α}

/-- whether a reader reads what comes back from JSON as what it was -/
def Lasting (P : String → Prop) (read : Tree → Option α) : Prop := ∀ t, t.Written P → Keeps (read t) (read t.recast)

theorem lasting_asText? : Lasting P asText? := by
  intro t ht
  cases ht with
  | text => exact .refl _
  | list => exact nofun
  | table => exact nofun

theorem Lasting.asOptional? (h : Lasting P read) : Lasting P (asOptional? read) := by
  intro t ht
  have hkeeps := (h t ht).map some
  cases ht with
  | text => exact hkeeps
  | list => rw [recast_list] at hkeeps ⊢; exact hkeeps
  | table => rw [recast_table] at hkeeps ⊢; exact hkeeps

theorem Lasting.asList? (h : Lasting P read) : Lasting P (asList? read) := by
  intro t ht
  cases ht with
  | text => exact nofun
  | table => exact nofun
  | @list items hitems =>
    rw [recast_list]
    change Keeps (items.mapM read) ((items.map recast).mapM read)
    induction items with
    | nil => exact .refl _
    | cons t items ih =>
      obtain ⟨ht, hitems⟩ := List.forall_mem_cons.1 hitems
      rw [List.map_cons, List.mapM_cons, List.mapM_cons]
      exact (h t ht).bind fun x => (ih hitems).bind fun xs => .refl _

/-- the value of a field, if its reader is lasting -/
theorem Lasting.fieldOr (h : Lasting P read) (default : α) {field : Option Tree} (hfield : ∀ t ∈ field, t.Written P) :
    Keeps (fieldOr default read field) (fieldOr default read (field.map recast)) := by
  cases field with
  | none => exact .refl _
  | some t => exact h t (hfield t rfl)

/-- the fields of what comes back, and what is made of them -/
theorem Written.keeps_record? {t : Tree} (h : t.Written P) (names : List String) {β : Type}
    {f : List (Option Tree) → Option β}
    (hf : ∀ values, (∀ value ∈ values, ∀ t ∈ value, t.Written P) → Keeps (f values) (f (values.map (·.map recast)))) :
    Keeps (t.record? names >>= f) (t.recast.record? names >>= f) := by
  cases h with
  | text => exact .none
  | list => exact .none
  | @table fields hkeys hfields =>
    have hkeep : (fields.map fun f => (f.1, f.2.recast)).map (·.1) = fields.map (·.1) := by simp
    have hfind : ∀ name, ((fields.map fun f => (f.1, f.2.recast)).find? (·.1 == name)).map (·.2) =
        ((fields.find? (·.1 == name)).map (·.2)).map recast := by
      intro name
      simp [List.find?_map, Function.comp_def]
    rw [recast_table]
    simp only [record?, hkeep, hfind]
    split
    · have hvalues := hf (names.map fun name => (fields.find? (·.1 == name)).map (·.2)) (by
        intro value hvalue t ht
        obtain ⟨name, -, rfl⟩ := List.mem_map.1 hvalue
        obtain ⟨f, hfound, rfl⟩ := Option.map_eq_some_iff.1 ht
        exact hfields f (List.mem_of_find?_eq_some hfound))
      rw [List.map_map] at hvalues
      exact hvalues
    · exact .none

end Tree

open Gleaner.Tree

section

variable {P : String → Prop}

theorem lasting_readPattern : Lasting P readPattern := fun t ht => (lasting_asText? t ht).bind fun _ => .refl _

theorem LuaSpec.lasting_ofTree? : Lasting P LuaSpec.ofTree? := by
  intro t ht
  refine ht.keeps_record? _ fun values hvalues => ?_
  split
  · next source file entry =>
    simp only [List.mem_cons, List.not_mem_nil, or_false, forall_eq_or_imp, forall_eq] at hvalues
    obtain ⟨hsource, hfile, hentry⟩ := hvalues
    refine (lasting_asText?.asOptional?.fieldOr _ hsource).bind fun _ => ?_
    refine (lasting_asText?.asOptional?.fieldOr _ hfile).bind fun _ => ?_
    exact (lasting_asText?.fieldOr _ hentry).bind fun _ => .refl _
  · exact nofun

theorem StageSpec.lasting_ofTree? : Lasting P StageSpec.ofTree? := by
  intro t ht
  refine ht.keeps_record? _ fun values hvalues => ?_
  split
  · next regex negated shell glob lua template texts =>
    simp only [List.mem_cons, List.not_mem_nil, or_false, forall_eq_or_imp, forall_eq] at hvalues
    obtain ⟨hregex, hnegated, hshell, hglob, hlua, htemplate, htexts⟩ := hvalues
    refine (lasting_readPattern.asOptional?.fieldOr _ hregex).bind fun _ => ?_
    refine (lasting_readPattern.asOptional?.fieldOr _ hnegated).bind fun _ => ?_
    refine (lasting_asText?.asOptional?.fieldOr _ hshell).bind fun _ => ?_
    refine (lasting_asText?.asOptional?.fieldOr _ hglob).bind fun _ => ?_
    refine (LuaSpec.lasting_ofTree?.asOptional?.fieldOr _ hlua).bind fun _ => ?_
    refine (lasting_asText?.asOptional?.fieldOr _ htemplate).bind fun _ => ?_
    exact (lasting_asText?.asList?.fieldOr _ htexts).bind fun _ => .refl _
  · exact nofun

theorem keeps_stagesOf {field : Option Tree} (h : ∀ t ∈ field, t.Written P) :
    Keeps (stagesOf field) (stagesOf (field.map recast)) := StageSpec.lasting_ofTree?.asList?.fieldOr [] h

theorem CategoryRule.lasting_ofTree? : Lasting P CategoryRule.ofTree? := by
  intro t ht
  refine ht.keeps_record? _ fun values hvalues => ?_
  split
  · next name filename text =>
    simp only [List.mem_cons, List.not_mem_nil, or_false, forall_eq_or_imp, forall_eq] at hvalues
    obtain ⟨hname, hfilename, htext⟩ := hvalues
    refine (lasting_asText?.fieldOr _ hname).bind fun _ => ?_
    refine (keeps_stagesOf hfilename).bind fun _ => ?_
    exact (keeps_stagesOf htext).bind fun _ => .refl _
  · exact nofun

theorem NodeRule.lasting_ofTree? : Lasting P NodeRule.ofTree? := by
  intro t ht
  refine ht.keeps_record? _ fun values hvalues => ?_
  split
  · next name category matcher =>
    simp only [List.mem_cons, List.not_mem_nil, or_false, forall_eq_or_imp, forall_eq] at hvalues
    obtain ⟨hname, hcategory, hmatcher⟩ := hvalues
    have hpattern : Keeps (category >>= readPattern) (category.map recast >>= readPattern) := by
      cases category with
      | none => exact nofun
      | some t => exact lasting_readPattern t (hcategory t rfl)
    refine (lasting_asText?.fieldOr _ hname).bind fun _ => ?_
    refine hpattern.bind fun _ => ?_
    exact (keeps_stagesOf hmatcher).bind fun _ => .refl _
  · exact nofun

theorem NormalizerRule.lasting_ofTree? : Lasting P NormalizerRule.ofTree? := by
  intro t ht
  refine ht.keeps_record? _ fun values hvalues => ?_
  split
  · next name matcher =>
    simp only [List.mem_cons, List.not_mem_nil, or_false, forall_eq_or_imp, forall_eq] at hvalues
    obtain ⟨hname, hmatcher⟩ := hvalues
    refine (lasting_asText?.fieldOr _ hname).bind fun _ => ?_
    exact (keeps_stagesOf hmatcher).bind fun _ => .refl _
  · exact nofun

theorem Normalizers.lasting_ofTree? : Lasting P Normalizers.ofTree? := by
  intro t ht
  refine ht.keeps_record? _ fun values hvalues => ?_
  split
  · next category node =>
    simp only [List.mem_cons, List.not_mem_nil, or_false, forall_eq_or_imp, forall_eq] at hvalues
    obtain ⟨hcategory, hnode⟩ := hvalues
    refine (NormalizerRule.lasting_ofTree?.asList?.fieldOr _ hcategory).bind fun _ => ?_
    exact (NormalizerRule.lasting_ofTree?.asList?.fieldOr _ hnode).bind fun _ => .refl _
  · exact nofun

/-- **What comes back from JSON is read as it was.** -/
theorem Config.lasting_ofTree? : Lasting P Config.ofTree? := by
  intro t ht
  refine ht.keeps_record? _ fun values hvalues => ?_
  split
  · next ignore category node normalizer =>
    simp only [List.mem_cons, List.not_mem_nil, or_false, forall_eq_or_imp, forall_eq] at hvalues
    obtain ⟨hignore, hcategory, hnode, hnormalizer⟩ := hvalues
    refine (keeps_stagesOf hignore).bind fun _ => ?_
    refine (CategoryRule.lasting_ofTree?.asList?.fieldOr _ hcategory).bind fun _ => ?_
    refine (NodeRule.lasting_ofTree?.asList?.fieldOr _ hnode).bind fun _ => ?_
    exact (Normalizers.lasting_ofTree?.fieldOr _ hnormalizer).bind fun _ => .refl _
  · exact nofun

end

/-! ## The trees of configurations -/

namespace Tree

/-- trees with a number of lists and tables around one another at most, whatever their texts -/
def Within (n : Nat) (t : Tree) : Prop := t.Written (fun _ => True) ∧ t.Shallow n

theorem within_text (n : Nat) (s : String) : (text s).Within n := ⟨.text trivial, .text⟩

theorem within_items {α : Type} {n : Nat} {write : α → Tree} (h : ∀ x, (write x).Within n) (xs : List α) :
    (list .items (xs.map write)).Within (n + 1) :=
  ⟨.list (List.forall_mem_map.2 fun x _ => (h x).1), .list (List.forall_mem_map.2 fun x _ => (h x).2)⟩

theorem mem_present {names : List String} {values : List (Option Tree)} {f : String × Tree}
    (h : f ∈ present names values) : f.1 ∈ names ∧ some f.2 ∈ values := by
  obtain ⟨⟨name, value⟩, hmem, hvalue⟩ := List.mem_filterMap.1 h
  obtain ⟨t, rfl, rfl⟩ := Option.map_eq_some_iff.1 hvalue
  exact ⟨(List.of_mem_zip hmem).1, (List.of_mem_zip hmem).2⟩

theorem within_table {n : Nat} {names : List String} {values : List (Option Tree)}
    (hnames : ∀ name ∈ names, Yaml.isWord name = true) (h : ∀ value ∈ values, ∀ t ∈ value, t.Within n) :
    (table (present names values)).Within (n + 1) := by
  have hfields : ∀ f ∈ present names values, f.2.Within n := fun f hf => h _ (mem_present hf).2 f.2 rfl
  exact ⟨.table (fun f hf => hnames _ (mem_present hf).1) fun f hf => (hfields f hf).1, .table fun f hf => (hfields f hf).2⟩

/-! ### Fields -/

theorem within_ofText? {n : Nat} {s : String} : ∀ t ∈ ofText? s, t.Within n := by
  unfold ofText?
  split
  · exact nofun
  · rintro t ⟨⟩
    exact within_text n s

theorem within_ofList? {α : Type} {n : Nat} {write : α → Tree} (h : ∀ x, (write x).Within n) {xs : List α} :
    ∀ t ∈ ofList? write xs, t.Within (n + 1) := by
  unfold ofList?
  split
  · exact nofun
  · rintro t ⟨⟩
    exact within_items h xs

theorem within_some {n : Nat} {t : Tree} (h : t.Within n) : ∀ u ∈ some t, u.Within n := by
  rintro u ⟨⟩
  exact h

theorem within_map {α : Type} {n : Nat} {write : α → Tree} (h : ∀ x, (write x).Within n) {value : Option α} :
    ∀ t ∈ value.map write, t.Within n := by
  intro t ht
  obtain ⟨x, -, rfl⟩ := Option.map_eq_some_iff.1 ht
  exact h x

end Tree

theorem LuaSpec.within_tree (n : Nat) (l : LuaSpec) : l.tree.Within (n + 1) := by
  rw [tree_eq]
  refine within_table (by decide) ?_
  simp only [List.forall_mem_cons]
  exact ⟨within_map (within_text n), within_map (within_text n), within_some (within_text n _), nofun⟩

theorem StageSpec.within_tree (n : Nat) (s : StageSpec) : s.tree.Within (n + 2) := by
  rw [tree_eq]
  refine within_table (by decide) ?_
  simp only [List.forall_mem_cons]
  exact ⟨within_map (within_text _), within_map (within_text _), within_map (within_text _), within_map (within_text _),
    within_map (LuaSpec.within_tree n), within_map (within_text _), within_ofList? (within_text n), nofun⟩

theorem CategoryRule.within_tree (n : Nat) (r : CategoryRule) : r.tree.Within (n + 4) := by
  have hstages := StageSpec.within_tree n
  rw [tree_eq]
  refine within_table (by decide) ?_
  simp only [List.forall_mem_cons]
  exact ⟨within_ofText?, within_ofList? hstages, within_ofList? hstages, nofun⟩

theorem NodeRule.within_tree (n : Nat) (r : NodeRule) : r.tree.Within (n + 4) := by
  rw [tree_eq]
  refine within_table (by decide) ?_
  simp only [List.forall_mem_cons]
  exact ⟨within_ofText?, within_some (within_text _ _), within_some (within_items (StageSpec.within_tree n) _), nofun⟩

theorem NormalizerRule.within_tree (n : Nat) (r : NormalizerRule) : r.tree.Within (n + 4) := by
  rw [tree_eq]
  refine within_table (by decide) ?_
  simp only [List.forall_mem_cons]
  exact ⟨within_ofText?, within_some (within_items (StageSpec.within_tree n) _), nofun⟩

theorem Normalizers.within_tree (n : Nat) (r : Normalizers) : r.tree.Within (n + 6) := by
  have hrules := NormalizerRule.within_tree n
  rw [tree_eq]
  refine within_table (by decide) ?_
  simp only [List.forall_mem_cons]
  exact ⟨within_ofList? hrules, within_ofList? hrules, nofun⟩

/-- **The tree of a configuration** has words as keys, and few lists and tables around one another. -/
theorem Config.within_tree (n : Nat) (c : Config) : c.tree.Within (n + 7) := by
  have hnormalizer : ∀ t ∈ (if c.normalizer.isEmpty then none else some c.normalizer.tree), t.Within (n + 6) := by
    split
    · exact nofun
    · exact within_some (Normalizers.within_tree n c.normalizer)
  rw [tree_eq]
  refine within_table (by decide) ?_
  simp only [List.forall_mem_cons]
  exact ⟨within_ofList? (StageSpec.within_tree (n + 3)), within_some (within_items (CategoryRule.within_tree (n + 1)) _),
    within_some (within_items (NodeRule.within_tree (n + 1)) _), hnormalizer, nofun⟩

/-- the tree of a configuration is a table with fields -/
theorem Config.exists_fields (c : Config) : ∃ fields, c.tree = .table fields ∧ fields ≠ [] := by
  refine ⟨_, rfl, fun h => ?_⟩
  simp at h

end Gleaner
