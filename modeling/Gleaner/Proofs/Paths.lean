/-
Paths of entries.

The path of an entry is that of its directory with the entry's name behind it. Names are not empty, hold no slash and
do not stand for a directory themselves, and the names of one directory differ (`FileNode.WellFormed`). So a path that
leads to or below one entry of a directory never leads to or below another (`eq_of_atOrBelow`), and the entries below
one directory can be told from their paths.
-/
import Gleaner.Walk
import Mathlib.Tactic

namespace Gleaner

/-! ## Names and trees -/

/-- the name of an entry of a directory -/
structure IsName (name : String) : Prop where
  ne_empty : name ≠ ""
  ne_here : name ≠ "."
  ne_above : name ≠ ".."
  no_slash : '/' ∉ name.toList

instance (name : String) : Decidable (IsName name) :=
  decidable_of_iff (name ≠ "" ∧ name ≠ "." ∧ name ≠ ".." ∧ '/' ∉ name.toList)
    ⟨fun ⟨h₁, h₂, h₃, h₄⟩ => ⟨h₁, h₂, h₃, h₄⟩, fun h => ⟨h.ne_empty, h.ne_here, h.ne_above, h.no_slash⟩⟩

theorem IsName.toList_ne_nil {name : String} (h : IsName name) : name.toList ≠ [] := fun he =>
  h.ne_empty (String.toList_inj.1 (by simpa using he))

mutual
/-- every directory has entries with different names -/
def FileNode.WellFormed : FileNode → Prop
  | .dir entries => (entries.map Prod.fst).Nodup ∧ WellFormedEntries entries
  | _ => True

def WellFormedEntries : List (String × FileNode) → Prop
  | [] => True
  | (name, n) :: rest => IsName name ∧ n.WellFormed ∧ WellFormedEntries rest
end

theorem WellFormedEntries.mem {entries : List (String × FileNode)} (h : WellFormedEntries entries)
    {name : String} {n : FileNode} (hm : (name, n) ∈ entries) : IsName name ∧ n.WellFormed := by
  induction entries with
  | nil => cases hm
  | cons e rest ih =>
    obtain ⟨hname, hn, hrest⟩ := h
    rcases List.mem_cons.1 hm with rfl | hm
    · exact ⟨hname, hn⟩
    · exact ih hrest hm

theorem wellFormedEntries_of_mem {entries : List (String × FileNode)}
    (h : ∀ name n, (name, n) ∈ entries → IsName name ∧ n.WellFormed) : WellFormedEntries entries := by
  induction entries with
  | nil => trivial
  | cons e rest ih =>
    obtain ⟨hname, hn⟩ := h e.1 e.2 List.mem_cons_self
    exact ⟨hname, hn, ih fun name n hm => h name n (List.mem_cons_of_mem _ hm)⟩

namespace FileNode

theorem WellFormed.child {entries : List (String × FileNode)} (h : (FileNode.dir entries).WellFormed) {name : String}
    {n : FileNode} (hm : (name, n) ∈ entries) : n.WellFormed := (h.2.mem hm).2

theorem mem_of_child? {entries : List (String × FileNode)} {name : String} {n : FileNode}
    (h : (FileNode.dir entries).child? name = some n) : (name, n) ∈ entries := by
  obtain ⟨⟨key, m⟩, hfind, rfl⟩ := Option.map_eq_some_iff.1 h
  have hkey : key = name := by simpa using List.find?_some hfind
  exact hkey ▸ List.mem_of_find?_eq_some hfind

/-- a directory whose names differ has just the entries that are found in it -/
theorem child?_of_mem {entries : List (String × FileNode)} (hd : (entries.map Prod.fst).Nodup) {name : String}
    {n : FileNode} (hm : (name, n) ∈ entries) : (FileNode.dir entries).child? name = some n := by
  induction entries with
  | nil => cases hm
  | cons e rest ih =>
    obtain ⟨hnot, hd⟩ := List.nodup_cons.1 hd
    rcases List.mem_cons.1 hm with rfl | hm
    · simp [child?]
    · have hne : e.1 ≠ name := fun h => hnot (h ▸ List.mem_map.2 ⟨_, hm, rfl⟩)
      simpa [child?, List.find?_cons, hne] using ih hd hm

/-- what is found in a well-formed tree is well-formed -/
theorem WellFormed.at? {address : List String} {n m : FileNode} (h : n.WellFormed) (hm : n.at? address = some m) :
    m.WellFormed := by
  induction address generalizing n with
  | nil => cases hm; exact h
  | cons name rest ih =>
    obtain ⟨c, hc, hrest⟩ := Option.bind_eq_some_iff.1 hm
    cases n with
    | dir entries => exact ih (h.child (mem_of_child? hc)) hrest
    | _ => cases hc

theorem WellFormed.isName_of_at? {address : List String} {n m : FileNode} (h : n.WellFormed)
    (hm : n.at? address = some m) : ∀ name ∈ address, IsName name := by
  induction address generalizing n with
  | nil => exact fun _ hname => absurd hname List.not_mem_nil
  | cons first rest ih =>
    obtain ⟨c, hc, hrest⟩ := Option.bind_eq_some_iff.1 hm
    cases n with
    | dir entries =>
      intro name hname
      rcases List.mem_cons.1 hname with rfl | hname
      · exact (h.2.mem (mem_of_child? hc)).1
      · exact ih (h.child (mem_of_child? hc)) hrest name hname
    | _ => cases hc

theorem lookup_eq_ok {root n : FileNode} {path : String} :
    root.lookup path = .ok n ↔ ∃ place, root.resolve true path = .ok place ∧ root.at? place = some n := by
  simp only [FileNode.lookup, bind, Except.bind, pure, Except.pure]
  cases root.resolve true path with
  | error e => simp
  | ok place => cases h : root.at? place <;> simp [h, throw, throwThe, MonadExceptOf.throw]

theorem lookupEntry_eq_ok {root n : FileNode} {path : String} :
    root.lookupEntry path = .ok n ↔ ∃ place, root.resolve false path = .ok place ∧ root.at? place = some n := by
  simp only [FileNode.lookupEntry, bind, Except.bind, pure, Except.pure]
  cases root.resolve false path with
  | error e => simp
  | ok place => cases h : root.at? place <;> simp [h, throw, throwThe, MonadExceptOf.throw]

theorem WellFormed.lookup {root n : FileNode} {path : String} (h : root.WellFormed) (hn : root.lookup path = .ok n) :
    n.WellFormed := by
  obtain ⟨place, -, hplace⟩ := lookup_eq_ok.1 hn
  exact h.at? hplace

theorem WellFormed.lookupEntry {root n : FileNode} {path : String} (h : root.WellFormed)
    (hn : root.lookupEntry path = .ok n) : n.WellFormed := by
  obtain ⟨place, -, hplace⟩ := lookupEntry_eq_ok.1 hn
  exact h.at? hplace

end FileNode

/-! ## Paths below a directory -/

/-- the path of the entry that some names lead to from another -/
def entryPath (root : String) (address : List String) : String := address.foldl joinPath root

/-- a path that is another one or leads on from it -/
def AtOrBelow (path other : String) : Prop := other = path ∨ ∃ rest, other = joinPath path rest

/-- the characters of a path up to the names of its entries -/
def slashed (dir : String) : List Char := if dir.endsWith '/' then dir.toList else dir.toList ++ ['/']

theorem toList_joinPath (dir name : String) : (joinPath dir name).toList = slashed dir ++ name.toList := by
  unfold joinPath slashed
  split <;> simp

theorem length_slashed (dir : String) : dir.toList.length ≤ (slashed dir).length := by
  unfold slashed
  split <;> simp

/-- the path of an entry does not end with a slash -/
theorem endsWith_joinPath (dir : String) {name : String} (h : IsName name) :
    (joinPath dir name).endsWith '/' = false := by
  rw [String.endsWith_char_eq_getLast?, toList_joinPath, List.getLast?_append_of_ne_nil _ h.toList_ne_nil,
    beq_eq_false_iff_ne]
  exact fun hlast => h.no_slash (List.mem_of_getLast? hlast)

theorem slashed_joinPath (dir : String) {name : String} (h : IsName name) :
    slashed (joinPath dir name) = slashed dir ++ name.toList ++ ['/'] := by
  rw [slashed, endsWith_joinPath dir h, toList_joinPath]
  rfl

theorem atOrBelow_joinPath_iff {dir name : String} (h : IsName name) (other : String) :
    AtOrBelow (joinPath dir name) other ↔
      ∃ rest, other.toList = slashed dir ++ name.toList ++ rest ∧ (rest = [] ∨ rest.head? = some '/') := by
  constructor
  · rintro (rfl | ⟨rest, rfl⟩)
    · exact ⟨[], by rw [toList_joinPath, List.append_nil], .inl rfl⟩
    · exact ⟨'/' :: rest.toList, by rw [toList_joinPath, slashed_joinPath dir h]; simp, .inr rfl⟩
  · rintro ⟨rest, hother, rfl | hrest⟩
    · exact .inl (String.toList_inj.1 (by rw [hother, toList_joinPath, List.append_nil]))
    · obtain ⟨more, rfl⟩ := List.head?_eq_some_iff.1 hrest
      refine .inr ⟨String.ofList more, String.toList_inj.1 ?_⟩
      rw [hother, toList_joinPath, slashed_joinPath dir h]
      simp

theorem AtOrBelow.refl (path : String) : AtOrBelow path path := .inl rfl

theorem AtOrBelow.length_le {path other : String} (h : AtOrBelow path other) :
    path.toList.length ≤ other.toList.length := by
  rcases h with rfl | ⟨rest, rfl⟩
  · exact le_rfl
  · rw [toList_joinPath, List.length_append]
    have := length_slashed path
    omega

/-- what leads to or below an entry leads below its directory -/
theorem AtOrBelow.of_entry {dir name other : String} (hn : IsName name) (h : AtOrBelow (joinPath dir name) other) :
    AtOrBelow dir other := by
  obtain ⟨rest, hother, -⟩ := (atOrBelow_joinPath_iff hn other).1 h
  refine .inr ⟨String.ofList (name.toList ++ rest), String.toList_inj.1 ?_⟩
  rw [hother, toList_joinPath]
  simp

theorem length_lt_joinPath (dir : String) {name : String} (h : IsName name) :
    dir.toList.length < (joinPath dir name).toList.length := by
  have hpos : 0 < name.toList.length := List.length_pos_iff.2 h.toList_ne_nil
  have := length_slashed dir
  rw [toList_joinPath, List.length_append]
  omega

/-- a name in front of a slash or the end can be read off -/
theorem takeWhile_name {name rest : List Char} (h : '/' ∉ name) (hrest : rest = [] ∨ rest.head? = some '/') :
    (name ++ rest).takeWhile (· ≠ '/') = name := by
  induction name with
  | nil =>
    rcases hrest with rfl | hrest
    · rfl
    · obtain ⟨more, rfl⟩ := List.head?_eq_some_iff.1 hrest
      rfl
  | cons c cs ih =>
    obtain ⟨hc, hcs⟩ := not_or.1 (fun hm => h (List.mem_cons.2 hm))
    rw [List.cons_append, List.takeWhile_cons, if_pos (by simpa using Ne.symm hc), ih hcs]

/-- **Entries of one directory lie apart**: a path leads to or below one of them at most. -/
theorem eq_of_atOrBelow {dir x y other : String} (hx : IsName x) (hy : IsName y)
    (hox : AtOrBelow (joinPath dir x) other) (hoy : AtOrBelow (joinPath dir y) other) : x = y := by
  obtain ⟨restx, ex, hrx⟩ := (atOrBelow_joinPath_iff hx other).1 hox
  obtain ⟨resty, ey, hry⟩ := (atOrBelow_joinPath_iff hy other).1 hoy
  have heq : x.toList ++ restx = y.toList ++ resty := by
    rw [ex, List.append_assoc, List.append_assoc] at ey
    exact List.append_cancel_left ey
  apply String.toList_inj.1
  rw [← takeWhile_name hx.no_slash hrx, heq, takeWhile_name hy.no_slash hry]

end Gleaner
