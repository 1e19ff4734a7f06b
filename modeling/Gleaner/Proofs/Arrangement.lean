/-
The order of entries.

A walk arranges the entries of every directory by their names. Names are compared as texts, which is the order of their
bytes (`lt_iff_encode_lt`). A tree and its arrangement hold the same nodes at the same places, and the entries of an
arranged directory rise.

Results:
- `lt_iff_encode_lt`: texts are in the order of their bytes;
- `arrangedEntries_sorted`: arranged entries rise;
- `WellFormed.arranged`, `at?_arranged`: arrangement keeps names apart and moves no node to another place.
-/
import Gleaner.Proofs.Paths
import Mathlib.Data.String.Basic

namespace Gleaner

/-! ## The order of bytes -/

namespace Utf8

theorem toNat_lt (c : Char) : c.toNat < 0x110000 := by
  rcases c.valid with h | h
  · have : c.toNat < 0xD800 := h
    omega
  · exact h.2

/-- the digits of a smaller number, the last of them split off -/
theorem digit_lt {n m : Nat} (h : n < m) : n / 64 < m / 64 ∨ n / 64 = m / 64 ∧ n % 64 < m % 64 := by omega

theorem continuation_mod (n : Nat) : (0x80 + n % 64) % 2 ^ 8 = 0x80 + n % 64 := by omega

/-- a smaller character has smaller bytes, whatever comes behind them -/
theorem encodeChar_append_lt {c d : Char} (h : c.toNat < d.toNat) (x y : Bytes) :
    encodeChar c ++ x < encodeChar d ++ y := by
  have hd := toNat_lt d
  unfold encodeChar
  dsimp only
  generalize c.toNat = n at *
  generalize d.toNat = m at *
  have h₁ := digit_lt h
  have h₂ := fun h => digit_lt (n := n / 64) (m := m / 64) h
  have h₃ := fun h => digit_lt (n := n / 64 / 64) (m := m / 64 / 64) h
  simp only [Nat.div_div_eq_div_mul, Nat.reduceMul] at h₁ h₂ h₃
  have hn : (0xF0 + n / 262144) % 2 ^ 8 = 0xF0 + n / 262144 := by omega
  have hm : (0xF0 + m / 262144) % 2 ^ 8 = 0xF0 + m / 262144 := by omega
  -- the lengths of both encodings are fixed by the ranges of `n` and `m`
  split_ifs <;>
    simp only [List.cons_append, List.nil_append, List.cons_lt_cons_iff, UInt8.lt_iff_toNat_lt, ← UInt8.toNat_inj,
      Nat.toUInt8_eq, UInt8.toNat_ofNat', continuation_mod, hn, hm] <;>
    omega

theorem encodeChar_ne_nil (c : Char) : encodeChar c ≠ [] := by
  unfold encodeChar
  dsimp only
  split_ifs <;> exact List.cons_ne_nil _ _

theorem flatMap_encodeChar_lt {a b : List Char} (h : a < b) : a.flatMap encodeChar < b.flatMap encodeChar := by
  induction h with
  | @nil d ds =>
    obtain ⟨first, rest, hd⟩ := List.exists_cons_of_ne_nil (encodeChar_ne_nil d)
    rw [List.flatMap_nil, List.flatMap_cons, hd]
    exact List.nil_lt_cons _ _
  | rel hcd => exact encodeChar_append_lt hcd _ _
  | cons _ ih => exact List.append_left_lt ih

end Utf8

/-- **Texts are in the order of their bytes.** -/
theorem lt_iff_encode_lt (a b : String) : a < b ↔ Utf8.encode a < Utf8.encode b := by
  constructor
  · intro h
    exact Utf8.flatMap_encodeChar_lt (String.lt_iff.1 h)
  · intro h
    rcases lt_trichotomy a b with hab | rfl | hba
    · exact hab
    · exact absurd h (List.lt_irrefl _)
    · exact absurd h (List.lt_asymm (Utf8.flatMap_encodeChar_lt (String.lt_iff.1 hba)))

/-! ## Arranged entries -/

theorem insertByName_perm (entry : String × FileNode) (entries : List (String × FileNode)) :
    (insertByName entry entries).Perm (entry :: entries) := by
  induction entries with
  | nil => exact List.Perm.refl _
  | cons other rest ih =>
    simp only [insertByName]
    split
    · exact (ih.cons other).trans (List.Perm.swap _ _ _)
    · exact List.Perm.refl _

theorem insertByName_sorted {entry : String × FileNode} {entries : List (String × FileNode)}
    (h : entries.Pairwise fun a b => a.1 < b.1) (hnot : entry.1 ∉ entries.map Prod.fst) :
    (insertByName entry entries).Pairwise fun a b => a.1 < b.1 := by
  induction entries with
  | nil => exact List.pairwise_singleton _ _
  | cons other rest ih =>
    obtain ⟨hother, hrest⟩ := List.pairwise_cons.1 h
    simp only [List.map_cons, List.mem_cons, not_or] at hnot
    simp only [insertByName]
    split
    · rename_i hlt
      refine List.pairwise_cons.2 ⟨fun e he => ?_, ih hrest hnot.2⟩
      rcases List.mem_cons.1 ((insertByName_perm entry rest).mem_iff.1 he) with rfl | he
      · exact hlt
      · exact hother e he
    · rename_i hle
      have hlt : entry.1 < other.1 := lt_of_le_of_ne (not_lt.1 hle) hnot.1
      refine List.pairwise_cons.2 ⟨fun e he => ?_, h⟩
      rcases List.mem_cons.1 he with rfl | he
      · exact hlt
      · exact hlt.trans (hother e he)

theorem arrangedEntries_perm (entries : List (String × FileNode)) :
    (arrangedEntries entries).Perm (entries.map fun e => (e.1, e.2.arranged)) := by
  induction entries with
  | nil => exact List.Perm.refl _
  | cons e rest ih => exact (insertByName_perm _ _).trans (ih.cons _)

theorem arrangedEntries_names (entries : List (String × FileNode)) :
    ((arrangedEntries entries).map Prod.fst).Perm (entries.map Prod.fst) := by
  have h := (arrangedEntries_perm entries).map Prod.fst
  rwa [List.map_map] at h

theorem mem_arrangedEntries {entries : List (String × FileNode)} {name : String} {n : FileNode} :
    (name, n) ∈ arrangedEntries entries ↔ ∃ m, (name, m) ∈ entries ∧ n = m.arranged := by
  rw [(arrangedEntries_perm entries).mem_iff, List.mem_map]
  constructor
  · rintro ⟨⟨key, m⟩, hm, heq⟩
    cases heq
    exact ⟨m, hm, rfl⟩
  · rintro ⟨m, hm, rfl⟩
    exact ⟨(name, m), hm, rfl⟩

/-- **Arranged entries rise**, one name before the next. -/
theorem arrangedEntries_sorted {entries : List (String × FileNode)} (h : (entries.map Prod.fst).Nodup) :
    (arrangedEntries entries).Pairwise fun a b => a.1 < b.1 := by
  induction entries with
  | nil => exact List.Pairwise.nil
  | cons e rest ih =>
    obtain ⟨hnot, hrest⟩ := List.nodup_cons.1 h
    exact insertByName_sorted (ih hrest) fun hmem => hnot ((arrangedEntries_names rest).mem_iff.1 hmem)

mutual
theorem FileNode.WellFormed.arranged {n : FileNode} (h : n.WellFormed) : n.arranged.WellFormed := by
  cases n with
  | dir entries => exact ⟨(arrangedEntries_names entries).nodup_iff.2 h.1, h.2.arranged⟩
  | file content => exact h
  | link target => exact h

theorem WellFormedEntries.arranged {entries : List (String × FileNode)} (h : WellFormedEntries entries) :
    WellFormedEntries (arrangedEntries entries) := by
  cases entries with
  | nil => trivial
  | cons e rest =>
    obtain ⟨hname, hn, hrest⟩ := h
    refine wellFormedEntries_of_mem fun name m hm => ?_
    rcases List.mem_cons.1 ((insertByName_perm _ _).mem_iff.1 hm) with heq | hm
    · cases heq
      exact ⟨hname, hn.arranged⟩
    · exact hrest.arranged.mem hm
end

namespace FileNode

theorem child?_arranged {n : FileNode} (h : n.WellFormed) (name : String) :
    n.arranged.child? name = (n.child? name).map arranged := by
  cases n with
  | dir entries =>
    cases hc : (dir entries).child? name with
    | some c => exact child?_of_mem h.arranged.1 (mem_arrangedEntries.2 ⟨c, mem_of_child? hc, rfl⟩)
    | none =>
      cases ha : (dir entries).arranged.child? name with
      | none => rfl
      | some c =>
        obtain ⟨m, hm, -⟩ := mem_arrangedEntries.1 (mem_of_child? ha)
        rw [child?_of_mem h.1 hm] at hc
        cases hc
  | file content => rfl
  | link target => rfl

/-- **Arrangement moves no node to another place.** -/
theorem at?_arranged {n : FileNode} (h : n.WellFormed) (address : List String) :
    n.arranged.at? address = (n.at? address).map arranged := by
  induction address generalizing n with
  | nil => rfl
  | cons name rest ih =>
    simp only [at?, child?_arranged h]
    cases hc : n.child? name with
    | none => rfl
    | some c =>
      have hchild : n.at? [name] = some c := by simp [at?, hc]
      exact ih (h.at? hchild)

end FileNode

end Gleaner
