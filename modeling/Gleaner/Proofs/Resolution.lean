/-
What the paths of entries lead to.

The path of an entry is resolved like the path of the directory it was found in, and then on along the names of the
entries (`resolveFrom_middle`, `resolveFrom_down`). So a path that a walk comes to leads to the entry for which the
walk uses it (`lookup_entryPath`), or nowhere, if it is too long.
-/
import Gleaner.Proofs.Paths

namespace Gleaner

namespace FileNode

/-! ## The names in the path of an entry -/

/-- the names in a path, without the empty one behind a slash at its end -/
def standing (path : String) : List String := if path.endsWith '/' then (names path).dropLast else names path

theorem names_of_slash (path : String) (before after : List Char) (h : path.toList = before ++ '/' :: after) :
    names path = (before.splitOn '/').map String.ofList ++ (after.splitOn '/').map String.ofList := by
  rw [names, h, List.splitOn_append_cons_of_beq before after (beq_self_eq_true '/'), List.map_append]

theorem names_eq_standing (path : String) : names path = standing path ∨ names path = standing path ++ [""] := by
  unfold standing
  split
  · rename_i hend
    rw [String.endsWith_char_eq_getLast?, beq_iff_eq] at hend
    obtain ⟨before, hpath⟩ := List.getLast?_eq_some_iff.1 hend
    rw [names_of_slash path before [] hpath]
    exact .inr (by simp)
  · exact .inl rfl

theorem names_joinPath (dir : String) {name : String} (h : IsName name) :
    names (joinPath dir name) = standing dir ++ [name] := by
  have hname : (name.toList.splitOn '/').map String.ofList = [name] := by
    rw [List.splitOn_eq_singleton h.no_slash]
    simp
  unfold standing
  split
  · rename_i hend
    have hjoin : (joinPath dir name).toList = dir.toList ++ name.toList := by
      rw [toList_joinPath, slashed, if_pos hend]
    rw [String.endsWith_char_eq_getLast?, beq_iff_eq] at hend
    obtain ⟨before, hdir⟩ := List.getLast?_eq_some_iff.1 hend
    rw [hdir, List.append_assoc] at hjoin
    rw [names_of_slash _ before name.toList hjoin, names_of_slash dir before [] hdir, hname]
    simp
  · rename_i hend
    have hjoin : (joinPath dir name).toList = dir.toList ++ '/' :: name.toList := by
      rw [toList_joinPath, slashed, if_neg hend, List.append_assoc]
      rfl
    rw [names_of_slash _ dir.toList name.toList hjoin, hname]
    rfl

theorem standing_joinPath (dir : String) {name : String} (h : IsName name) :
    standing (joinPath dir name) = standing dir ++ [name] := by
  rw [← names_joinPath dir h, standing, if_neg]
  rw [endsWith_joinPath dir h]
  exact Bool.false_ne_true

theorem names_entryPath (root : String) {address : List String} (h : ∀ name ∈ address, IsName name)
    (hne : address ≠ []) : names (entryPath root address) = standing root ++ address := by
  induction address generalizing root with
  | nil => exact absurd rfl hne
  | cons name rest ih =>
    have hname := h name List.mem_cons_self
    cases rest with
    | nil => exact names_joinPath root hname
    | cons other more =>
      have hrest := ih (joinPath root name) (fun n hn => h n (List.mem_cons_of_mem _ hn)) (List.cons_ne_nil _ _)
      rw [standing_joinPath root hname, List.append_assoc] at hrest
      exact hrest

/-! ## Resolution -/

theorem at?_append (n : FileNode) (xs ys : List String) : n.at? (xs ++ ys) = (n.at? xs).bind (at? ys) := by
  induction xs generalizing n with
  | nil => rfl
  | cons name rest ih =>
    simp only [List.cons_append, at?]
    cases n.child? name with
    | none => rfl
    | some c => exact ih c

theorem at?_snoc {root n : FileNode} {here : List String} (h : root.at? here = some n) (name : String) :
    root.at? (here ++ [name]) = n.child? name := by
  rw [at?_append, h, Option.bind_some, at?]
  cases n.child? name <;> rfl

/-- the directory that one name leads to from another, and the names that a link puts in front of the others -/
def onward (root : FileNode) (here : List String) (name : String) : Option (List String × List String) :=
  match root.at? here with
  | some (.dir entries) =>
    if name = "" ∨ name = "." then some (here, [])
    else if name = ".." then some (here.dropLast, [])
    else
      match (FileNode.dir entries).child? name with
      | some (.link target) => some (here, names target)
      | some _ => some (here ++ [name], [])
      | none => none
  | _ => none

/-- **A resolution goes on by one name**, or ends at a link that is not followed. -/
theorem resolveFrom_onward {root : FileNode} {follow : Bool} {fuel links : Nat} {here rest place : List String}
    {name : String} (h : resolveFrom root follow (fuel + 1) links here (name :: rest) = .ok place) :
    (∃ next front links, root.onward here name = some (next, front) ∧
        resolveFrom root follow fuel links next (front ++ rest) = .ok place) ∨
      rest = [] ∧ follow = false ∧ ∃ target, root.at? place = some (.link target) := by
  rw [resolveFrom] at h
  cases hat : root.at? here with
  | none => rw [hat] at h; cases h
  | some n =>
    rw [hat] at h
    cases n with
    | file content => cases h
    | link target => cases h
    | dir entries =>
      simp only [Bool.or_eq_true, decide_eq_true_eq] at h
      simp only [onward, hat]
      by_cases hhere : name = "" ∨ name = "."
      · rw [if_pos hhere] at h ⊢
        exact .inl ⟨here, [], links, rfl, h⟩
      by_cases habove : name = ".."
      · rw [if_neg hhere, if_pos habove] at h ⊢
        split_ifs at h
        exact .inl ⟨here.dropLast, [], links, rfl, h⟩
      rw [if_neg hhere, if_neg habove] at h ⊢
      by_cases hlong : name.utf8ByteSize > maxNameBytes
      · rw [if_pos hlong] at h
        cases h
      rw [if_neg hlong] at h
      have hsnoc : root.at? (here ++ [name]) = (FileNode.dir entries).child? name := at?_snoc hat name
      simp only [child?] at hsnoc ⊢
      cases hfind : entries.find? (·.1 == name) with
      | none => rw [hfind] at h; cases h
      | some e =>
        obtain ⟨key, c⟩ := e
        rw [hfind] at h hsnoc
        simp only [Option.map_some] at hsnoc ⊢
        cases c with
        | file content => exact .inl ⟨here ++ [name], [], links, rfl, h⟩
        | dir inner => exact .inl ⟨here ++ [name], [], links, rfl, h⟩
        | link target =>
          simp only at h
          split_ifs at h with hstop hlinks habs
          · obtain ⟨hrest, hfollow⟩ := Bool.and_eq_true_iff.1 hstop
            cases h
            exact .inr ⟨List.isEmpty_iff.1 hrest, by simpa using hfollow, target, hsnoc⟩
          · exact .inl ⟨here, names target, links - 1, rfl, h⟩

/-- the empty name stands still -/
theorem onward_empty {root : FileNode} {here next front : List String} (h : root.onward here "" = some (next, front)) :
    next = here ∧ front = [] := by
  unfold onward at h
  split at h
  · rw [if_pos (.inl rfl)] at h
    cases h
    exact ⟨rfl, rfl⟩
  · cases h

/-- resolving some names and others behind them comes by the place of the first ones. These may be resolved with an
empty name at the end, with other fuel and without following a link at the end, if there is none. -/
theorem resolveFrom_middle {root : FileNode} {fuel fuel' links links' : Nat}
    {here before after rest place middle : List String} (hafter : after = [] ∨ after = [""])
    (h : resolveFrom root true fuel links here (before ++ rest) = .ok place)
    (h' : resolveFrom root false fuel' links' here (before ++ after) = .ok middle)
    (hmiddle : ∀ target, root.at? middle ≠ some (.link target)) :
    ∃ fuel links, resolveFrom root true fuel links middle rest = .ok place := by
  induction fuel generalizing fuel' links links' here before with
  | zero => cases h
  | succ fuel ih =>
    cases fuel' with
    | zero => cases h'
    | succ fuel' =>
      cases before with
      | nil =>
        rcases hafter with rfl | rfl
        · cases h'
          exact ⟨fuel + 1, links, h⟩
        · rcases resolveFrom_onward h' with ⟨next, front, links₁, honward, h'⟩ | ⟨-, -, target, htarget⟩
          · obtain ⟨rfl, rfl⟩ := onward_empty honward
            cases fuel' with
            | zero => cases h'
            | succ fuel' => cases h'; exact ⟨fuel + 1, links, h⟩
          · exact absurd htarget (hmiddle target)
      | cons name more =>
        rcases resolveFrom_onward h' with ⟨next, front, links₁, honward, h'⟩ | ⟨-, -, target, htarget⟩
        · rcases resolveFrom_onward h with ⟨next₂, front₂, links₂, honward₂, h⟩ | ⟨-, hfollow, -⟩
          · rw [honward] at honward₂
            cases honward₂
            have happend : ∀ xs, front ++ (more.append xs) = (front ++ more) ++ xs := fun xs =>
              (List.append_assoc front more xs).symm
            rw [happend] at h h'
            exact ih h h'
          · cases hfollow
        · exact absurd htarget (hmiddle target)

/-- resolving the names of entries, none of them a link, comes to the last of them -/
theorem resolveFrom_down {root n m : FileNode} {fuel links : Nat} {here address place : List String}
    (hn : root.at? here = some n) (hnames : ∀ name ∈ address, IsName name) (hm : n.at? address = some m)
    (hlink : ∀ target, m ≠ .link target) (h : resolveFrom root true fuel links here address = .ok place) :
    place = here ++ address := by
  induction address generalizing fuel links here n with
  | nil =>
    cases fuel with
    | zero => cases h
    | succ fuel => cases h; rw [List.append_nil]
  | cons name rest ih =>
    cases fuel with
    | zero => cases h
    | succ fuel =>
      obtain ⟨c, hc, hrest⟩ := Option.bind_eq_some_iff.1 hm
      have hname := hnames name List.mem_cons_self
      have hnolink : ∀ target, c ≠ .link target := by
        rintro target rfl
        cases rest with
        | nil => cases hrest; exact hlink target rfl
        | cons other more => cases hrest
      have honward : root.onward here name = some (here ++ [name], []) := by
        cases n with
        | dir entries =>
          simp only [onward, hn, hname.ne_empty, hname.ne_here, hname.ne_above, or_self, if_false, hc]
        | _ => cases hc
      rcases resolveFrom_onward h with ⟨next, front, links₁, hnext, h⟩ | ⟨-, hfollow, -⟩
      · rw [honward] at hnext
        cases hnext
        have hplace := ih ((at?_snoc hn name).trans hc) (fun x hx => hnames x (List.mem_cons_of_mem _ hx)) hrest h
        rw [hplace, List.append_assoc]
        rfl
      · cases hfollow

/-! ## Paths of entries -/

theorem resolveFrom_of_resolve {root : FileNode} {follow : Bool} {path : String} {place : List String}
    (h : root.resolve follow path = .ok place) :
    ∃ fuel, resolveFrom root follow fuel maxLinks [] (names path) = .ok place := by
  unfold resolve at h
  split_ifs at h
  exact ⟨_, h⟩

/-- **The path of an entry leads to the entry**, if it leads anywhere. -/
theorem lookup_entryPath {files n m found : FileNode} {root : String} {address : List String}
    (hroot : files.lookupEntry root = .ok n) (hn : ∀ target, n ≠ .link target)
    (hnames : ∀ name ∈ address, IsName name) (hm : n.at? address = some m) (hlink : ∀ target, m ≠ .link target)
    (h : files.lookup (entryPath root address) = .ok found) : found = m := by
  obtain ⟨middle, hmiddle, hat⟩ := lookupEntry_eq_ok.1 hroot
  obtain ⟨place, hplace, hfound⟩ := lookup_eq_ok.1 h
  obtain ⟨fuel', hmiddle⟩ := resolveFrom_of_resolve hmiddle
  obtain ⟨fuel, hplace⟩ := resolveFrom_of_resolve hplace
  have hnolink : ∀ target, files.at? middle ≠ some (.link target) := fun target h =>
    hn target (Option.some.inj (hat.symm.trans h))
  obtain ⟨fuel, links, hdown⟩ : ∃ fuel links, resolveFrom files true fuel links middle address = .ok place := by
    by_cases hne : address = []
    · subst hne
      rw [← List.append_nil (names root)] at hmiddle
      rw [entryPath, List.foldl_nil, ← List.append_nil (names root)] at hplace
      exact resolveFrom_middle (.inl rfl) hplace hmiddle hnolink
    · rw [names_entryPath root hnames hne] at hplace
      rcases names_eq_standing root with hstanding | hstanding
      · rw [hstanding, ← List.append_nil (standing root)] at hmiddle
        exact resolveFrom_middle (.inl rfl) hplace hmiddle hnolink
      · rw [hstanding] at hmiddle
        exact resolveFrom_middle (.inr rfl) hplace hmiddle hnolink
  have hend := resolveFrom_down hat hnames hm hlink hdown
  rw [hend, at?_append, hat] at hfound
  exact Option.some.inj (hfound.symm.trans hm)

end FileNode

end Gleaner
