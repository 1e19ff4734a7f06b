/-
What a walk leaves out.

The ignore chain matches some of the paths a walk comes to (`Walked.left`). A walk is pruned if it gives no line whose
path is one of them or leads below one (`Walked.Pruned`).

An ignored directory is left out with everything below it, and the entries of one directory lie apart, so a walk is
pruned in any world: under any signal, and whatever the ignore chain does and remembers. The one exception is a root
that is a link to a directory. It is entered although it is no directory itself, and if it is ignored nothing holds
the walk back from what is below it.

Results:
- `walkNode_pruned`: a walk from a node is pruned;
- `survey_pruned_iff`: so is every walk, unless its root is a link to a directory, is ignored, and gives lines.
-/
import Gleaner.Proofs.Arrangement
import Gleaner.Proofs.Visits
import Mathlib

namespace Gleaner

/-! ## Paths that lie apart -/

theorem AtOrBelow.trans {a b c : String} (hab : AtOrBelow a b) (hbc : AtOrBelow b c) : AtOrBelow a c := by
  rcases hab with rfl | ⟨more, rfl⟩
  · exact hbc
  rcases hbc with rfl | ⟨rest, rfl⟩
  · exact .inr ⟨more, rfl⟩
  obtain ⟨between, hbetween⟩ : ∃ between, slashed (joinPath a more) = slashed a ++ more.toList ++ between := by
    unfold slashed
    split
    · exact ⟨[], by rw [toList_joinPath, List.append_nil]; rfl⟩
    · exact ⟨['/'], by rw [toList_joinPath]; rfl⟩
  refine .inr ⟨String.ofList (more.toList ++ between ++ rest.toList), String.toList_inj.1 ?_⟩
  rw [toList_joinPath, hbetween, toList_joinPath]
  simp

/-- nothing at or below one entry of a directory is at or below another -/
theorem not_atOrBelow_sibling {dir x y p q : String} (hx : IsName x) (hy : IsName y) (hne : x ≠ y)
    (hp : AtOrBelow (joinPath dir x) p) (hq : AtOrBelow (joinPath dir y) q) : ¬ AtOrBelow p q := fun h =>
  hne (eq_of_atOrBelow hx hy (hp.trans h) hq)

/-- nothing that is no longer than a directory is at or below what is in it -/
theorem not_atOrBelow_of_length {dir x p q : String} (hx : IsName x) (hp : AtOrBelow (joinPath dir x) p)
    (hq : q.toList.length ≤ dir.toList.length) : ¬ AtOrBelow p q := by
  intro h
  have := length_lt_joinPath dir hx
  have := hp.length_le
  have := h.length_le
  omega

/-! ## Parts of a walk -/

namespace Walked

/-- no line leads to or below what is left out -/
def Pruned (found : Walked) : Prop := ∀ p ∈ found.left, ∀ l ∈ found.lines, ¬ AtOrBelow p l.path

/-- what is left out is among some paths, and lines have one of these paths or that of the root -/
structure Within (root : String) (paths : String → Prop) (found : Walked) : Prop where
  lines : ∀ l ∈ found.lines, paths l.path ∨ l.path = root
  left : ∀ p ∈ found.left, paths p

variable {root : String} {paths others : String → Prop} {first second : Walked}

theorem Within.mono (h : Within root paths first) (hp : ∀ p, paths p → others p) : Within root others first :=
  ⟨fun l hl => (h.lines l hl).imp_left (hp _), fun p hm => hp _ (h.left p hm)⟩

theorem Within.andThen (h₁ : Within root paths first) (h₂ : Within root paths second) :
    Within root paths (first.andThen second) := by
  constructor
  · intro l hl
    rcases List.mem_append.1 hl with hl | hl
    · exact h₁.lines l hl
    · exact h₂.lines l hl
  · intro p hp
    rcases List.mem_append.1 hp with hp | hp
    · exact h₁.left p hp
    · exact h₂.left p hp

theorem within_nothing : Within root paths {} :=
  ⟨fun _ h => absurd h List.not_mem_nil, fun _ h => absurd h List.not_mem_nil⟩

/-- two parts of a walk that are pruned and lie apart -/
theorem Pruned.andThen (h₁ : first.Pruned) (h₂ : second.Pruned)
    (h₁₂ : ∀ p ∈ first.left, ∀ l ∈ second.lines, ¬ AtOrBelow p l.path)
    (h₂₁ : ∀ p ∈ second.left, ∀ l ∈ first.lines, ¬ AtOrBelow p l.path) : (first.andThen second).Pruned := by
  intro p hp l hl
  rcases List.mem_append.1 hp with hp | hp <;> rcases List.mem_append.1 hl with hl | hl
  · exact h₁ p hp l hl
  · exact h₁₂ p hp l hl
  · exact h₂₁ p hp l hl
  · exact h₂ p hp l hl

theorem pruned_of_left (h : first.left = []) : first.Pruned := by
  intro p hp
  rw [h] at hp
  cases hp

theorem pruned_of_lines (h : first.lines = []) : first.Pruned := by
  intro p _ l hl
  rw [h] at hl
  cases hl

end Walked

/-! ## Walks are pruned -/

namespace Walker

open Walked

/-- at or below one of some entries of a directory -/
def AmongEntries (dir : String) (entries : List (String × FileNode)) (path : String) : Prop :=
  ∃ e ∈ entries, IsName e.1 ∧ AtOrBelow (joinPath dir e.1) path

theorem AmongEntries.atOrBelow {dir path : String} {entries : List (String × FileNode)}
    (h : AmongEntries dir entries path) : AtOrBelow dir path := by
  obtain ⟨e, -, hname, hpath⟩ := h
  exact hpath.of_entry hname

/-- an entry that is seen, and what is in it, is pruned if what is in it is -/
theorem seen_pruned {root path : String} {entries : List (String × FileNode)} {here inside : Walked}
    (h : ∀ l ∈ here.lines, l.path = path) (hleft : here.left = [])
    (hinside : Within root (AmongEntries path entries) inside) (hpruned : inside.Pruned) :
    Within root (AtOrBelow path) (here.andThen inside) ∧ (here.andThen inside).Pruned := by
  refine ⟨Within.andThen ⟨fun l hl => ?_, fun p hp => ?_⟩ (hinside.mono fun _ hp => hp.atOrBelow),
    (pruned_of_left hleft).andThen hpruned (fun p hp => ?_) fun p hp l hl => ?_⟩
  · exact .inl (h l hl ▸ AtOrBelow.refl _)
  · rw [hleft] at hp
    cases hp
  · rw [hleft] at hp
    cases hp
  · obtain ⟨e, -, hname, hbelow⟩ := hinside.left p hp
    exact not_atOrBelow_of_length hname hbelow (by rw [h l hl])

/-- a visit that leaves out an entry with what is in it -/
theorem visited_pruned {root path : String} (entries : List (String × FileNode)) {below : World → Walked}
    (hbelow : ∀ world, Within root (AmongEntries path entries) (below world) ∧ (below world).Pruned)
    {found : Walked} (h : Visited root path true below found) :
    Within root (AtOrBelow path) found ∧ found.Pruned := by
  cases h with
  | stopped last h =>
    refine ⟨⟨fun l hl => ?_, fun p hp => absurd hp List.not_mem_nil⟩, pruned_of_left rfl⟩
    rw [List.mem_singleton.1 hl]
    rcases h with h | h
    · exact .inr h
    · exact .inl (.inl h)
  | pruned _ =>
    refine ⟨⟨fun l hl => absurd hl List.not_mem_nil, fun p hp => ?_⟩, pruned_of_lines rfl⟩
    rw [List.mem_singleton.1 hp]
    exact AtOrBelow.refl _
  | passed h _ => cases h
  | cut here h hleft =>
    refine ⟨⟨fun l hl => .inl (h l hl ▸ AtOrBelow.refl _), fun p hp => ?_⟩, pruned_of_left hleft⟩
    rw [hleft] at hp
    cases hp
  | seen here h hleft world => exact seen_pruned h hleft (hbelow world).1 (hbelow world).2

mutual
/-- **A walk from a node is pruned.** -/
theorem walkNode_pruned (w : Walker) (path : String) (n : FileNode) (hn : n.WellFormed)
    (hlength : w.root.toList.length ≤ path.toList.length) (world : World) :
    Within w.root (AtOrBelow path) (w.walkNode path n world).1 ∧ (w.walkNode path n world).1.Pruned := by
  cases n with
  | dir entries =>
    exact visited_pruned entries (fun world => walkEntries_pruned w path entries hn.2 hn.1 hlength world)
      (visit_visited w path true _ world)
  | file content =>
    exact visited_pruned [] (fun _ => ⟨within_nothing, pruned_of_left rfl⟩)
      (visit_visited w path true (return {}) world)
  | link target =>
    exact visited_pruned [] (fun _ => ⟨within_nothing, pruned_of_left rfl⟩)
      (visit_visited w path true (return {}) world)

theorem walkEntries_pruned (w : Walker) (dir : String) (entries : List (String × FileNode))
    (hn : WellFormedEntries entries) (hd : (entries.map Prod.fst).Nodup)
    (hlength : w.root.toList.length ≤ dir.toList.length) (world : World) :
    Within w.root (AmongEntries dir entries) (w.walkEntries dir entries world).1 ∧
      (w.walkEntries dir entries world).1.Pruned := by
  cases entries with
  | nil => exact ⟨within_nothing, pruned_of_left rfl⟩
  | cons e rest =>
    obtain ⟨name, n⟩ := e
    obtain ⟨hname, hn, hrest⟩ := hn
    obtain ⟨hnot, hd⟩ := List.nodup_cons.1 hd
    have hlong : w.root.toList.length ≤ (joinPath dir name).toList.length :=
      hlength.trans (length_lt_joinPath dir hname).le
    have hdiffers : ∀ e ∈ rest, name ≠ e.1 := fun e he h => hnot (List.mem_map.2 ⟨e, he, h.symm⟩)
    obtain ⟨hfirst, hpruned⟩ := walkNode_pruned w (joinPath dir name) n hn hlong world
    rw [walkEntries_run]
    rcases hw : w.walkNode (joinPath dir name) n world with ⟨first, world₁⟩
    rw [hw] at hfirst hpruned
    have hamong : Within w.root (AmongEntries dir ((name, n) :: rest)) first :=
      hfirst.mono fun p hp => ⟨(name, n), List.mem_cons_self, hname, hp⟩
    simp only
    split
    · obtain ⟨hothers, hprunedRest⟩ := walkEntries_pruned w dir rest hrest hd hlength world₁
      refine ⟨hamong.andThen (hothers.mono fun p ⟨e, he, hp⟩ => ⟨e, List.mem_cons_of_mem _ he, hp⟩),
        hpruned.andThen hprunedRest (fun p hp l hl => ?_) fun p hp l hl => ?_⟩
      · rcases hothers.lines l hl with ⟨e, he, hy, hq⟩ | hq
        · exact not_atOrBelow_sibling hname hy (hdiffers e he) (hfirst.left p hp) hq
        · exact not_atOrBelow_of_length hname (hfirst.left p hp) (hq ▸ hlength)
      · obtain ⟨e, he, hy, hbelow⟩ := hothers.left p hp
        rcases hfirst.lines l hl with hq | hq
        · exact not_atOrBelow_sibling hy hname (hdiffers e he).symm hbelow hq
        · exact not_atOrBelow_of_length hy hbelow (hq ▸ hlength)
    · exact ⟨hamong, hpruned⟩
end

end Walker

/-! ## The root -/

/-- a path is that of a link to a directory -/
def FileNode.IsDirLink (files : FileNode) (path : String) : Prop :=
  (∃ target, files.lookupEntry path = .ok (.link target)) ∧ ∃ entries, files.lookup path = .ok (.dir entries)

namespace Walker

open Walked

theorem skipEntry_left (w : Walker) (path : String) (e : IoError) (world : World) :
    (w.skipEntry path e world).1.left = [] := by
  rw [skipEntry_run]
  rcases w.interruption? world with ⟨stop | stop, world₁⟩ <;> rfl

/-- a root that is entered though it may be ignored -/
theorem visited_pruned_iff {root : String} {entries : List (String × FileNode)} {below : World → Walked}
    (hbelow : ∀ world, Within root (AmongEntries root entries) (below world) ∧ (below world).Pruned)
    {found : Walked} (h : Visited root root false below found) :
    found.Pruned ↔ ¬ (root ∈ found.left ∧ found.lines ≠ []) := by
  cases h with
  | stopped last h => exact iff_of_true (pruned_of_left rfl) fun h => absurd h.1 List.not_mem_nil
  | pruned h => cases h
  | passed _ world =>
    have hmem : root ∈ (Walked.andThen { left := [root] } (below world)).left := List.mem_cons_self
    constructor
    · intro hp ⟨_, hlines⟩
      obtain ⟨l, hl⟩ := List.exists_mem_of_ne_nil _ hlines
      refine hp root hmem l hl ?_
      rcases (hbelow world).1.lines l hl with hpath | hpath
      · exact hpath.atOrBelow
      · exact hpath ▸ AtOrBelow.refl _
    · intro hnot
      exact pruned_of_lines (by_contra fun hlines => hnot ⟨hmem, hlines⟩)
  | cut here h hleft =>
    exact iff_of_true (pruned_of_left hleft) fun h => absurd (hleft ▸ h.1) List.not_mem_nil
  | seen here h hleft world =>
    refine iff_of_true (seen_pruned h hleft (hbelow world).1 (hbelow world).2).2 fun ⟨hroot, _⟩ => ?_
    rcases List.mem_append.1 hroot with hroot | hroot
    · exact absurd (hleft ▸ hroot) List.not_mem_nil
    · obtain ⟨e, -, hname, hbelow⟩ := (hbelow world).1.left root hroot
      exact not_atOrBelow_of_length hname hbelow le_rfl (AtOrBelow.refl root)

/-- what a walk from a root is -/
theorem survey_cases (w : Walker) (world : World) :
    (world.files.IsDirLink w.root ∧ ∃ entries, world.files.lookup w.root = .ok (.dir entries) ∧
        w.survey world = w.visit w.root false (w.walkEntries w.root (arrangedEntries entries)) world) ∨
      ¬ world.files.IsDirLink w.root ∧
        ((∃ n, world.files.lookupEntry w.root = .ok n ∧ w.survey world = w.walkNode w.root n.arranged world) ∨
          ∃ e, w.survey world = w.skipEntry w.root e world) := by
  unfold survey
  rw [Act.bind_run, Act.get_run]
  have hplain : ∀ n, world.files.lookupEntry w.root = .ok n → (∀ target, n ≠ .link target) →
      ¬ world.files.IsDirLink w.root := by
    rintro n hentry hn ⟨⟨target, h⟩, -⟩
    cases hentry.symm.trans h
    exact hn target rfl
  have hleads : ∀ r, world.files.lookup w.root = r → (∀ entries, r ≠ .ok (.dir entries)) →
      ¬ world.files.IsDirLink w.root := by
    rintro r hlookup hr ⟨-, entries, h⟩
    exact hr entries (hlookup.symm.trans h)
  rcases hentry : world.files.lookupEntry w.root with e | n
  · refine .inr ⟨fun h => ?_, .inr ⟨e, by simp only⟩⟩
    obtain ⟨target, h⟩ := h.1
    cases hentry.symm.trans h
  cases n with
  | file content => exact .inr ⟨hplain _ hentry nofun, .inl ⟨_, rfl, by simp only⟩⟩
  | dir entries => exact .inr ⟨hplain _ hentry nofun, .inl ⟨_, rfl, by simp only⟩⟩
  | link target =>
    rcases hlookup : world.files.lookup w.root with e | m
    · exact .inr ⟨hleads _ hlookup nofun, .inr ⟨e, by simp only⟩⟩
    cases m with
    | dir entries => exact .inl ⟨⟨⟨target, hentry⟩, entries, hlookup⟩, entries, rfl, by simp only⟩
    | file content => exact .inr ⟨hleads _ hlookup nofun, .inl ⟨_, rfl, by simp only⟩⟩
    | link other => exact .inr ⟨hleads _ hlookup nofun, .inl ⟨_, rfl, by simp only⟩⟩

/-- **When a walk is pruned**: always, unless its root is a link to a directory, is ignored, and gives lines all the
same. -/
theorem survey_pruned_iff (w : Walker) (world : World) (h : world.files.WellFormed) :
    (∀ p ∈ (w.survey world).1.left, ∀ l ∈ (w.walk world).1, ¬ AtOrBelow p l.path) ↔
      ¬ (world.files.IsDirLink w.root ∧ w.root ∈ (w.survey world).1.left ∧ (w.walk world).1 ≠ []) := by
  change (w.survey world).1.Pruned ↔
    ¬ (world.files.IsDirLink w.root ∧ w.root ∈ (w.survey world).1.left ∧ (w.survey world).1.lines ≠ [])
  rcases survey_cases w world with ⟨hlink, entries, hdir, hrun⟩ | ⟨hnot, ⟨n, hentry, hrun⟩ | ⟨e, hrun⟩⟩
  · obtain ⟨hd, hentries⟩ := (h.lookup hdir).arranged
    have hbelow := walkEntries_pruned w w.root (arrangedEntries entries) hentries hd le_rfl
    rw [hrun, visited_pruned_iff hbelow (visit_visited w w.root false _ world)]
    exact not_congr (and_iff_right hlink).symm
  · rw [hrun]
    exact iff_of_true (walkNode_pruned w w.root n.arranged (h.lookupEntry hentry).arranged le_rfl world).2
      fun h => hnot h.1
  · rw [hrun]
    exact iff_of_true (pruned_of_left (skipEntry_left w w.root e world)) fun h => hnot h.1

/-- a directory with a file, and a link to it -/
def linkedTree : FileNode := .dir [("d", .dir [("a", .file [120, 10])]), ("l", .link "d")]

/-- walks from the link and ignores it -/
def linkWalker : Walker := ⟨"l", ⟨{ part := .ignore }, [.glob ⟨"l", [.char 'l']⟩]⟩⟩

/-- an ignored link to a directory does not keep the walk from the file behind it -/
theorem survey_not_pruned_of_dirLink :
    linkedTree.WellFormed ∧
      ¬ ∀ p ∈ (linkWalker.survey { files := linkedTree }).1.left,
        ∀ l ∈ (linkWalker.walk { files := linkedTree }).1, ¬ AtOrBelow p l.path := by
  have hwf : linkedTree.WellFormed :=
    ⟨by decide, by decide, ⟨by decide, by decide, trivial, trivial⟩, by decide, trivial, trivial⟩
  refine ⟨hwf, fun h => (survey_pruned_iff linkWalker { files := linkedTree } hwf).1 h
    ⟨⟨⟨"d", ?_⟩, [("a", .file [120, 10])], ?_⟩, ?_, ?_⟩⟩
  · cbv
  · cbv
  · decide +kernel
  · decide +kernel

end Walker

end Gleaner
