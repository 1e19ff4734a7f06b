/-
Ignore entries of two configurations.

The ignore entries of a configuration are one chain, and so are those of a merged one: what the first configuration
ignores is not left out any more, but goes on to the entries of the second. So two filters behind each other ignore only
what both of them match. Merging ignores what either configuration ignores if one of them has no entries.

Walks depend on the ignore chain in one direction: the more it matches, the less they give.

Results:
- `seenFrom_sublist`, `Tour.moves_sublist`: a walk that ignores more gives some of what the other gives, in its order;
- `walk_sublist`: the same of walks in fresh worlds, also of one that is cut by the signal;
- `merge_ignores`: what a merged configuration ignores;
- `merge_unignores`: two configurations that together ignore less than each of them.
-/
import Gleaner.Proofs.Listing
import Gleaner.Proofs.Merging
import Gleaner.Proofs.Relays

namespace Gleaner

/-! ## Walks that ignore more -/

section

variable {f g : String → Bool}

mutual
/-- a walk that ignores more comes to fewer addresses -/
theorem seenFrom_sublist (h : ∀ path, f path = true → g path = true) (path : String) (n : FileNode) :
    (seenFrom g path n).Sublist (seenFrom f path n) := by
  cases n with
  | dir entries =>
    simp only [seenFrom]
    split
    · exact List.nil_sublist _
    · rename_i hg
      rw [if_neg fun hf => hg (h path hf)]
      exact (seenAmong_sublist h path entries).cons_cons _
  | _ =>
    simp only [seenFrom]
    split
    · exact List.nil_sublist _
    · rename_i hg
      rw [if_neg fun hf => hg (h path hf)]

theorem seenAmong_sublist (h : ∀ path, f path = true → g path = true) (dir : String)
    (entries : List (String × FileNode)) : (seenAmong g dir entries).Sublist (seenAmong f dir entries) := by
  cases entries with
  | nil => exact List.Sublist.refl _
  | cons e rest =>
    obtain ⟨name, n⟩ := e
    exact ((seenFrom_sublist h (joinPath dir name) n).map _).append (seenAmong_sublist h dir rest)
end

end

namespace Tour

/-- the ignore chain never fails -/
def Mild (t : Tour) : Prop := ∀ path e, t.verdict path = .error e → e.isUnmatched = true

/-- the lines that files give at some addresses -/
def sights (t : Tour) (path : String) (seen : List (List String)) : List FileLine :=
  seen.flatMap fun a => Move.items (t.fileMoves (entryPath path a))

theorem foldr_hear_of_mild {t : Tour} (h : t.Mild) (path : String) (seen : List (List String)) :
    seen.foldr (fun a => t.hear (entryPath path a)) [] = t.sights path seen := by
  have hear_eq : ∀ p behind, t.hear p behind = Move.items (t.fileMoves p) ++ behind := by
    intro p behind
    have hnone : ignoreFault? t.verdict p = none := by
      unfold ignoreFault?
      split
      · rfl
      · rename_i e he
        rw [if_pos (h p e he)]
    rw [hear, hnone]
  induction seen with
  | nil => rfl
  | cons a rest ih => rw [List.foldr_cons, ih, hear_eq, sights, sights, List.flatMap_cons]

theorem nodeMoves_sights {t : Tour} (h : t.Mild) (path : String) (n : FileNode) :
    Move.items (t.nodeMoves path n) = t.sights path (seenFrom t.ignores path n) := by
  have hitems := t.nodeMoves_items path n []
  rw [List.append_nil] at hitems
  exact hitems.trans (foldr_hear_of_mild h path _)

theorem entriesMoves_sights {t : Tour} (h : t.Mild) (dir : String) (entries : List (String × FileNode)) :
    Move.items (t.entriesMoves dir entries) = t.sights dir (seenAmong t.ignores dir entries) := by
  have hitems := t.entriesMoves_items dir entries []
  rw [List.append_nil] at hitems
  exact hitems.trans (foldr_hear_of_mild h dir _)

/-- a link to a directory gives what is below it, whether it is ignored or not -/
theorem entryMoves_link {t : Tour} (h : t.Mild) {entries : List (String × FileNode)}
    (hdir : t.files.lookup t.root = .ok (.dir entries)) (below : List (Move FileLine)) :
    Move.items (t.entryMoves t.root false below) = Move.items below := by
  have hnothing : t.fileMoves t.root = [] := by
    unfold fileMoves
    rw [hdir]
    rfl
  unfold entryMoves
  cases hv : t.verdict t.root with
  | ok found => rfl
  | error e =>
    simp only [Move.items, h t.root e hv, if_true, hnothing, List.nil_append]

/-- **A walk that ignores more** gives some of what the other gives. -/
theorem moves_sublist {root : String} {files : FileNode} {v v' : String → MatchResult} (hv : Mild ⟨root, files, v⟩)
    (hv' : Mild ⟨root, files, v'⟩) (h : ∀ path, (v path).isOk = true → (v' path).isOk = true) :
    (Move.items (moves ⟨root, files, v'⟩)).Sublist (Move.items (moves ⟨root, files, v⟩)) := by
  have hnode : ∀ n, (Move.items (nodeMoves ⟨root, files, v'⟩ root n)).Sublist
      (Move.items (nodeMoves ⟨root, files, v⟩ root n)) := by
    intro n
    rw [nodeMoves_sights hv, nodeMoves_sights hv']
    exact (seenFrom_sublist h root n).flatMap _
  simp only [moves]
  rcases files.lookupEntry root with e | n
  · exact List.Sublist.refl _
  cases n with
  | file content => exact hnode _
  | dir entries => exact hnode _
  | link target =>
    rcases hlookup : files.lookup root with e | m
    · exact List.Sublist.refl _
    cases m with
    | dir entries =>
      simp only
      rw [entryMoves_link hv hlookup, entryMoves_link hv' hlookup, entriesMoves_sights hv, entriesMoves_sights hv']
      exact (seenAmong_sublist h root _).flatMap _
    | file content => exact hnode _
    | link other => exact hnode _

end Tour

/-! ## Walks in fresh worlds -/

variable {files : FileNode} {env : Environment}

/-- a fresh world with a signal -/
def World.freshUnder (files : FileNode) (env : Environment) (fires : Nat → Bool) : World :=
  { World.fresh files env with signal := fires }

/-- the tour of a chain -/
def Chain.tour (files : FileNode) (env : Environment) (c : Chain) (root : String) : Tour :=
  ⟨root, files, c.value files env⟩

theorem walk_eq_run {c : Chain} (h : c.Calm files env) (hstart : c.place.stage = 0) (root : String)
    (fires : Nat → Bool) :
    (Walker.walk ⟨root, c⟩ (World.freshUnder files env fires)).1 =
      (Move.run fires 0 (c.tour files env root).moves).1 := by
  have hsettled : (World.freshUnder files env fires).Settled c.scripts files env :=
    World.settled_fresh.of_subset rfl rfl (List.Subset.refl _)
  exact (Tour.survey_follows (Chain.settled_guides h.functions (Chain.stands_scripts hstart) root) _ hsettled).lines

/-- **Walks depend on the ignore chain in one direction.** If all that one chain matches is matched by another, then a
walk with the other gives, whatever the signal does, some of the lines that an uncancelled walk with the one gives. -/
theorem walk_sublist {c d : Chain} (hc : c.Calm files env) (hd : d.Calm files env) (hcstart : c.place.stage = 0)
    (hdstart : d.place.stage = 0)
    (h : ∀ path, (c.value files env path).isOk = true → (d.value files env path).isOk = true) (root : String)
    (fires : Nat → Bool) :
    ((Walker.walk ⟨root, d⟩ (World.freshUnder files env fires)).1.filter fun l => l.error.isNone).Sublist
      (Walker.walk ⟨root, c⟩ (World.freshUnder files env fun _ => false)).1 := by
  rw [walk_eq_run hd hdstart, walk_eq_run hc hcstart, Move.run_silent fun _ => rfl]
  have hitems : (Move.items (d.tour files env root).moves).Sublist (Move.items (c.tour files env root).moves) :=
    Tour.moves_sublist hc.mild hd.mild h
  rcases Move.run_cut (d.tour files env root).moves_heeds fires 0 with hall | ⟨-, before, last, hcut, hbefore, hlast⟩
  · rw [hall]
    exact List.filter_sublist.trans hitems
  · have hdropped : [last].filter (fun l => l.error.isNone) = [] := by
      have hsome : last.error = some .cancelled := hlast
      simp [hsome]
    rw [hcut, List.filter_append, hdropped, List.append_nil]
    exact List.filter_sublist.trans (hbefore.sublist.trans hitems)

/-! ## Merged ignore entries -/

/-- a chain without stages matches nothing, in any world -/
theorem Chain.run_of_empty {c : Chain} (h : c.stages = []) (path : String) (w : World) :
    (c.run path w).1.isOk = false := by
  unfold run
  rw [h]
  rfl

theorem Chain.compile_length {place : Place} {specs : List StageSpec} {c : Chain}
    (h : Chain.compile env place specs = .ok c) : c.stages.length = specs.length := by
  obtain ⟨stages, hstages, rfl⟩ := Pipeline.map_eq_ok h
  rw [compileFrom_eq_compileRules] at hstages
  exact compileRules_length hstages

theorem Chain.compile_stages_eq_nil {place : Place} {specs : List StageSpec} {c : Chain}
    (h : Chain.compile env place specs = .ok c) : c.stages = [] ↔ specs = [] := by
  rw [← List.length_eq_zero_iff, ← List.length_eq_zero_iff, compile_length h]

/-- behind a chain without stages, and before one, a chain is alone -/
theorem Chain.run_relay_of_empty {c d : Chain} (hplace : c.place = d.place) (h : c.stages = [] ∨ d.stages = [])
    (path : String) (w : World) :
    ((c.relay d).run path w).1.isOk = ((c.run path w).1.isOk || (d.run path w).1.isOk) := by
  rcases h with h | h
  · have hsame : c.relay d = d := by
      rw [relay, h, hplace, List.nil_append]
    rw [hsame, run_of_empty h, Bool.false_or]
  · have hsame : c.relay d = c := by
      rw [relay, h, List.append_nil]
    rw [hsame, run_of_empty h, Bool.or_false]

/-- **What a merged configuration ignores.** For two configurations whose ignore entries compile to chains, those of the
merged one do so as well.
- If one of the two has no entries, the merged chain matches, in any world, just what either chain matches.
- Let the chains be made of functions and raise no hard error. Then neither does the merged chain. If the second
  configuration has entries, the merged chain matches a path just if the chain of the second matches one of the texts
  that the entries of the first leave of it.
- Wherever the merged chain matches all that either matches, a walk under the merged configuration gives no line of a
  file that a walk under either alone does not give. -/
theorem merge_ignores {a b : Config} {ca cb : Chain} (ha : Chain.compile env { part := .ignore } a.ignore = .ok ca)
    (hb : Chain.compile env { part := .ignore } b.ignore = .ok cb) :
    ∃ c, Chain.compile env { part := .ignore } (a.merge b).ignore = .ok c ∧
      (a.ignore = [] ∨ b.ignore = [] →
        ∀ path w, (c.run path w).1.isOk = ((ca.run path w).1.isOk || (cb.run path w).1.isOk)) ∧
      (ca.Calm files env → cb.Calm files env → c.Calm files env ∧
        (b.ignore ≠ [] → ∀ path, (c.value files env path).isOk ↔
          ∃ text ∈ Chain.passed files env ca.stages [path], (cb.value files env text).isOk) ∧
        ((∀ path, (ca.value files env path).isOk ∨ (cb.value files env path).isOk → (c.value files env path).isOk) →
          ∀ root fires,
            let lines := (Walker.walk ⟨root, c⟩ (World.freshUnder files env fires)).1.filter fun l => l.error.isNone
            lines.Sublist (Walker.walk ⟨root, ca⟩ (World.freshUnder files env fun _ => false)).1 ∧
              lines.Sublist (Walker.walk ⟨root, cb⟩ (World.freshUnder files env fun _ => false)).1)) := by
  have hastart : ca.place.stage = 0 := by rw [Pipeline.compile_place ha]
  have hbstart : cb.place.stage = 0 := by rw [Pipeline.compile_place hb]
  refine ⟨ca.relay cb, Chain.compile_append ha hb, fun hempty => ?_, fun hca hcb =>
    ⟨hca.relay hcb hastart hbstart, fun hne path => ?_, ?_⟩⟩
  · rw [← Chain.compile_stages_eq_nil ha, ← Chain.compile_stages_eq_nil hb] at hempty
    exact Chain.run_relay_of_empty ((Pipeline.compile_place ha).trans (Pipeline.compile_place hb).symm) hempty
  · exact Chain.isOk_relay_iff hca hcb hastart hbstart (fun h => hne ((Chain.compile_stages_eq_nil hb).1 h)) path
  · intro hall root fires
    have hcalm := hca.relay hcb hastart hbstart
    exact ⟨walk_sublist hca hcalm hastart hastart (fun path h => hall path (.inl h)) root fires,
      walk_sublist hcb hcalm hbstart hastart (fun path h => hall path (.inr h)) root fires⟩

/-! ## Two globs -/

/-- ignores the path that is a letter -/
def letterConfig (c : Char) : Config := { ignore := [{ glob := some (String.singleton c) }] }

def letterChain (c : Char) : Chain := ⟨{ part := .ignore }, [.glob ⟨String.singleton c, [.char c]⟩]⟩

theorem letterChain_calm (files : FileNode) (env : Environment) (c : Char) : (letterChain c).Calm files env :=
  Chain.calm_of_plain rfl (by simp [letterChain, Stage.IsPlain])

/-- a file named a -/
def letterTree : FileNode := .dir [("a", .file [120, 10])]

/-- merged with a configuration without entries, the one that ignores a still does, and its walks give no more; merged
with itself it does, too, and merged with the one that ignores b it does not -/
theorem merge_ignores_letter :
    (∃ c, Chain.compile ⟨[]⟩ { part := .ignore } ((letterConfig 'a').merge {}).ignore = .ok c ∧
      (c.value letterTree ⟨[]⟩ "a").isOk = true ∧
      ((Walker.walk ⟨"a", c⟩ (World.freshUnder letterTree ⟨[]⟩ fun _ => false)).1.filter fun l => l.error.isNone) = []) ∧
    (∃ c, Chain.compile ⟨[]⟩ { part := .ignore } ((letterConfig 'a').merge (letterConfig 'a')).ignore = .ok c ∧
      (c.value letterTree ⟨[]⟩ "a").isOk = true) ∧
    ∃ c, Chain.compile ⟨[]⟩ { part := .ignore } ((letterConfig 'a').merge (letterConfig 'b')).ignore = .ok c ∧
      ¬ (c.value letterTree ⟨[]⟩ "a").isOk := by
  refine ⟨?_, ?_, ?_⟩
  · let nothing : Chain := ⟨{ part := .ignore }, []⟩
    have hnothing : nothing.Calm letterTree ⟨[]⟩ := Chain.calm_of_plain rfl fun s hs => absurd hs List.not_mem_nil
    obtain ⟨c, hc, heither, hcalm⟩ :=
      @merge_ignores letterTree ⟨[]⟩ (letterConfig 'a') {} (letterChain 'a') nothing rfl rfl
    have hmatches : ∀ path,
        (c.value letterTree ⟨[]⟩ path).isOk = ((letterChain 'a').value letterTree ⟨[]⟩ path).isOk := by
      intro path
      have h := heither (.inr rfl) path (World.fresh letterTree ⟨[]⟩)
      rwa [Chain.run_of_empty (c := nothing) rfl, Bool.or_false] at h
    refine ⟨c, hc, (hmatches "a").trans (by decide +kernel), ?_⟩
    obtain ⟨-, -, hwalks⟩ := hcalm (letterChain_calm _ _ _) hnothing
    have hfewer := (hwalks (fun path h => ?_) "a" fun _ => false).1
    · have halone : (Walker.walk ⟨"a", letterChain 'a'⟩ (World.freshUnder letterTree ⟨[]⟩ fun _ => false)).1 = [] := by
        decide +kernel
      rw [halone] at hfewer
      exact List.sublist_nil.1 hfewer
    · rcases h with h | h
      · exact (hmatches path).trans h
      · rw [Chain.value, Chain.run_of_empty rfl] at h
        cases h
  · obtain ⟨c, hc, -, hcalm⟩ :=
      @merge_ignores letterTree ⟨[]⟩ (letterConfig 'a') (letterConfig 'a') (letterChain 'a') (letterChain 'a') rfl rfl
    obtain ⟨-, hmatches, -⟩ := hcalm (letterChain_calm _ _ _) (letterChain_calm _ _ _)
    exact ⟨c, hc, (hmatches (List.cons_ne_nil _ _) "a").2 (by decide +kernel)⟩
  · obtain ⟨c, hc, -, hcalm⟩ :=
      @merge_ignores letterTree ⟨[]⟩ (letterConfig 'a') (letterConfig 'b') (letterChain 'a') (letterChain 'b') rfl rfl
    obtain ⟨-, hmatches, -⟩ := hcalm (letterChain_calm _ _ _) (letterChain_calm _ _ _)
    refine ⟨c, hc, fun h => ?_⟩
    exact absurd ((hmatches (List.cons_ne_nil _ _) "a").1 h) (by decide +kernel)

/-- **Two configurations that together ignore less.** The one ignores a and the other b; merged they ignore neither. -/
theorem merge_unignores :
    ∃ (a b : Config) (ca cb c : Chain), a.validate = .ok () ∧ b.validate = .ok () ∧
      Chain.compile ⟨[]⟩ { part := .ignore } a.ignore = .ok ca ∧
      Chain.compile ⟨[]⟩ { part := .ignore } b.ignore = .ok cb ∧
      Chain.compile ⟨[]⟩ { part := .ignore } (a.merge b).ignore = .ok c ∧
      ca.Calm letterTree ⟨[]⟩ ∧ cb.Calm letterTree ⟨[]⟩ ∧
      (ca.value letterTree ⟨[]⟩ "a").isOk = true ∧ (c.value letterTree ⟨[]⟩ "a").isOk = false ∧
      (Walker.walk ⟨"a", ca⟩ (World.fresh letterTree ⟨[]⟩)).1 = [] ∧
      (Walker.walk ⟨"a", c⟩ (World.fresh letterTree ⟨[]⟩)).1 = [{ number := 1, content := "x", path := "a" }] :=
  ⟨letterConfig 'a', letterConfig 'b', letterChain 'a', letterChain 'b', (letterChain 'a').relay (letterChain 'b'),
    by decide +kernel, by decide +kernel, rfl, rfl, rfl, letterChain_calm _ _ _, letterChain_calm _ _ _,
    by decide +kernel, by decide +kernel, by decide +kernel, by decide +kernel⟩

end Gleaner
