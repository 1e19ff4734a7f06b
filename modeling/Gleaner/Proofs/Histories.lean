/-
What is recalled of earlier answers, over whole histories.

A service is asked with a key. Its rules are evaluated in the world as it is then, and some of the answers are kept for
their keys: categories unless the signal cut one of them short, rewritten texts unless there was a hard error. Between
the asks the world changes in any way (files are written, other rules run), and the table is cleared at times.

`Service.First` says of an answer that it was the first for its key since the table was cleared that is kept, and this
in terms of the bare rules alone: what they gave in the world in which they were asked.

Results:
- `Service.get?_after`: a table holds the first answers that are kept;
- `Service.recalls`: an ask gives the first answer if there is one, without evaluating any rule, and evaluates the rules
  once if not;
- `answers_recalled`: this is how categories and both kinds of rewritten texts are recalled.
-/
import Gleaner.Workspace
import Mathlib.Data.Set.Card
import Mathlib.Data.List.Induction

namespace Gleaner

namespace Memo

variable {α : Type}

def keys (m : Memo α) : List String := m.entries.map Prod.fst

theorem mem_keys_iff {m : Memo α} {key : String} : key ∈ m.keys ↔ ∃ value, m.get? key = some value := by
  rw [← Option.isSome_iff_exists]
  simp [keys, get?]

/-- no key has two entries -/
def Lawful (m : Memo α) : Prop := m.keys.Nodup

theorem Lawful.insertIfAbsent {m : Memo α} (h : m.Lawful) (key : String) (value : α) :
    (m.insertIfAbsent key value).1.Lawful := by
  cases hkey : m.get? key with
  | some kept =>
    rw [insertIfAbsent_of_kept hkey]
    exact h
  | none =>
    have hnew : key ∉ m.keys := fun hmem => by
      obtain ⟨kept, hkept⟩ := mem_keys_iff.1 hmem
      cases hkey.symm.trans hkept
    rw [insertIfAbsent_of_absent hkey, Lawful, keys, List.map_append, List.map_singleton, ← List.concat_eq_append]
    exact h.concat hnew

/-- a table has as many entries as there are keys that have one -/
theorem Lawful.size_eq {m : Memo α} (h : m.Lawful) : m.size = {key | ∃ value, m.get? key = some value}.ncard := by
  have hkeys : {key | ∃ value, m.get? key = some value} = (m.keys.toFinset : Set String) := by
    ext key
    rw [Set.mem_ofPred_eq, ← mem_keys_iff, List.coe_toFinset, Set.mem_ofPred_eq]
  rw [hkeys, Set.ncard_coe_finset, List.toFinset_card_of_nodup h, size, keys, List.length_map]

end Memo

/-! ## Services -/

/-- rules that are asked with a key, and the table in which some of their answers are kept -/
structure Service (α ρ : Type) where
  /-- an answer, from the table if it is there -/
  ask : String → StateM Workspace ρ
  /-- what the rules themselves answer -/
  bare : String → Act ρ
  table : Workspace → Memo α
  put : Workspace → Memo α → Workspace
  /-- what is kept of an answer -/
  keep : ρ → Option α
  /-- the answer of which this has been kept -/
  restore : α → ρ
  restore_keep : ∀ {r a}, keep r = some a → restore a = r
  table_put : ∀ ws m, table (put ws m) = m
  world_put : ∀ ws m, (put ws m).world = ws.world
  table_world : ∀ (ws : Workspace) w, table { ws with world := w } = table ws
  ask_found : ∀ {key ws a}, (table ws).get? key = some a → ask key ws = (restore a, ws)
  ask_kept : ∀ {key ws a}, (table ws).get? key = none → keep (bare key ws.world).1 = some a →
    ask key ws = ((bare key ws.world).1, put { ws with world := (bare key ws.world).2 } ((table ws).insertIfAbsent key a).1)
  ask_unkept : ∀ {key ws}, (table ws).get? key = none → keep (bare key ws.world).1 = none →
    ask key ws = ((bare key ws.world).1, { ws with world := (bare key ws.world).2 })

/-! ## What is asked -/

namespace Workspace

section

variable {rules : List CategorySelector} {path : String} {ws : Workspace} {found : List Selection}

theorem selectCategories_hit (h : ws.categories.get? path = some found) :
    selectCategories rules path ws = (found, ws) := by
  simp only [selectCategories, Memo.getOrTry, h]

theorem selectCategories_stored (h : ws.categories.get? path = none)
    (hkept : (Gleaner.selectCategories rules path ws.world).1.any Selection.isCancelled = false) :
    selectCategories rules path ws = ((Gleaner.selectCategories rules path ws.world).1,
      { ws with
        world := (Gleaner.selectCategories rules path ws.world).2
        categories := (ws.categories.insertIfAbsent path (Gleaner.selectCategories rules path ws.world).1).1 }) := by
  rcases hbare : Gleaner.selectCategories rules path ws.world with ⟨found, world⟩
  rw [hbare] at hkept
  simp only [selectCategories, Memo.getOrTry, h, act, hbare, hkept, Bool.false_eq_true, if_false,
    Memo.insertIfAbsent_of_absent h]

theorem selectCategories_unstored (h : ws.categories.get? path = none)
    (hcancelled : (Gleaner.selectCategories rules path ws.world).1.any Selection.isCancelled = true) :
    selectCategories rules path ws = ((Gleaner.selectCategories rules path ws.world).1,
      { ws with world := (Gleaner.selectCategories rules path ws.world).2 }) := by
  rcases hbare : Gleaner.selectCategories rules path ws.world with ⟨found, world⟩
  rw [hbare] at hcancelled
  simp only [selectCategories, Memo.getOrTry, h, act, hbare, hcancelled, if_true]

end

section

variable {α : Type} (read : Workspace → Memo α) (write : Workspace → Memo α → Workspace)
  {bare : Act (Except MatchError α)} {key : String} {ws : Workspace}

theorem getOrTry_hit {value : α} (h : (read ws).get? key = some value) :
    Memo.getOrTry read write key (act bare) ws = (.ok value, ws) := by
  simp only [Memo.getOrTry, h]

theorem getOrTry_stored {value : α} (hread : ∀ w, read { ws with world := w } = read ws)
    (h : (read ws).get? key = none) (hkept : (bare ws.world).1.toOption = some value) :
    Memo.getOrTry read write key (act bare) ws = ((bare ws.world).1,
      write { ws with world := (bare ws.world).2 } ((read ws).insertIfAbsent key value).1) := by
  rcases hbare : bare ws.world with ⟨_ | kept, w⟩
  · rw [hbare] at hkept
    cases hkept
  · rw [hbare] at hkept
    cases hkept
    simp only [Memo.getOrTry, h, act, hbare, hread, Memo.insertIfAbsent_of_absent h]

theorem getOrTry_unstored (h : (read ws).get? key = none) (hfailed : (bare ws.world).1.toOption = none) :
    Memo.getOrTry read write key (act bare) ws = ((bare ws.world).1, { ws with world := (bare ws.world).2 }) := by
  rcases hbare : bare ws.world with ⟨e | kept, w⟩
  · simp only [Memo.getOrTry, h, act, hbare]
  · rw [hbare] at hfailed
    cases hfailed

/-- what an ask leaves: everything as it was, or the world behind the rules with another table -/
theorem getOrTry_leaves (hread : ∀ w, read { ws with world := w } = read ws) :
    (Memo.getOrTry read write key (act bare) ws).2 = ws ∨
      (Memo.getOrTry read write key (act bare) ws).2 = { ws with world := (bare ws.world).2 } ∨
      ∃ m, (Memo.getOrTry read write key (act bare) ws).2 = write { ws with world := (bare ws.world).2 } m := by
  cases hkept : (read ws).get? key with
  | some kept =>
    rw [getOrTry_hit read write hkept]
    exact .inl rfl
  | none =>
    cases hvalue : (bare ws.world).1.toOption with
    | none =>
      rw [getOrTry_unstored read write hkept hvalue]
      exact .inr (.inl rfl)
    | some kept =>
      rw [getOrTry_stored read write hread hkept hvalue]
      exact .inr (.inr ⟨_, rfl⟩)

end

/-- rewriting a label of a category is up to the normalizers, unless it is kept -/
theorem normalizeCategory_leaves (rules : List Normalizer) (label : String) (ws : Workspace) :
    ∃ world kept, (normalizeCategory rules label ws).2 = { ws with world := world, categoryNormalizers := kept } ∧
      (world = ws.world ∨ world = (normalize rules label ws.world).2) := by
  rcases @getOrTry_leaves _ (·.categoryNormalizers) (fun ws m => { ws with categoryNormalizers := m })
    (normalize rules label) label ws fun _ => rfl with h | h | ⟨m, h⟩
  · exact ⟨_, _, h, .inl rfl⟩
  · exact ⟨_, _, h, .inr rfl⟩
  · exact ⟨_, _, h, .inr rfl⟩

/-- rewriting a text of a node is up to the normalizers, unless it is kept -/
theorem normalizeNode_leaves (rules : List Normalizer) (value : String) (ws : Workspace) :
    ∃ world kept, (normalizeNode rules value ws).2 = { ws with world := world, nodeNormalizers := kept } ∧
      (world = ws.world ∨ world = (normalize rules value ws.world).2) := by
  rcases @getOrTry_leaves _ (·.nodeNormalizers) (fun ws m => { ws with nodeNormalizers := m })
    (normalize rules value) value ws fun _ => rfl with h | h | ⟨m, h⟩
  · exact ⟨_, _, h, .inl rfl⟩
  · exact ⟨_, _, h, .inr rfl⟩
  · exact ⟨_, _, h, .inr rfl⟩

end Workspace

namespace Service

/-- the categories of files, which are kept unless the signal has cut one short -/
def categories (rules : List CategorySelector) : Service (List Selection) (List Selection) where
  ask := Workspace.selectCategories rules
  bare := selectCategories rules
  table := Workspace.categories
  put ws m := { ws with categories := m }
  keep found := if found.any Selection.isCancelled then none else some found
  restore found := found
  restore_keep h := by
    split at h
    · cases h
    · exact (Option.some.inj h).symm
  table_put _ _ := rfl
  world_put _ _ := rfl
  table_world _ _ := rfl
  ask_found := Workspace.selectCategories_hit
  ask_kept h hkept := by
    split at hkept
    · cases hkept
    · rename_i hnot
      cases hkept
      exact Workspace.selectCategories_stored h (Bool.eq_false_iff.2 hnot)
  ask_unkept h hunkept := by
    split at hunkept
    · rename_i hcancelled
      exact Workspace.selectCategories_unstored h hcancelled
    · cases hunkept

/-- what is kept of an answer of normalizers is the answer -/
theorem ok_of_toOption {found : Except MatchError (List Normalized)} {kept : List Normalized}
    (h : found.toOption = some kept) : .ok kept = found := by
  cases found with
  | error e => cases h
  | ok found => exact congrArg Except.ok (Option.some.inj h).symm

/-- labels of categories, rewritten; hard errors are not kept -/
def labels (rules : List Normalizer) : Service (List Normalized) (Except MatchError (List Normalized)) where
  ask := Workspace.normalizeCategory rules
  bare := normalize rules
  table := Workspace.categoryNormalizers
  put ws m := { ws with categoryNormalizers := m }
  keep := Except.toOption
  restore := .ok
  restore_keep := ok_of_toOption
  table_put _ _ := rfl
  world_put _ _ := rfl
  table_world _ _ := rfl
  ask_found := Workspace.getOrTry_hit _ _
  ask_kept :=
    Workspace.getOrTry_stored (·.categoryNormalizers) (fun ws m => { ws with categoryNormalizers := m }) fun _ => rfl
  ask_unkept := Workspace.getOrTry_unstored _ _

/-- texts of nodes, rewritten; hard errors are not kept -/
def nodes (rules : List Normalizer) : Service (List Normalized) (Except MatchError (List Normalized)) where
  ask := Workspace.normalizeNode rules
  bare := normalize rules
  table := Workspace.nodeNormalizers
  put ws m := { ws with nodeNormalizers := m }
  keep := Except.toOption
  restore := .ok
  restore_keep := ok_of_toOption
  table_put _ _ := rfl
  world_put _ _ := rfl
  table_world _ _ := rfl
  ask_found := Workspace.getOrTry_hit _ _
  ask_kept := Workspace.getOrTry_stored (·.nodeNormalizers) (fun ws m => { ws with nodeNormalizers := m }) fun _ => rfl
  ask_unkept := Workspace.getOrTry_unstored _ _

/-! ## Histories -/

/-- what happens to a workspace -/
inductive Event where
  /-- the service is asked with a key and with a signal for this ask -/
  | ask (key : String) (signal : Nat → Bool)
  /-- the world changes -/
  | change (f : World → World)
  /-- the table is cleared -/
  | clear

variable {α ρ : Type} (s : Service α ρ) (start : Workspace)

/-- a workspace with another signal -/
def signalled (ws : Workspace) (signal : Nat → Bool) : Workspace :=
  { ws with world := { ws.world with signal := signal } }

def step (ws : Workspace) : Event → Workspace
  | .ask key signal => (s.ask key (signalled ws signal)).2
  | .change f => { ws with world := f ws.world }
  | .clear => s.put ws .empty

/-- the workspace behind a history -/
def after (history : List Event) : Workspace := history.foldl s.step start

/-- the workspace in which the service is asked behind a history -/
def asked (history : List Event) (signal : Nat → Bool) : Workspace := signalled (s.after start history) signal

/-- what the rules themselves answer behind a history -/
def fresh (history : List Event) (key : String) (signal : Nat → Bool) : ρ :=
  (s.bare key (s.asked start history signal).world).1

/-- an ask with a key since the table was last cleared for which something holds, given what happened before it -/
def Since (p : List Event → (Nat → Bool) → Prop) (history : List Event) (key : String) : Prop :=
  ∃ before signal between, history = before ++ .ask key signal :: between ∧ .clear ∉ between ∧ p before signal

/-- since the table was last cleared the rules have an answer for the key that is kept -/
def Answered (history : List Event) (key : String) : Prop :=
  Since (fun before signal => (s.keep (s.fresh start before key signal)).isSome) history key

/-- the first answer for the key that is kept since the table was last cleared -/
def First (history : List Event) (key : String) (found : α) : Prop :=
  Since (fun before signal => ¬ s.Answered start before key ∧ s.keep (s.fresh start before key signal) = some found)
    history key

/-! ## Histories that grow by an event -/

theorem snoc_eq_split {history before between : List Event} {last e : Event} :
    history ++ [last] = before ++ e :: between ↔
      (between = [] ∧ history = before ∧ last = e) ∨
        ∃ rest, between = rest ++ [last] ∧ history = before ++ e :: rest := by
  constructor
  · intro h
    rcases List.eq_nil_or_concat between with rfl | ⟨rest, l, rfl⟩
    · obtain ⟨hbefore, hlast⟩ := List.append_inj' h rfl
      exact .inl ⟨rfl, hbefore, (List.cons.inj hlast).1⟩
    · rw [List.concat_eq_append, ← List.cons_append, ← List.append_assoc] at h
      obtain ⟨hbefore, hlast⟩ := List.append_inj' h rfl
      exact .inr ⟨rest, by rw [List.concat_eq_append, (List.cons.inj hlast).1], hbefore⟩
  · rintro (⟨rfl, rfl, rfl⟩ | ⟨rest, rfl, rfl⟩)
    · rfl
    · simp

variable {p : List Event → (Nat → Bool) → Prop} {history : List Event} {key other : String}

theorem since_nil : ¬ Since p [] key := by
  rintro ⟨before, signal, between, h, -⟩
  cases before <;> cases h

theorem since_clear : ¬ Since p (history ++ [.clear]) key := by
  rintro ⟨before, signal, between, h, hclear, -⟩
  rcases snoc_eq_split.1 h with ⟨-, -, h⟩ | ⟨rest, rfl, -⟩
  · cases h
  · exact hclear (List.mem_append_right _ List.mem_cons_self)

/-- an event that is neither an ask with the key nor a clearing -/
theorem since_other {last : Event} (hclear : last ≠ .clear) (hask : ∀ signal, last ≠ .ask key signal) :
    Since p (history ++ [last]) key ↔ Since p history key := by
  constructor
  · rintro ⟨before, signal, between, h, hbetween, hp⟩
    rcases snoc_eq_split.1 h with ⟨-, -, hlast⟩ | ⟨rest, rfl, hrest⟩
    · exact absurd hlast (hask signal)
    · exact ⟨before, signal, rest, hrest, fun hmem => hbetween (List.mem_append_left _ hmem), hp⟩
  · rintro ⟨before, signal, between, rfl, hbetween, hp⟩
    refine ⟨before, signal, between ++ [last], by simp, fun hmem => ?_, hp⟩
    rcases List.mem_append.1 hmem with hmem | hmem
    · exact hbetween hmem
    · exact hclear (List.mem_singleton.1 hmem).symm

theorem since_ask {signal : Nat → Bool} :
    Since p (history ++ [.ask key signal]) key ↔ Since p history key ∨ p history signal := by
  constructor
  · rintro ⟨before, signal', between, h, hbetween, hp⟩
    rcases snoc_eq_split.1 h with ⟨-, rfl, hlast⟩ | ⟨rest, rfl, hrest⟩
    · cases hlast
      exact .inr hp
    · exact .inl ⟨before, signal', rest, hrest, fun hmem => hbetween (List.mem_append_left _ hmem), hp⟩
  · rintro (⟨before, signal', between, rfl, hbetween, hp⟩ | hp)
    · refine ⟨before, signal', between ++ [.ask key signal], by simp, fun hmem => ?_, hp⟩
      rcases List.mem_append.1 hmem with hmem | hmem
      · exact hbetween hmem
      · cases List.mem_singleton.1 hmem
    · exact ⟨history, signal, [], rfl, List.not_mem_nil, hp⟩

/-! ## What the table holds -/

variable {s} {start} {ws : Workspace}

/-- behind an ask, its key has what it had or else what is kept of the answer, and all others have what they had -/
theorem get?_ask (s : Service α ρ) (ws : Workspace) (key other : String) :
    (s.table (s.ask key ws).2).get? other =
      if other = key then ((s.table ws).get? key).or (s.keep (s.bare key ws.world).1) else (s.table ws).get? other := by
  cases hkey : (s.table ws).get? key with
  | some a =>
    rw [s.ask_found hkey]
    split
    · rename_i heq
      rw [heq, hkey]
      rfl
    · rfl
  | none =>
    cases hkeep : s.keep (s.bare key ws.world).1 with
    | some a =>
      rw [s.ask_kept hkey hkeep, s.table_put, Memo.get?_insertIfAbsent, Memo.insertIfAbsent_of_absent hkey]
      rfl
    | none =>
      rw [s.ask_unkept hkey hkeep, s.table_world]
      split
      · rename_i heq
        rw [heq, hkey]
        rfl
      · rfl

theorem lawful_ask (h : (s.table ws).Lawful) (key : String) : (s.table (s.ask key ws).2).Lawful := by
  cases hkey : (s.table ws).get? key with
  | some a =>
    rw [s.ask_found hkey]
    exact h
  | none =>
    cases hkeep : s.keep (s.bare key ws.world).1 with
    | some a =>
      rw [s.ask_kept hkey hkeep, s.table_put]
      exact h.insertIfAbsent key a
    | none =>
      rw [s.ask_unkept hkey hkeep, s.table_world]
      exact h

/-- behind an ask whose answer is kept, the table has the keys that it had, and the one that was asked with -/
theorem mem_keys_ask (hkept : ((s.table (s.ask key ws).2).get? key).isSome) (other : String) :
    other ∈ (s.table (s.ask key ws).2).keys ↔ other ∈ (s.table ws).keys ∨ other = key := by
  rw [Memo.mem_keys_iff, Memo.mem_keys_iff, ← Option.isSome_iff_exists, ← Option.isSome_iff_exists]
  by_cases hkey : other = key
  · subst hkey
    exact iff_of_true hkept (.inr rfl)
  · rw [get?_ask, if_neg hkey]
    exact (or_iff_left hkey).symm

theorem table_signalled (s : Service α ρ) (ws : Workspace) (signal : Nat → Bool) :
    s.table (signalled ws signal) = s.table ws := s.table_world ws _

theorem after_append (s : Service α ρ) (start : Workspace) (history : List Event) (last : Event) :
    s.after start (history ++ [last]) = s.step (s.after start history) last := by
  rw [after, List.foldl_append]
  rfl

theorem lawful_after (hstart : s.table start = .empty) (history : List Event) :
    (s.table (s.after start history)).Lawful := by
  induction history using List.reverseRecOn with
  | nil =>
    rw [after, List.foldl_nil, hstart]
    exact List.nodup_nil
  | append_singleton history last ih =>
    rw [after_append]
    cases last with
    | ask key signal => exact lawful_ask (by rwa [table_signalled]) key
    | change f =>
      rw [step, s.table_world]
      exact ih
    | clear =>
      rw [step, s.table_put]
      exact List.nodup_nil

/-- **A table holds first answers**, and nothing for a key without an answer that is kept. -/
theorem get?_after (hstart : s.table start = .empty) (history : List Event) (key : String) :
    (∀ found, (s.table (s.after start history)).get? key = some found ↔ s.First start history key found) ∧
      ((s.table (s.after start history)).get? key = none ↔ ¬ s.Answered start history key) := by
  induction history using List.reverseRecOn with
  | nil =>
    rw [after, List.foldl_nil, hstart]
    exact ⟨fun found => iff_of_false nofun since_nil, iff_of_true rfl since_nil⟩
  | append_singleton history last ih =>
    rw [after_append]
    cases last with
    | clear =>
      rw [step, s.table_put]
      exact ⟨fun found => iff_of_false nofun since_clear, iff_of_true rfl since_clear⟩
    | change f =>
      rw [step, s.table_world]
      have hsame : ∀ p, Since p (history ++ [.change f]) key ↔ Since p history key :=
        fun p => since_other (fun h => nomatch h) fun _ h => nomatch h
      exact ⟨fun found => (ih.1 found).trans (hsame _).symm, ih.2.trans (not_congr (hsame _)).symm⟩
    | ask k signal =>
      rw [step, get?_ask, table_signalled]
      split
      · rename_i heq
        subst heq
        -- the new answer counts only if there was none
        refine ⟨fun found => Iff.trans ?_ since_ask.symm, Iff.trans ?_ (not_congr since_ask).symm⟩
        · exact Option.or_eq_some_iff.trans (or_congr (ih.1 found) (and_congr_left' ih.2))
        · rw [Option.or_eq_none_iff, not_or, Option.not_isSome_iff_eq_none]
          exact and_congr_left' ih.2
      · rename_i hne
        have hsame : ∀ p, Since p (history ++ [.ask k signal]) key ↔ Since p history key :=
          fun p => since_other (fun h => nomatch h) fun _ h => hne (Event.ask.inj h).1.symm
        exact ⟨fun found => (ih.1 found).trans (hsame _).symm, ih.2.trans (not_congr (hsame _)).symm⟩

/-- there is a first answer if there is any that is kept -/
theorem exists_first_iff (hstart : s.table start = .empty) :
    (∃ found, s.First start history key found) ↔ s.Answered start history key := by
  obtain ⟨hfirst, hnone⟩ := get?_after hstart history key
  simp only [← hfirst, ← Option.isSome_iff_exists]
  rw [← not_iff_not, ← hnone, Option.not_isSome_iff_eq_none]

/-! ## What asks give -/

/-- an ask behind a history gives the first answer for its key, or else what the rules answer -/
structure Recalls (s : Service α ρ) (start : Workspace) (history : List Event) (key : String)
    (signal : Nat → Bool) : Prop where
  /-- no rule is evaluated for a first answer -/
  hit : ∀ found, s.First start history key found →
    s.ask key (s.asked start history signal) = (s.restore found, s.asked start history signal)
  /-- without one the rules are evaluated, once -/
  miss : (¬ ∃ found, s.First start history key found) →
    (s.ask key (s.asked start history signal)).1 = s.fresh start history key signal ∧
      (s.ask key (s.asked start history signal)).2.world = (s.bare key (s.asked start history signal).world).2
  /-- and what is kept of their answer is stored -/
  stored : (¬ ∃ found, s.First start history key found) →
    (s.table (s.ask key (s.asked start history signal)).2).get? key = s.keep (s.fresh start history key signal)
  /-- an answer that is not kept is none for the next ask -/
  again : (¬ ∃ found, s.First start history key found) → s.keep (s.fresh start history key signal) = none →
    ¬ ∃ found, s.First start (history ++ [.ask key signal]) key found
  /-- as many entries as there are keys with a first answer -/
  size : (s.table (s.after start history)).size = {key | ∃ found, s.First start history key found}.ncard

/-- **Asks recall first answers.** -/
theorem recalls (hstart : s.table start = .empty) (history : List Event) (key : String) (signal : Nat → Bool) :
    s.Recalls start history key signal := by
  obtain ⟨hfirst, hnone⟩ := get?_after hstart history key
  have htable : s.table (s.asked start history signal) = s.table (s.after start history) := table_signalled s _ signal
  have hmissing : (¬ ∃ found, s.First start history key found) →
      (s.table (s.asked start history signal)).get? key = none := by
    rw [exists_first_iff hstart, htable]
    exact hnone.2
  constructor
  case hit =>
    intro found hfound
    refine s.ask_found ?_
    rw [htable]
    exact (hfirst found).2 hfound
  case miss =>
    intro hno
    cases hkeep : s.keep (s.bare key (s.asked start history signal).world).1 with
    | some a =>
      rw [s.ask_kept (hmissing hno) hkeep, s.world_put]
      exact ⟨rfl, rfl⟩
    | none =>
      rw [s.ask_unkept (hmissing hno) hkeep]
      exact ⟨rfl, rfl⟩
  case stored =>
    intro hno
    rw [get?_ask, if_pos rfl, hmissing hno]
    rfl
  case again =>
    intro hno hkeep
    rw [exists_first_iff hstart] at hno ⊢
    refine (not_congr since_ask).2 (not_or.2 ⟨hno, ?_⟩)
    rw [hkeep]
    exact Bool.false_ne_true
  case size =>
    rw [(lawful_after hstart history).size_eq]
    congr 1
    ext other
    exact exists_congr (get?_after hstart history other).1

end Service

/-- **Answers are recalled as they were first given.** Behind every history of asks (each with its own signal, which
may be up before it starts), changes of the world and clearings, and for any rules:
- an ask gives the answer that the bare rules gave for its key at the first ask since the table was last cleared whose
  answer is kept, and then no rule is evaluated and nothing changes;
- without such an ask the rules are evaluated once, and their answer is stored if it is kept: categories if the signal
  has cut none of them short, rewritten texts if there was no hard error;
- a table has as many entries as there are keys with such an ask. -/
theorem answers_recalled (world : World) (rules : List CategorySelector) (normalizers : List Normalizer)
    (history : List Service.Event) (key : String) (signal : Nat → Bool) :
    (Service.categories rules).Recalls { world := world } history key signal ∧
      (Service.labels normalizers).Recalls { world := world } history key signal ∧
      (Service.nodes normalizers).Recalls { world := world } history key signal :=
  ⟨Service.recalls rfl history key signal, Service.recalls rfl history key signal,
    Service.recalls rfl history key signal⟩

/-- a rule that matches no line, asked while the signal is up, and again before the file goes away -/
def cutHistory : List Service.Event :=
  [.ask "f" fun _ => true, .ask "f" fun _ => false, .change fun world => { world with files := .emptyDir }]

theorem answers_recalled_cut :
    let service := Service.categories [⟨"t", .text, .empty⟩]
    let world : World := { files := .dir [("f", .file [120, 10])] }
    let asked := service.asked { world := world } cutHistory fun _ => false
    (service.ask "f" asked).1.map Selection.isCancelled = [false] ∧ (service.ask "f" asked).2 = asked ∧
      (service.table asked).size = 1 := by
  intro service world asked
  have hfirst : service.First { world := world } cutHistory "f"
      (service.fresh { world := world } [.ask "f" fun _ => true] "f" fun _ => false) := by
    refine ⟨[.ask "f" fun _ => true], fun _ => false, [.change fun world => { world with files := .emptyDir }], rfl,
      by simp, ?_, rfl⟩
    -- the ask before was cut short
    have hcut : ¬ (service.keep (service.fresh { world := world } [] "f" fun _ => true)).isSome := by decide +kernel
    exact fun hanswered => ((@Service.since_ask _ [] "f" _).1 hanswered).elim Service.since_nil hcut
  have hhit := (answers_recalled world [⟨"t", .text, .empty⟩] [] cutHistory "f" fun _ => false).1.hit _ hfirst
  rw [hhit]
  exact ⟨by decide +kernel, rfl, by decide +kernel⟩

end Gleaner
