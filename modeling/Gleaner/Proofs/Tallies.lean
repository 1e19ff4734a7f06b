/-
What a table of measurements holds.

A sample is entered under two names, one for all calls of its key and one for those that ended as it did. No two keys
share a name, whatever they end in (`entryName_inj`), since a name ends in another letter for calls, successes and
failures. The table keeps its names in order and adds the samples of each up (`lookup_tally`). Times are numbers without
a bound here.
-/
import Gleaner.Counters
import Mathlib.Algebra.GroupWithZero.Nat
import Mathlib.Data.List.Induction
import Mathlib.Data.String.Basic

namespace Gleaner

/-! ## Names -/

/-- the name under which the calls of a key are counted, or those of them that ended in some way -/
def entryName (key : String) : Option CallEnd → String
  | none => key ++ "-call"
  | some outcome => key ++ "-" ++ outcome.suffix

/-- the letter a name ends in -/
def entryLetter : Option CallEnd → Char
  | none => 'l'
  | some .success => 's'
  | some .failure => 'r'

theorem getLast?_entryName (key : String) (outcome : Option CallEnd) :
    (entryName key outcome).toList.getLast? = some (entryLetter outcome) := by
  rcases outcome with - | - | - <;> simp [entryName, entryLetter, CallEnd.suffix]

/-- **No two keys share a name**, nor do two kinds of calls of one key. -/
theorem entryName_inj {key other : String} {o p : Option CallEnd} :
    entryName key o = entryName other p ↔ key = other ∧ o = p := by
  constructor
  · intro h
    have hletter : entryLetter o = entryLetter p := by
      rw [← Option.some_inj, ← getLast?_entryName key, ← getLast?_entryName other, h]
    have houtcome : o = p := by
      rcases o with - | - | - <;> rcases p with - | - | - <;> first | rfl | cases hletter
    subst houtcome
    refine ⟨?_, rfl⟩
    have hchars := congrArg String.toList h
    refine String.toList_inj.1 ?_
    rcases o with - | - | - <;> simpa [entryName] using hchars
  · rintro ⟨rfl, rfl⟩
    rfl

namespace Sample

/-- the names under which a sample is entered -/
def names (s : Sample) : List String :=
  [entryName (sanitizeKey s.key) none, entryName (sanitizeKey s.key) (some s.outcome)]

/-- a sample counts for a key and a kind of calls -/
def CountsFor (key : String) (outcome : Option CallEnd) (s : Sample) : Prop :=
  sanitizeKey s.key = key ∧ (outcome = none ∨ outcome = some s.outcome)

instance (key : String) (outcome : Option CallEnd) (s : Sample) : Decidable (s.CountsFor key outcome) :=
  inferInstanceAs (Decidable (_ ∧ _))

theorem entryName_mem_names {s : Sample} {key : String} {outcome : Option CallEnd} :
    entryName key outcome ∈ s.names ↔ s.CountsFor key outcome := by
  simp only [names, List.mem_cons, List.not_mem_nil, or_false, entryName_inj, CountsFor]
  constructor
  · rintro (⟨rfl, rfl⟩ | ⟨rfl, rfl⟩)
    · exact ⟨rfl, .inl rfl⟩
    · exact ⟨rfl, .inr rfl⟩
  · rintro ⟨rfl, rfl | rfl⟩
    · exact .inl ⟨rfl, rfl⟩
    · exact .inr ⟨rfl, rfl⟩

end Sample

/-! ## Tables -/

/-- the names of a table are in order -/
def Rising (table : List (String × Aggregate)) : Prop := table.Pairwise fun a b => a.1 < b.1

theorem lookup_cons_eq (k : String) (a : Aggregate) (rest : List (String × Aggregate)) (name : String) :
    ((k, a) :: rest).lookup name = if name = k then some a else rest.lookup name := by
  rw [List.lookup_cons]
  by_cases h : name = k
  · simp [h]
  · have hne : (name == k) = false := by simpa using h
    rw [hne, if_neg h]

theorem lookup_eq_none_of_lt {table : List (String × Aggregate)} {name : String} (h : ∀ e ∈ table, name < e.1) :
    table.lookup name = none :=
  List.lookup_eq_none_iff.2 fun e he => by simpa using (h e he).ne

theorem mem_addEntry {key : String} {micros : Nat} {table : List (String × Aggregate)} {e : String × Aggregate}
    (he : e ∈ addEntry key micros table) : e.1 = key ∨ ∃ a, (e.1, a) ∈ table := by
  induction table with
  | nil =>
    rw [addEntry, List.mem_singleton] at he
    exact .inl (congrArg Prod.fst he)
  | cons first rest ih =>
    obtain ⟨k, a⟩ := first
    unfold addEntry at he
    split at he
    · rename_i heq
      rcases List.mem_cons.1 he with rfl | he
      · exact .inl heq.symm
      · exact .inr ⟨e.2, List.mem_cons_of_mem _ he⟩
    · split at he
      · rcases List.mem_cons.1 he with rfl | he
        · exact .inl rfl
        · exact .inr ⟨e.2, he⟩
      · rcases List.mem_cons.1 he with rfl | he
        · exact .inr ⟨a, List.mem_cons_self⟩
        · exact (ih he).imp_right fun ⟨b, hb⟩ => ⟨b, List.mem_cons_of_mem _ hb⟩

theorem Rising.addEntry {table : List (String × Aggregate)} (h : Rising table) (key : String) (micros : Nat) :
    Rising (addEntry key micros table) := by
  induction table with
  | nil => exact List.pairwise_singleton _ _
  | cons first rest ih =>
    obtain ⟨k, a⟩ := first
    obtain ⟨hfirst, hrest⟩ := List.pairwise_cons.1 h
    unfold Gleaner.addEntry
    split
    · exact List.pairwise_cons.2 ⟨hfirst, hrest⟩
    · split
      · rename_i hlt
        refine List.pairwise_cons.2 ⟨fun e he => ?_, h⟩
        rcases List.mem_cons.1 he with rfl | he
        · exact hlt
        · exact hlt.trans (hfirst e he)
      · rename_i hne hnlt
        refine List.pairwise_cons.2 ⟨fun e he => ?_, ih hrest⟩
        rcases mem_addEntry he with hkey | ⟨b, hb⟩
        · exact hkey ▸ lt_of_le_of_ne (not_lt.1 hnlt) (Ne.symm hne)
        · exact hfirst (e.1, b) hb

/-- **One entry is added to**, and the others stay as they are. -/
theorem lookup_addEntry {table : List (String × Aggregate)} (h : Rising table) (key : String) (micros : Nat)
    (name : String) :
    (addEntry key micros table).lookup name =
      if name = key then some (((table.lookup key).getD {}).add micros) else table.lookup name := by
  induction table with
  | nil => rw [addEntry, lookup_cons_eq]; rfl
  | cons first rest ih =>
    obtain ⟨k, a⟩ := first
    obtain ⟨hfirst, hrest⟩ := List.pairwise_cons.1 h
    unfold addEntry
    split
    · rename_i heq
      subst heq
      simp only [lookup_cons_eq]
      split <;> rfl
    · rename_i hne
      split
      · rename_i hlt
        have habsent : ((k, a) :: rest).lookup key = none := lookup_eq_none_of_lt fun e he => by
          rcases List.mem_cons.1 he with rfl | he
          · exact hlt
          · exact hlt.trans (hfirst e he)
        rw [habsent, lookup_cons_eq]
        rfl
      · rw [lookup_cons_eq, ih hrest, lookup_cons_eq, lookup_cons_eq, if_neg hne]
        split
        · rename_i heq
          rw [if_neg (fun h => hne (h.symm.trans heq))]
        · rfl

/-- the entry for some samples; there is none without samples -/
def summedUp (samples : List Sample) : Option Aggregate :=
  if samples.isEmpty then none else some ⟨samples.length, (samples.map (·.micros)).sum⟩

theorem summedUp_append (samples : List Sample) (s : Sample) :
    summedUp (samples ++ [s]) = some (((summedUp samples).getD {}).add s.micros) := by
  cases samples <;> simp [summedUp, Aggregate.add, Nat.add_assoc]

theorem tally_append (samples : List Sample) (s : Sample) :
    tally (samples ++ [s]) = addSample (tally samples) s := by
  rw [tally, List.foldl_append]
  rfl

theorem addSample_eq (table : List (String × Aggregate)) (s : Sample) :
    addSample table s = addEntry (entryName (sanitizeKey s.key) (some s.outcome)) s.micros
      (addEntry (entryName (sanitizeKey s.key) none) s.micros table) := rfl

theorem tally_rising (samples : List Sample) : Rising (tally samples) := by
  induction samples using List.reverseRecOn with
  | nil => exact List.Pairwise.nil
  | append_singleton samples s ih =>
    rw [tally_append, addSample_eq]
    exact (ih.addEntry _ _).addEntry _ _

/-- **A table sums up** under each name the samples that are entered there, each of them once. -/
theorem lookup_tally (samples : List Sample) (name : String) :
    (tally samples).lookup name = summedUp (samples.filter fun s => name ∈ s.names) := by
  induction samples using List.reverseRecOn with
  | nil => rfl
  | append_singleton samples s ih =>
    have hnames : entryName (sanitizeKey s.key) none ≠ entryName (sanitizeKey s.key) (some s.outcome) :=
      fun h => nomatch (entryName_inj.1 h).2
    rw [tally_append, addSample_eq, lookup_addEntry ((tally_rising samples).addEntry _ _),
      lookup_addEntry (tally_rising samples), lookup_addEntry (tally_rising samples), List.filter_append]
    by_cases hboth : name ∈ s.names
    · have hlast : [s].filter (fun s => name ∈ s.names) = [s] := by simp [hboth]
      rw [hlast, summedUp_append, ← ih]
      rcases List.mem_pair.1 hboth with rfl | rfl
      · rw [if_neg hnames, if_pos rfl]
      · rw [if_pos rfl, if_neg hnames.symm]
    · have hlast : [s].filter (fun s => name ∈ s.names) = [] := by simp [hboth]
      rw [hlast, List.append_nil, ← ih, if_neg fun h => hboth (List.mem_pair.2 (.inr h)),
        if_neg fun h => hboth (List.mem_pair.2 (.inl h))]

/-- how many calls a table counts under a name -/
def countAt (table : List (String × Aggregate)) (name : String) : Nat :=
  ((table.lookup name).map (·.count)).getD 0

/-- **A table counts** for each key and kind of calls the samples that count for it. -/
theorem countAt_tally (samples : List Sample) (key : String) (outcome : Option CallEnd) :
    countAt (tally samples) (entryName key outcome) = samples.countP fun s => s.CountsFor key outcome := by
  simp only [countAt, lookup_tally, Sample.entryName_mem_names, List.countP_eq_length_filter]
  cases samples.filter fun s => s.CountsFor key outcome <;> rfl

/-- all calls are those that succeeded and those that failed -/
theorem countAt_tally_add (samples : List Sample) (key : String) :
    countAt (tally samples) (entryName key none) =
      countAt (tally samples) (entryName key (some .success)) +
        countAt (tally samples) (entryName key (some .failure)) := by
  simp only [countAt_tally]
  have hone : ∀ s : Sample, (if s.CountsFor key none then 1 else 0) =
      (if s.CountsFor key (some .success) then 1 else 0) + if s.CountsFor key (some .failure) then 1 else 0 := by
    rintro ⟨name, outcome, micros⟩
    by_cases hkey : sanitizeKey name = key <;> cases outcome <;> simp [Sample.CountsFor, hkey]
  induction samples with
  | nil => rfl
  | cons s rest ih =>
    have := hone s
    simp only [List.countP_cons, decide_eq_true_eq]
    omega

/-- what is in a table has been measured -/
theorem exists_sample_of_lookup {samples : List Sample} {name : String} {a : Aggregate}
    (h : (tally samples).lookup name = some a) : ∃ s ∈ samples, name ∈ s.names := by
  rw [lookup_tally] at h
  by_contra hnone
  have hempty : samples.filter (fun s => name ∈ s.names) = [] :=
    List.filter_eq_nil_iff.2 fun s hs hname => hnone ⟨s, hs, by simpa using hname⟩
  rw [hempty] at h
  cases h

end Gleaner
