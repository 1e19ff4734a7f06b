/-
Callers that share a table of results.

A call looks its key up. If there is no result it computes one, and then stores it unless another call has stored one
by then. Each of these is a step of its own (`Memo.Step`), so any steps of other calls may come in between. What calls
compute for the same key may differ, and some may fail. Nobody clears the table meanwhile.

A call whose steps are taken in turn is `Memo.getOrTry`, with the steps of other calls in place of its computation
(`getOrTry_reaches`).

Results:
- `Step.get?_kept`, `Step.ended`: no result is replaced, and a call that has ended has ended for good;
- `reaches_sound`: every answer is what the table holds, and it holds results for the keys of the inserts;
- `callers_agree`: all calls for a key give the result that was stored first, and a call that fails stores nothing.
-/
import Gleaner.Memo
import Mathlib.Logic.Function.Basic
import Mathlib.Logic.Relation

namespace Gleaner

namespace Memo

variable {ι ε α : Type}

/-! ## Calls -/

/-- what a call asks a table for -/
structure Request where
  key : String
  /-- whether the computation may fail -/
  mayFail : Bool

/-- how far a call has come -/
inductive Call (ε α : Type) where
  | ready
  /-- there was no result -/
  | computing
  | computed (value : α)
  /-- there was a result -/
  | found (value : α)
  /-- has been at its insert, where its key had this result in the end -/
  | inserted (value : α)
  | failed (e : ε)

namespace Call

/-- the value that a call has returned -/
def answer? : Call ε α → Option α
  | .found value => some value
  | .inserted value => some value
  | _ => none

/-- a call that has returned a value or failed -/
def Ended : Call ε α → Prop
  | .found _ => True
  | .inserted _ => True
  | .failed _ => True
  | _ => False

end Call

/-- a table and the calls that share it -/
structure Shared (ι ε α : Type) where
  table : Memo α := .empty
  calls : ι → Call ε α := fun _ => .ready

section

variable [DecidableEq ι]

/-- one call has come further -/
def Shared.put (s : Shared ι ε α) (i : ι) (c : Call ε α) : Shared ι ε α :=
  { s with calls := Function.update s.calls i c }

/-- a call is at its insert with a value -/
def Shared.insert (s : Shared ι ε α) (i : ι) (key : String) (value : α) : Shared ι ε α where
  table := (s.table.insertIfAbsent key value).1
  calls := Function.update s.calls i (.inserted (s.table.insertIfAbsent key value).2)

/-- a step of call `i` -/
inductive Step (requests : ι → Request) (i : ι) : Shared ι ε α → Shared ι ε α → Prop where
  | hit {s : Shared ι ε α} {value : α} (h : s.calls i = .ready) (hkey : s.table.get? (requests i).key = some value) :
      Step requests i s (s.put i (.found value))
  | miss {s : Shared ι ε α} (h : s.calls i = .ready) (hkey : s.table.get? (requests i).key = none) :
      Step requests i s (s.put i .computing)
  | compute {s : Shared ι ε α} (value : α) (h : s.calls i = .computing) : Step requests i s (s.put i (.computed value))
  | fail {s : Shared ι ε α} (e : ε) (h : s.calls i = .computing) (hfail : (requests i).mayFail = true) :
      Step requests i s (s.put i (.failed e))
  | insert {s : Shared ι ε α} {value : α} (h : s.calls i = .computed value) :
      Step requests i s (s.insert i (requests i).key value)

/-- calls take steps in any order -/
def Reaches (requests : ι → Request) : Shared ι ε α → Shared ι ε α → Prop :=
  Relation.ReflTransGen fun s t => ∃ i, Step requests i s t

variable {requests : ι → Request} {s t u : Shared ι ε α} {i j : ι}

theorem Shared.put_calls_self (s : Shared ι ε α) (i : ι) (c : Call ε α) : (s.put i c).calls i = c := by
  simp [put]

theorem Shared.insert_calls_self (s : Shared ι ε α) (i : ι) (key : String) (value : α) :
    (s.insert i key value).calls i = .inserted (s.table.insertIfAbsent key value).2 :=
  Function.update_self i _ s.calls

/-! ## What a step does -/

namespace Step

/-- a step is one of its own call only -/
theorem calls_other (h : Step requests i s t) (hne : j ≠ i) : t.calls j = s.calls j := by
  cases h <;> exact Function.update_of_ne hne _ _

/-- **No result is replaced.** -/
theorem get?_kept (h : Step requests i s t) {key : String} {value : α} (hkey : s.table.get? key = some value) :
    t.table.get? key = some value := by
  cases h with
  | @insert computed _ =>
    change (s.table.insertIfAbsent (requests i).key computed).1.get? key = some value
    rw [get?_insertIfAbsent]
    split
    · rename_i heq
      rw [heq] at hkey
      rw [insertIfAbsent_of_kept hkey]
    · exact hkey
  | _ => exact hkey

/-- a call that has ended takes no step -/
theorem not_ended (h : Step requests i s t) : ¬ (s.calls i).Ended := by
  cases h with
  | hit h => rw [h]; exact id
  | miss h => rw [h]; exact id
  | compute value h => rw [h]; exact id
  | fail e h => rw [h]; exact id
  | insert h => rw [h]; exact id

/-- **A call that has ended** has ended for good. -/
theorem ended (h : Step requests i s t) (hj : (s.calls j).Ended) : t.calls j = s.calls j := by
  by_cases hne : j = i
  · exact absurd (hne ▸ hj) h.not_ended
  · exact h.calls_other hne

/-- only an insert writes to the table, and it ends its call -/
theorem table_eq_or_inserted (h : Step requests i s t) : t.table = s.table ∨ ∃ value, t.calls i = .inserted value := by
  cases h with
  | insert => exact .inr ⟨_, s.insert_calls_self i _ _⟩
  | _ => exact .inl rfl

/-- the step of a call that has computed is its insert -/
theorem eq_insert (h : Step requests i s t) {value : α} (hi : s.calls i = .computed value) :
    t = s.insert i (requests i).key value := by
  cases h with
  | hit h => cases hi.symm.trans h
  | miss h => cases hi.symm.trans h
  | compute value h => cases hi.symm.trans h
  | fail e h => cases hi.symm.trans h
  | insert h =>
    cases hi.symm.trans h
    rfl

end Step

theorem Reaches.get?_kept (h : Reaches requests s t) {key : String} {value : α}
    (hkey : s.table.get? key = some value) : t.table.get? key = some value := by
  induction h with
  | refl => exact hkey
  | tail _ hstep ih =>
    obtain ⟨i, hstep⟩ := hstep
    exact hstep.get?_kept ih

theorem Reaches.ended (h : Reaches requests s t) (hj : (s.calls j).Ended) : t.calls j = s.calls j := by
  induction h with
  | refl => rfl
  | tail _ hstep ih =>
    obtain ⟨i, hstep⟩ := hstep
    exact (hstep.ended (ih ▸ hj)).trans ih

/-! ## What holds at all times -/

/-- every answer is what the table holds, and it holds results for the keys of the inserts -/
structure Sound (requests : ι → Request) (s : Shared ι ε α) : Prop where
  answers : ∀ i value, (s.calls i).answer? = some value → s.table.get? (requests i).key = some value
  keys : ∀ key, (s.table.get? key).isSome ↔ ∃ i value, (requests i).key = key ∧ s.calls i = .inserted value

/-- the call that takes a step returns nothing, or what the table then holds -/
theorem Step.answers (h : Step requests i s t) {value : α} (hvalue : (t.calls i).answer? = some value) :
    t.table.get? (requests i).key = some value := by
  cases h with
  | hit _ hkey =>
    rw [Shared.put_calls_self] at hvalue
    cases hvalue
    exact hkey
  | @insert computed _ =>
    rw [Shared.insert_calls_self] at hvalue
    cases hvalue
    change (s.table.insertIfAbsent (requests i).key computed).1.get? (requests i).key = _
    rw [get?_insertIfAbsent, if_pos rfl]
  | _ =>
    rw [Shared.put_calls_self] at hvalue
    cases hvalue

/-- **A step keeps a shared table sound.** -/
theorem Step.sound (h : Step requests i s t) (hs : Sound requests s) : Sound requests t := by
  constructor
  · intro j value hvalue
    by_cases hne : j = i
    · subst hne
      exact h.answers hvalue
    · rw [h.calls_other hne] at hvalue
      exact h.get?_kept (hs.answers j value hvalue)
  · intro key
    constructor
    · intro hkey
      -- the key is new, and then the step was an insert of it, or it was there
      by_cases hold : (s.table.get? key).isSome
      · obtain ⟨j, value, hj, hinserted⟩ := (hs.keys key).1 hold
        exact ⟨j, value, hj, (h.ended (by rw [hinserted]; trivial)).trans hinserted⟩
      · cases h with
        | @insert computed _ =>
          change ((s.table.insertIfAbsent (requests i).key computed).1.get? key).isSome at hkey
          rw [get?_insertIfAbsent] at hkey
          split at hkey
          · rename_i heq
            exact ⟨i, _, heq.symm, s.insert_calls_self i _ _⟩
          · exact absurd hkey hold
        | _ => exact absurd hkey hold
    · rintro ⟨j, value, rfl, hinserted⟩
      by_cases hne : j = i
      · subst hne
        rw [h.answers (by rw [hinserted]; rfl)]
        rfl
      · rw [h.calls_other hne] at hinserted
        obtain ⟨kept, hkept⟩ := Option.isSome_iff_exists.1 ((hs.keys _).2 ⟨j, value, rfl, hinserted⟩)
        rw [h.get?_kept hkept]
        rfl

/-- **A table that calls share is sound at all times.** -/
theorem reaches_sound (h : Reaches requests ({} : Shared ι ε α) s) : Sound requests s := by
  induction h with
  | refl =>
    refine ⟨nofun, fun key => iff_of_false (fun hkey => ?_) fun ⟨_, _, _, hinserted⟩ => ?_⟩
    · cases hkey
    · cases hinserted
  | tail _ hstep ih =>
    obtain ⟨i, hstep⟩ := hstep
    exact hstep.sound ih

/-! ## Calls whose steps are taken in turn -/

/-- **Steps taken in turn** come to what `getOrTry` does: it looks the key up, other calls take their steps while the
computation goes on, and then it stores the result or fails. -/
theorem getOrTry_reaches {r : Except ε α} (hready : s.calls i = .ready)
    (hothers : s.table.get? (requests i).key = none → Reaches requests (s.put i .computing) u)
    (hmine : u.calls i = .computing) (hfail : ∀ e, r = .error e → (requests i).mayFail = true) :
    let told := getOrTry id (fun _ m => m) (requests i).key (fun _ => (r, u.table)) s.table
    ∃ t, Reaches requests s t ∧ t.table = told.2 ∧
      (∀ value, told.1 = .ok value → (t.calls i).answer? = some value) ∧
      ∀ e, told.1 = .error e → t.calls i = .failed e := by
  unfold getOrTry
  cases hkey : s.table.get? (requests i).key with
  | some value =>
    simp only [id, hkey]
    refine ⟨_, .single ⟨i, .hit hready hkey⟩, rfl, ?_, nofun⟩
    rintro _ ⟨⟩
    rw [Shared.put_calls_self]
    rfl
  | none =>
    have hcomputing : Reaches requests s u := .head ⟨i, .miss hready hkey⟩ (hothers hkey)
    simp only [id, hkey]
    cases r with
    | error e =>
      refine ⟨_, hcomputing.tail ⟨i, .fail e hmine (hfail e rfl)⟩, rfl, nofun, ?_⟩
      rintro _ ⟨⟩
      exact u.put_calls_self i _
    | ok value =>
      have hcomputed : Reaches requests s (u.put i (.computed value)) := hcomputing.tail ⟨i, .compute value hmine⟩
      refine ⟨_, hcomputed.tail ⟨i, .insert (u.put_calls_self i _)⟩, rfl, ?_, nofun⟩
      rintro _ ⟨⟩
      rw [Shared.insert_calls_self]
      rfl

/-! ## Callers agree -/

/-- **Callers of one table agree.** However calls that begin with an empty table take turns, the following holds at any
time, and from any earlier time to a later one.
- What calls for the same key return is the same, and it is what the table holds for the key.
- The first insert for a key decides: from then on the table holds its value, and this is what all calls return.
- No result is ever replaced.
- No step of a call that fails changes the table.
- The table holds results for just the keys for which a call that has computed a value has come to its insert.
- A call that begins then can come to what `getOrTry` gives and leaves, whatever others do while it computes. -/
theorem callers_agree (hs : Reaches requests ({} : Shared ι ε α) s) (ht : Reaches requests s t) :
    (∀ i j v w, (requests i).key = (requests j).key → (t.calls i).answer? = some v → (t.calls j).answer? = some w →
        v = w ∧ t.table.get? (requests i).key = some v) ∧
      (∀ i u v, s.calls i = .computed v → s.table.get? (requests i).key = none → Step requests i s u →
        Reaches requests u t → t.table.get? (requests i).key = some v ∧
          ∀ j w, (requests j).key = (requests i).key → (t.calls j).answer? = some w → w = v) ∧
      (∀ key v, s.table.get? key = some v → t.table.get? key = some v) ∧
      (∀ i u e, Step requests i s u → Reaches requests u t → t.calls i = .failed e → u.table = s.table) ∧
      (∀ key, (t.table.get? key).isSome ↔ ∃ i v, (requests i).key = key ∧ t.calls i = .inserted v) ∧
      ∀ i u (r : Except ε α), t.calls i = .ready →
        (t.table.get? (requests i).key = none → Reaches requests (t.put i .computing) u) → u.calls i = .computing →
        (∀ e, r = .error e → (requests i).mayFail = true) →
        let told := getOrTry id (fun _ m => m) (requests i).key (fun _ => (r, u.table)) t.table
        ∃ t', Reaches requests t t' ∧ t'.table = told.2 ∧
          (∀ value, told.1 = .ok value → (t'.calls i).answer? = some value) ∧
          ∀ e, told.1 = .error e → t'.calls i = .failed e := by
  have hsound : Sound requests t := reaches_sound (hs.trans ht)
  refine ⟨?_, ?_, fun key v hkey => ht.get?_kept hkey, ?_, hsound.keys, fun i u r => getOrTry_reaches⟩
  · intro i j v w hkeys hv hw
    have hi := hsound.answers i v hv
    have hj := hsound.answers j w hw
    rw [hkeys, hj] at hi
    exact ⟨(Option.some.inj hi).symm, hsound.answers i v hv⟩
  · intro i u v hcomputed hnew hstep hlater
    have hstored : u.table.get? (requests i).key = some v := by
      rw [hstep.eq_insert hcomputed]
      change (s.table.insertIfAbsent (requests i).key v).1.get? (requests i).key = some v
      rw [get?_insertIfAbsent, if_pos rfl, insertIfAbsent_of_absent hnew]
    have hkept := hlater.get?_kept hstored
    refine ⟨hkept, fun j w hkeys hw => ?_⟩
    have hj := hsound.answers j w hw
    rw [hkeys, hkept] at hj
    exact (Option.some.inj hj).symm
  · intro i u e hstep hlater hfailed
    rcases hstep.table_eq_or_inserted with htable | ⟨value, hinserted⟩
    · exact htable
    · have hstays := hlater.ended (j := i) (by rw [hinserted]; trivial)
      rw [hinserted, hfailed] at hstays
      cases hstays

end

/-- three calls for one key, the last of which may fail -/
def raceRequests (i : Fin 3) : Request := ⟨"k", i == 2⟩

/-- all three find nothing, and then one computes 8, one 7, and one fails -/
def raced : Shared (Fin 3) Unit Nat :=
  let computing : Shared (Fin 3) Unit Nat := (((({} : Shared (Fin 3) Unit Nat).put 0 .computing).put 1 .computing).put 2
    .computing)
  ((computing.put 1 (.computed 8)).put 0 (.computed 7)).put 2 (.failed ())

theorem reaches_raced : Reaches raceRequests {} raced := by
  have hmissed : Reaches raceRequests ({} : Shared (Fin 3) Unit Nat)
      (((({} : Shared (Fin 3) Unit Nat).put 0 .computing).put 1 .computing).put 2 .computing) :=
    ((Relation.ReflTransGen.single ⟨0, .miss rfl rfl⟩).tail ⟨1, .miss rfl rfl⟩).tail ⟨2, .miss rfl rfl⟩
  exact ((hmissed.tail ⟨1, .compute 8 rfl⟩).tail ⟨0, .compute 7 rfl⟩).tail ⟨2, .fail () rfl rfl⟩

/-- the call that comes second to its insert returns what the first has stored, and so does `getOrTry` if another call
has come to its insert while it has computed -/
theorem callers_agree_raced :
    (∃ t, Reaches raceRequests raced t ∧ t.calls 0 = .inserted 8 ∧ t.calls 1 = .inserted 8 ∧
      t.table.get? "k" = some 8 ∧ ∀ j w, (t.calls j).answer? = some w → w = 8) ∧
    ∃ (u t : Shared (Fin 3) Unit Nat), u.calls 1 = .inserted 8 ∧ Reaches raceRequests {} t ∧
      getOrTry id (fun _ m => m) "k" (fun _ => ((.ok 7 : Except Unit Nat), u.table)) .empty = (.ok 8, t.table) ∧
      (t.calls 0).answer? = some 8 := by
  constructor
  · have hfirst : Step raceRequests 1 raced (raced.insert 1 "k" 8) := .insert rfl
    have hsecond : Reaches raceRequests (raced.insert 1 "k" 8) ((raced.insert 1 "k" 8).insert 0 "k" 7) :=
      .single ⟨0, .insert rfl⟩
    have hrun := hsecond.head ⟨1, hfirst⟩
    obtain ⟨hkept, hanswers⟩ := (callers_agree reaches_raced hrun).2.1 1 _ 8 rfl rfl hfirst hsecond
    exact ⟨_, hrun, rfl, rfl, hkept, fun j w => hanswers j w rfl⟩
  · let start : Shared (Fin 3) Unit Nat := {}
    let other : Shared (Fin 3) Unit Nat := ((start.put 0 .computing).put 1 .computing).put 1 (.computed 8)
    have hothers : Reaches raceRequests (start.put 0 .computing) (other.insert 1 "k" 8) :=
      ((Relation.ReflTransGen.single ⟨1, .miss rfl rfl⟩).tail ⟨1, .compute 8 rfl⟩).tail ⟨1, .insert rfl⟩
    have hstart : Reaches raceRequests {} start := .refl
    obtain ⟨t, hreaches, htable, hgives, -⟩ :=
      (callers_agree hstart .refl).2.2.2.2.2 0 _ (.ok 7) rfl (fun _ => hothers) rfl nofun
    exact ⟨_, t, rfl, hreaches, Prod.ext rfl htable.symm, hgives 8 rfl⟩

end Memo

end Gleaner
