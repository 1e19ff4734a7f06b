/-
How samples come together.

Calls record samples in a channel with room for so many messages. A call whose sample finds no room waits until there
is. One worker takes the messages out of the channel in their order and enters the samples into its table. To close the
collector a message of another kind is sent, which waits for room as the others do. The worker answers it with its
table and ends, and with it the channel: samples that come later are dropped. All of them take their steps in any order
(`Collector.Step`), and nothing is assumed about who gets the room there is.

`Collector.log` are the messages that have entered the channel. The collector itself does not look at it.

Results:
- `Step.sound`: the table is that of the messages that have been taken out, or that stand before the closing one;
- `exists_done`: closing can be brought to its end at any time;
- `snapshot_exact`: the table that closing gives counts just the samples that entered before the closing message.
-/
import Gleaner.Proofs.Tallies
import Mathlib.Data.List.Nodup
import Mathlib.Logic.Function.Basic
import Mathlib.Logic.Relation

namespace Gleaner

namespace Collector

/-- what goes through the channel: the sample of a call, or the message that closes the collector -/
inductive Message (ι : Type) where
  | sample (call : ι)
  | close

/-- how far a call that records a sample has come -/
inductive Recorder where
  | ready
  /-- has found no room -/
  | waiting
  /-- has returned; its sample is in the channel or has been -/
  | sent
  /-- has returned without its sample -/
  | dropped

/-- how far closing has come -/
inductive Closer where
  | idle
  /-- has been called; its message is not in the channel yet -/
  | waiting
  /-- its message has entered the channel -/
  | sent
  | done (table : List (String × Aggregate))

inductive Worker where
  | running (table : List (String × Aggregate))
  /-- has answered the closing message -/
  | replied (table : List (String × Aggregate))
  | stopped (table : List (String × Aggregate))

end Collector

structure Collector (ι : Type) where
  queue : List (Collector.Message ι) := []
  worker : Collector.Worker := .running []
  recorders : ι → Collector.Recorder := fun _ => .ready
  closer : Collector.Closer := .idle
  /-- all messages that have entered the channel, the oldest first -/
  log : List (Collector.Message ι) := []

namespace Collector

variable {ι : Type}

/-- the channel takes messages until the worker has ended -/
def Worker.IsOpen : Worker → Prop
  | .stopped _ => False
  | _ => True

/-- a call has returned -/
def Recorder.HasReturned (r : Recorder) : Prop := r = .sent ∨ r = .dropped

/-- there is room for a message -/
def HasRoom (capacity : Nat) (c : Collector ι) : Prop := c.worker.IsOpen ∧ c.queue.length < capacity

/-- a message enters the channel -/
def push (c : Collector ι) (m : Message ι) : Collector ι := { c with queue := c.queue ++ [m], log := c.log ++ [m] }

variable {samples : ι → Sample} {c : Collector ι}

/-! ## What has entered the channel -/

/-- the table of some calls -/
def tableOf (samples : ι → Sample) (calls : List ι) : List (String × Aggregate) := tally (calls.map samples)

/-- the closing message has entered behind the samples of some calls, and their table is given -/
def Answered (samples : ι → Sample) (log : List (Message ι)) (table : List (String × Aggregate)) : Prop :=
  ∃ calls later, log = calls.map .sample ++ .close :: later ∧ table = tableOf samples calls

theorem Answered.mono {log log' : List (Message ι)} {table : List (String × Aggregate)}
    (h : Answered samples log table) (hlog : log <+: log') : Answered samples log' table := by
  obtain ⟨calls, later, rfl, htable⟩ := h
  obtain ⟨more, rfl⟩ := hlog
  exact ⟨calls, later ++ more, by simp, htable⟩

theorem Answered.close_mem {log : List (Message ι)} {table : List (String × Aggregate)}
    (h : Answered samples log table) : .close ∈ log := by
  obtain ⟨calls, later, rfl, -⟩ := h
  simp

/-- what the worker has is the table of the samples it has taken out, or of those before the closing message -/
def Counted (samples : ι → Sample) (log queue : List (Message ι)) : Worker → Prop
  | .running table => ∃ calls, log = calls.map .sample ++ queue ∧ table = tableOf samples calls
  | .replied table => Answered samples log table
  | .stopped table => Answered samples log table

/-- what stands before a message, if what has entered by some time does not have it -/
theorem prefix_of_notMem {xs ys zs : List (Message ι)} {m : Message ι} (h : xs <+: ys ++ m :: zs) (hm : m ∉ xs) :
    xs <+: ys := by
  rcases List.prefix_or_prefix_of_prefix h (List.prefix_append ys (m :: zs)) with hxs | ⟨more, rfl⟩
  · exact hxs
  · cases more with
    | nil => simp
    | cons first rest =>
      obtain ⟨after, hafter⟩ := h
      rw [List.append_assoc] at hafter
      have hfirst := (List.cons.inj (List.append_cancel_left hafter)).1
      exact absurd (by simp [hfirst]) hm

/-! ## What holds at all times -/

structure Sound (samples : ι → Sample) (c : Collector ι) : Prop where
  /-- no message enters twice -/
  nodup : c.log.Nodup
  sent : ∀ i, .sample i ∈ c.log ↔ c.recorders i = .sent
  dropped : ∀ i, c.recorders i = .dropped → ∃ table, c.worker = .stopped table
  closing : .close ∈ c.log ↔ c.closer = .sent ∨ ∃ table, c.closer = .done table
  counted : Counted samples c.log c.queue c.worker
  done : ∀ table, c.closer = .done table → c.worker = .stopped table

theorem sound_start : Sound samples ({} : Collector ι) where
  nodup := List.nodup_nil
  sent _ := iff_of_false List.not_mem_nil nofun
  dropped _ h := by cases h
  closing := iff_of_false List.not_mem_nil fun h => by rcases h with h | ⟨table, h⟩ <;> cases h
  counted := ⟨[], rfl, rfl⟩
  done _ h := by cases h

/-- a message that is new enters the channel -/
theorem Counted.push {log queue : List (Message ι)} {worker : Worker} (h : Counted samples log queue worker)
    (m : Message ι) : Counted samples (log ++ [m]) (queue ++ [m]) worker := by
  cases worker with
  | running table =>
    obtain ⟨calls, hlog, htable⟩ := h
    exact ⟨calls, by rw [hlog, List.append_assoc], htable⟩
  | replied table => exact h.mono (List.prefix_append _ _)
  | stopped table => exact h.mono (List.prefix_append _ _)

/-- the worker has ended only if closing was called -/
theorem Sound.close_mem (h : Sound samples c) {table : List (String × Aggregate)} (hstopped : c.worker = .stopped table) :
    .close ∈ c.log := by
  have hcounted := h.counted
  rw [hstopped] at hcounted
  exact hcounted.close_mem

/-- while closing waits, its message has not entered -/
theorem Sound.close_notMem (h : Sound samples c) (hbefore : c.closer = .idle ∨ c.closer = .waiting) :
    .close ∉ c.log := by
  intro hmem
  rcases h.closing.1 hmem with hc | ⟨table, hc⟩ <;> rcases hbefore with hb | hb <;> cases hb.symm.trans hc

theorem nodup_push (h : c.log.Nodup) {m : Message ι} (hnew : m ∉ c.log) : (c.push m).log.Nodup := by
  have hlog : (c.push m).log = c.log.concat m := (List.concat_eq_append ..).symm
  rw [hlog]
  exact h.concat hnew

/-- the worker moves on while it runs -/
theorem Sound.move (h : Sound samples c) {table : List (String × Aggregate)} (hrunning : c.worker = .running table)
    {queue : List (Message ι)} {worker : Worker} (hcounted : Counted samples c.log queue worker) :
    Sound samples { c with queue := queue, worker := worker } := by
  have hnotStopped : ∀ t, c.worker ≠ .stopped t := fun t h => by cases hrunning.symm.trans h
  refine ⟨h.nodup, h.sent, fun i hi => ?_, h.closing, hcounted, fun t ht => absurd (h.done t ht) (hnotStopped t)⟩
  obtain ⟨t, hstopped⟩ := h.dropped i hi
  exact absurd hstopped (hnotStopped t)

/-- the closing message enters the channel -/
theorem Sound.sendClose (h : Sound samples c) (hwaiting : c.closer = .waiting) :
    Sound samples { c.push .close with closer := .sent } where
  nodup := nodup_push h.nodup (h.close_notMem (.inr hwaiting))
  sent j := by
    simp only [push, List.mem_append, List.mem_singleton, reduceCtorEq, or_false]
    exact h.sent j
  dropped := h.dropped
  closing := iff_of_true (List.mem_append_right _ List.mem_cons_self) (.inl rfl)
  counted := h.counted.push _
  done _ hdone := by cases hdone

section

variable [DecidableEq ι]

/-! ## Steps -/

/-- a call has come further -/
def setRecorder (c : Collector ι) (i : ι) (r : Recorder) : Collector ι :=
  { c with recorders := Function.update c.recorders i r }

/-- a step of a call that records, of closing, or of the worker; `samples` are the samples of the calls -/
inductive Step (capacity : Nat) (samples : ι → Sample) : Collector ι → Collector ι → Prop where
  | record {c : Collector ι} {i : ι} (h : c.recorders i = .ready ∨ c.recorders i = .waiting)
      (hroom : c.HasRoom capacity) : Step capacity samples c ((c.push (.sample i)).setRecorder i .sent)
  | wait {c : Collector ι} {i : ι} (h : c.recorders i = .ready) (hopen : c.worker.IsOpen)
      (hfull : capacity ≤ c.queue.length) : Step capacity samples c (c.setRecorder i .waiting)
  | drop {c : Collector ι} {i : ι} (h : c.recorders i = .ready ∨ c.recorders i = .waiting)
      {table : List (String × Aggregate)} (hstopped : c.worker = .stopped table) :
      Step capacity samples c (c.setRecorder i .dropped)
  | close {c : Collector ι} (h : c.closer = .idle) : Step capacity samples c { c with closer := .waiting }
  | sendClose {c : Collector ι} (h : c.closer = .waiting) (hroom : c.HasRoom capacity) :
      Step capacity samples c { c.push .close with closer := .sent }
  /-- nobody is there to answer -/
  | refuseClose {c : Collector ι} (h : c.closer = .waiting) {table : List (String × Aggregate)}
      (hstopped : c.worker = .stopped table) : Step capacity samples c { c with closer := .done [] }
  | count {c : Collector ι} {i : ι} {rest : List (Message ι)} {table : List (String × Aggregate)}
      (h : c.worker = .running table) (hqueue : c.queue = .sample i :: rest) :
      Step capacity samples c { c with queue := rest, worker := .running (addSample table (samples i)) }
  | reply {c : Collector ι} {rest : List (Message ι)} {table : List (String × Aggregate)}
      (h : c.worker = .running table) (hqueue : c.queue = .close :: rest) :
      Step capacity samples c { c with queue := rest, worker := .replied table }
  | stop {c : Collector ι} {table : List (String × Aggregate)} (h : c.worker = .replied table) :
      Step capacity samples c { c with queue := [], worker := .stopped table }
  /-- closing has got its answer, and the worker has ended -/
  | finish {c : Collector ι} {table : List (String × Aggregate)} (h : c.closer = .sent)
      (hstopped : c.worker = .stopped table) : Step capacity samples c { c with closer := .done table }

/-- all take steps in any order -/
def Reaches (capacity : Nat) (samples : ι → Sample) : Collector ι → Collector ι → Prop :=
  Relation.ReflTransGen (Step capacity samples)

variable {capacity : Nat} {d : Collector ι} {i : ι}

/-- nothing is taken back from the channel -/
theorem Step.log_prefix (h : Step capacity samples c d) : c.log <+: d.log := by
  cases h with
  | record => exact List.prefix_append _ _
  | sendClose => exact List.prefix_append _ _
  | _ => exact List.prefix_refl _

theorem Reaches.log_prefix (h : Reaches capacity samples c d) : c.log <+: d.log := by
  induction h with
  | refl => exact List.prefix_refl _
  | tail _ hstep ih => exact ih.trans hstep.log_prefix

/-- a call that has not sent its sample comes further, and no message enters -/
theorem Sound.setRecorder (h : Sound samples c) {r : Recorder} (hbefore : c.recorders i ≠ .sent) (hr : r ≠ .sent)
    (hdropped : r = .dropped → ∃ table, c.worker = .stopped table) : Sound samples (c.setRecorder i r) where
  nodup := h.nodup
  sent j := by
    refine (h.sent j).trans ?_
    by_cases hj : j = i
    · subst hj
      simp [Collector.setRecorder, hbefore, hr]
    · simp [Collector.setRecorder, hj]
  dropped j hj := by
    by_cases hji : j = i
    · subst hji
      exact hdropped (by simpa [Collector.setRecorder] using hj)
    · exact h.dropped j (by simpa [Collector.setRecorder, hji] using hj)
  closing := h.closing
  counted := h.counted
  done := h.done

/-- a sample enters the channel -/
theorem Sound.record (h : Sound samples c) (hi : c.recorders i = .ready ∨ c.recorders i = .waiting) :
    Sound samples ((c.push (.sample i)).setRecorder i .sent) where
  nodup := by
    have hnew : .sample i ∉ c.log := fun hmem => by
      rcases hi with hi | hi <;> cases hi.symm.trans ((h.sent i).1 hmem)
    exact nodup_push h.nodup hnew
  sent j := by
    simp only [Collector.setRecorder, push, List.mem_append, List.mem_singleton, Message.sample.injEq, h.sent j]
    by_cases hj : j = i
    · subst hj
      simp
    · simp [hj]
  dropped j hj := by
    by_cases hji : j = i
    · subst hji
      simp [Collector.setRecorder] at hj
    · exact h.dropped j (by simpa [Collector.setRecorder, push, hji] using hj)
  closing := by
    simp only [Collector.setRecorder, push, List.mem_append, List.mem_singleton, reduceCtorEq, or_false]
    exact h.closing
  counted := h.counted.push _
  done := h.done

/-- **A step keeps a collector sound.** -/
theorem Step.sound (h : Step capacity samples c d) (hc : Sound samples c) : Sound samples d := by
  cases h with
  | record hi _ => exact hc.record hi
  | wait hi _ _ => exact hc.setRecorder (by rw [hi]; nofun) nofun nofun
  | drop hi hstopped =>
    exact hc.setRecorder (by rcases hi with hi | hi <;> rw [hi] <;> nofun) nofun fun _ => ⟨_, hstopped⟩
  | close hidle =>
    have hnot : ¬ (Closer.waiting = .sent ∨ ∃ table, Closer.waiting = .done table) := by
      rintro (h | ⟨table, h⟩) <;> cases h
    exact ⟨hc.nodup, hc.sent, hc.dropped, iff_of_false (hc.close_notMem (.inl hidle)) hnot, hc.counted, nofun⟩
  | sendClose hwaiting _ => exact hc.sendClose hwaiting
  | refuseClose hwaiting hstopped =>
    -- the worker ends only behind the closing message
    exact absurd (hc.close_mem hstopped) (hc.close_notMem (.inr hwaiting))
  | @count i rest table hrunning hqueue =>
    have hcounted := hc.counted
    rw [hrunning, hqueue] at hcounted
    obtain ⟨calls, hlog, rfl⟩ := hcounted
    refine hc.move hrunning ⟨calls ++ [i], by simpa using hlog, ?_⟩
    rw [tableOf, tableOf, List.map_append, List.map_singleton, tally_append]
  | @reply rest table hrunning hqueue =>
    have hcounted := hc.counted
    rw [hrunning, hqueue] at hcounted
    obtain ⟨calls, hlog, htable⟩ := hcounted
    exact hc.move hrunning ⟨calls, rest, hlog, htable⟩
  | @stop table hreplied =>
    have hcounted := hc.counted
    rw [hreplied] at hcounted
    exact ⟨hc.nodup, hc.sent, fun _ _ => ⟨table, rfl⟩, hc.closing, hcounted, fun t ht => by
      cases hreplied.symm.trans (hc.done t ht)⟩
  | @finish table hsent hstopped =>
    exact ⟨hc.nodup, hc.sent, hc.dropped, iff_of_true (hc.close_mem hstopped) (.inr ⟨table, rfl⟩), hc.counted,
      fun t ht => by cases ht; exact hstopped⟩

theorem Reaches.sound (h : Reaches capacity samples c d) (hc : Sound samples c) : Sound samples d := by
  induction h with
  | refl => exact hc
  | tail _ hstep ih => exact hstep.sound ih

/-! ## Closing comes to its end -/

/-- the worker takes out what is there, up to the closing message -/
theorem exists_drained (capacity : Nat) (samples : ι → Sample) {table : List (String × Aggregate)}
    (hrunning : c.worker = .running table) :
    ∃ d, Reaches capacity samples c d ∧ d.closer = c.closer ∧
      ((∃ t, d.worker = .running t ∧ d.queue = []) ∨ ∃ t, d.worker = .replied t) := by
  rcases c with ⟨queue, worker, recorders, closer, log⟩
  cases hrunning
  induction queue generalizing table with
  | nil => exact ⟨_, .refl, rfl, .inl ⟨table, rfl, rfl⟩⟩
  | cons m rest ih =>
    cases m with
    | close => exact ⟨_, .single (.reply rfl rfl), rfl, .inr ⟨table, rfl⟩⟩
    | sample i =>
      obtain ⟨d, hd, hcloser, hend⟩ := @ih (addSample table (samples i))
      exact ⟨d, .head (.count rfl rfl) hd, hcloser, hend⟩

/-- behind its answer the worker ends, and closing with it -/
theorem exists_done_of_replied (capacity : Nat) (hc : Sound samples c) {table : List (String × Aggregate)}
    (hreplied : c.worker = .replied table) : ∃ d, Reaches capacity samples c d ∧ d.closer = .done table := by
  have hcounted := hc.counted
  rw [hreplied] at hcounted
  rcases hc.closing.1 hcounted.close_mem with hsent | ⟨t, hdone⟩
  · have hstop : Step capacity samples c { c with queue := [], worker := .stopped table } := .stop hreplied
    exact ⟨_, (Relation.ReflTransGen.single hstop).tail (.finish hsent rfl), rfl⟩
  · cases hreplied.symm.trans (hc.done t hdone)

/-- closing that was called comes to its end -/
theorem exists_done_of_running (hcapacity : 0 < capacity) (hc : Sound samples c) {table : List (String × Aggregate)}
    (hrunning : c.worker = .running table) : ∃ d t, Reaches capacity samples c d ∧ d.closer = .done t := by
  obtain ⟨d, hd, hcloser, ⟨t, hidle, hempty⟩ | ⟨t, hreplied⟩⟩ :=
    exists_drained capacity samples hrunning
  · have hnot : .close ∉ d.log := by
      have hcounted := (hd.sound hc).counted
      rw [hidle, hempty] at hcounted
      obtain ⟨calls, hlog, -⟩ := hcounted
      simp [hlog]
    -- all is taken out, so there is room for the closing message
    have hfinish : ∀ e : Collector ι, Reaches capacity samples c e → e.closer = .waiting → e.worker = .running t →
        e.queue = [] → ∃ d t, Reaches capacity samples c d ∧ d.closer = .done t := by
      intro e he hwaiting hworker hqueue
      have hroom : e.HasRoom capacity := ⟨by rw [hworker]; trivial, by rw [hqueue]; exact hcapacity⟩
      have hreply : Step capacity samples { e.push .close with closer := .sent }
          { e.push .close with closer := .sent, queue := [], worker := .replied t } :=
        .reply hworker (by simp [push, hqueue])
      have hreplied : Reaches capacity samples c _ := (he.tail (.sendClose hwaiting hroom)).tail hreply
      obtain ⟨d, hd, hdone⟩ := exists_done_of_replied capacity (hreplied.sound hc) rfl
      exact ⟨d, t, hreplied.trans hd, hdone⟩
    cases hd' : d.closer with
    | idle => exact hfinish _ (hd.tail (.close hd')) rfl hidle hempty
    | waiting => exact hfinish d hd hd' hidle hempty
    | sent => exact absurd ((hd.sound hc).closing.2 (.inl hd')) hnot
    | done u => exact absurd ((hd.sound hc).closing.2 (.inr ⟨u, hd'⟩)) hnot
  · obtain ⟨e, he, hdone⟩ := exists_done_of_replied capacity (hd.sound hc) hreplied
    exact ⟨e, t, hd.trans he, hdone⟩

/-- **Closing can be brought to its end** at any time. -/
theorem exists_done (hcapacity : 0 < capacity) (hc : Sound samples c) :
    ∃ d t, Reaches capacity samples c d ∧ d.closer = .done t := by
  cases hworker : c.worker with
  | running table => exact exists_done_of_running hcapacity hc hworker
  | replied table =>
    obtain ⟨d, hd, hdone⟩ := exists_done_of_replied capacity hc hworker
    exact ⟨d, table, hd, hdone⟩
  | stopped table =>
    rcases hc.closing.1 (hc.close_mem hworker) with hsent | ⟨t, hdone⟩
    · exact ⟨_, table, .single (.finish hsent hworker), rfl⟩
    · exact ⟨c, t, .refl, hdone⟩

/-! ## The table that closing gives -/

/-- what has entered the channel before closing was called stands before the closing message -/
theorem sent_before (hc : Sound samples c) (hidle : c.closer = .idle) (hd : Reaches capacity samples c d)
    {calls : List ι} {later : List (Message ι)} (hlog : d.log = calls.map .sample ++ .close :: later)
    (hi : (c.recorders i).HasReturned) : i ∈ calls := by
  have hnot : .close ∉ c.log := hc.close_notMem (.inl hidle)
  have hsent : c.recorders i = .sent := by
    rcases hi with hi | hi
    · exact hi
    · obtain ⟨table, hstopped⟩ := hc.dropped i hi
      exact absurd (hc.close_mem hstopped) hnot
  have hbefore := prefix_of_notMem (hlog ▸ hd.log_prefix) hnot
  simpa using hbefore.subset ((hc.sent i).2 hsent)

/-- **No sample is lost or counted twice.** However calls that record, closing and the worker take turns at a channel
with room for at least one message, closing can be brought to its end at any time, and the table that it gives is the
table of the samples that entered the channel before the closing message:
- each of them entered once, and every call that had returned before closing was called is among them;
- the table counts for each key all calls, those that succeeded and those that failed, each of them under its own name
  and no other, and all calls are those of both kinds together;
- nothing else is in the table, and no two keys share a name. -/
theorem snapshot_exact (hcapacity : 0 < capacity) (hc : Reaches capacity samples ({} : Collector ι) c) :
    (∃ d table, Reaches capacity samples c d ∧ d.closer = .done table) ∧
      (∀ table, c.closer = .done table → ∃ (calls : List ι) (later : List (Message ι)),
        c.log = calls.map .sample ++ .close :: later ∧ calls.Nodup ∧
        (∀ b : Collector ι, Reaches capacity samples {} b → b.closer = .idle → Reaches capacity samples b c →
          ∀ i, (b.recorders i).HasReturned → i ∈ calls) ∧
        (∀ key outcome, countAt table (entryName key outcome) =
          (calls.filter fun i => (samples i).CountsFor key outcome).length) ∧
        (∀ key, countAt table (entryName key none) =
          countAt table (entryName key (some .success)) + countAt table (entryName key (some .failure))) ∧
        ∀ name a, table.lookup name = some a → ∃ i ∈ calls, name ∈ (samples i).names) ∧
      ∀ (key other : String) (o p : Option CallEnd), entryName key o = entryName other p → key = other ∧ o = p := by
  have hsound : Sound samples c := hc.sound sound_start
  refine ⟨exists_done hcapacity hsound, fun table hdone => ?_, fun _ _ _ _ h => entryName_inj.1 h⟩
  have hcounted := hsound.counted
  rw [hsound.done table hdone] at hcounted
  obtain ⟨calls, later, hlog, rfl⟩ := hcounted
  have hnodup : calls.Nodup := by
    have := hsound.nodup
    rw [hlog] at this
    exact List.Nodup.of_map _ (List.nodup_append.1 this).1
  refine ⟨calls, later, hlog, hnodup, fun b hb hidle hbc i hi => ?_, fun key outcome => ?_,
    fun key => countAt_tally_add _ key, fun name a ha => ?_⟩
  · exact sent_before (hb.sound sound_start) hidle hbc hlog hi
  · rw [tableOf, countAt_tally, List.countP_map, List.countP_eq_length_filter]
    rfl
  · obtain ⟨s, hs, hname⟩ := exists_sample_of_lookup ha
    obtain ⟨i, hi, rfl⟩ := List.mem_map.1 hs
    exact ⟨i, hi, hname⟩

/-- the channel has room for one message, so that the second call has to wait, and closing with it -/
def twoCalls : Fin 2 → Sample
  | 0 => ⟨"a b", .success, 5⟩
  | 1 => ⟨"a_b", .failure, 7⟩

theorem snapshot_exact_full : ∃ (c : Collector (Fin 2)) (table : List (String × Aggregate)),
    Reaches 1 twoCalls {} c ∧ c.closer = .done table ∧ countAt table "a_b-call" = 2 ∧
      countAt table "a_b-success" = 1 ∧ countAt table "a_b-error" = 1 := by
  have first : Reaches 1 twoCalls {} _ := .single (.record (i := 0) (.inl rfl) ⟨trivial, by decide⟩)
  have parked := first.tail (.wait (i := 1) rfl trivial (by decide))
  have called := parked.tail (.close rfl)
  have room := called.tail (.count (i := 0) rfl rfl)
  have second := room.tail (.record (i := 1) (.inr rfl) ⟨trivial, by decide⟩)
  have drained := second.tail (.count (i := 1) rfl rfl)
  have sent := drained.tail (.sendClose rfl ⟨trivial, by decide⟩)
  have answered := sent.tail (.reply rfl rfl)
  have finished := (answered.tail (.stop rfl)).tail (.finish rfl rfl)
  obtain ⟨-, hdone, -⟩ := snapshot_exact (by decide) finished
  obtain ⟨calls, later, hlog, -, -, hcount, -, -⟩ := hdone _ rfl
  have hcalls : calls = [0, 1] := by
    rcases calls with - | ⟨i, - | ⟨j, - | ⟨k, rest⟩⟩⟩ <;> cases hlog
    rfl
  subst hcalls
  exact ⟨_, _, finished, rfl, (hcount "a_b" none).trans (by decide +kernel),
    (hcount "a_b" (some .success)).trans (by decide +kernel), (hcount "a_b" (some .failure)).trans (by decide +kernel)⟩

end

end Collector

end Gleaner
