/-
A caller and a script that copies.

A caller writes the whole input of a script before it reads any of the output. Both go through pipes that hold so many
bytes at most. A script that copies takes some bytes of its input, a block at most, and writes them before it takes
more. The caller and the script take their steps in any order (`Exchange.Step`); one that finds no room to write, or
nothing to read, waits. If both wait for ever the time of the script runs out.

All bytes of the input are somewhere on their way, in their order (`Sound`). If both wait before the output has ended,
then both pipes are full, the script holds bytes that it cannot write, and the caller has more (`Sound.jammed`). So
input for which there is room on the way comes through, and input for which there is none never does.

Results:
- `Step.sound`, `Step.weight_lt`: what a step keeps, and that every exchange comes to rest;
- `Sound.jammed`: the only way in which both wait;
- `Reaches.outcome_of_short`, `Reaches.outcome_of_long`: how exchanges end;
- `exists_deadlocked`: some exchange jams where there is no room, whatever the size of the blocks;
- `exists_outcome`: how some exchange ends if the blocks are as large as the pipes.
-/
import Gleaner.Shell.Script
import Mathlib.Logic.Relation
import Mathlib.Tactic

namespace Gleaner.Shell

open Utf8 (Bytes)

/-- how many bytes the pipes to a script and from it hold, and how many the script takes at a time -/
structure Pipes where
  inlet : Nat
  outlet : Nat
  block : Nat

/-- how far the caller of a script has come -/
inductive Caller where
  /-- these bytes are left to be written -/
  | writing (rest : Bytes)
  /-- has closed the input of the script -/
  | reading
  /-- the script and its output have ended -/
  | done

namespace Caller

def unsent : Caller → Bytes
  | .writing rest => rest
  | _ => []

def HasClosed : Caller → Prop
  | .writing _ => False
  | _ => True

end Caller

/-- a caller, a script that copies, and the bytes on their way -/
structure Exchange where
  caller : Caller
  /-- wait for the script -/
  inlet : Bytes := []
  /-- the script has taken them and not written them yet -/
  held : Bytes := []
  /-- wait for the caller -/
  outlet : Bytes := []
  received : Bytes := []
  exited : Bool := false

namespace Exchange

inductive Party where
  | caller
  | script

def start (input : Bytes) : Exchange := { caller := .writing input }

/-- a step that the caller or the script takes from here -/
inductive Step (room : Pipes) (x : Exchange) : Party → Exchange → Prop where
  | write {chunk rest : Bytes} (h : x.caller = .writing (chunk ++ rest)) (hsome : chunk ≠ [])
      (hroom : x.inlet.length + chunk.length ≤ room.inlet) :
      Step room x .caller { x with caller := .writing rest, inlet := x.inlet ++ chunk }
  | close (h : x.caller = .writing []) : Step room x .caller { x with caller := .reading }
  | read {chunk rest : Bytes} (h : x.caller = .reading) (hbytes : x.outlet = chunk ++ rest) (hsome : chunk ≠ []) :
      Step room x .caller { x with outlet := rest, received := x.received ++ chunk }
  | finish (h : x.caller = .reading) (hempty : x.outlet = []) (hexited : x.exited = true) :
      Step room x .caller { x with caller := .done }
  | take {chunk rest : Bytes} (h : x.held = []) (hbytes : x.inlet = chunk ++ rest) (hsome : chunk ≠ [])
      (hblock : chunk.length ≤ room.block) : Step room x .script { x with inlet := rest, held := chunk }
  | put {chunk rest : Bytes} (h : x.held = chunk ++ rest) (hsome : chunk ≠ [])
      (hroom : x.outlet.length + chunk.length ≤ room.outlet) :
      Step room x .script { x with held := rest, outlet := x.outlet ++ chunk }
  /-- the script has seen the end of its input -/
  | exit (hruns : x.exited = false) (hclosed : x.caller.HasClosed) (hinlet : x.inlet = []) (hheld : x.held = []) :
      Step room x .script { x with exited := true }

/-- the caller and the script take steps in any order -/
def Reaches (room : Pipes) : Exchange → Exchange → Prop := Relation.ReflTransGen fun x y => ∃ p, Step room x p y

/-- a party can take no step -/
def Blocked (room : Pipes) (p : Party) (x : Exchange) : Prop := ∀ y, ¬ Step room x p y

def AtRest (room : Pipes) (x : Exchange) : Prop := ∀ p, x.Blocked room p

/-- both wait, and the caller has not seen the end -/
def Deadlocked (room : Pipes) (x : Exchange) : Prop := x.AtRest room ∧ x.caller ≠ .done

/-- what an exchange that has come to rest gives: the output, or nothing if both wait until the time is over -/
def outcome (timeout : Nat) (x : Exchange) : Except Refusal Bytes :=
  match x.caller with
  | .done => .ok x.received
  | _ => .error (.timedOut timeout)

variable {room : Pipes} {input : Bytes} {x y : Exchange} {p : Party}

/-! ## What a step keeps -/

/-- all bytes are on their way, in their order -/
structure Sound (room : Pipes) (input : Bytes) (x : Exchange) : Prop where
  order : x.received ++ x.outlet ++ x.held ++ x.inlet ++ x.caller.unsent = input
  inlet : x.inlet.length ≤ room.inlet
  outlet : x.outlet.length ≤ room.outlet
  held : x.held.length ≤ min room.block room.inlet
  /-- nothing is read before the input is closed -/
  unread : ¬ x.caller.HasClosed → x.received = []
  exited : x.exited = true → x.caller.HasClosed ∧ x.inlet = [] ∧ x.held = []
  done : x.caller = .done → x.exited = true ∧ x.outlet = []

theorem sound_start (room : Pipes) (input : Bytes) : Sound room input (start input) where
  order := rfl
  inlet := Nat.zero_le _
  outlet := Nat.zero_le _
  held := Nat.zero_le _
  unread _ := rfl
  exited h := by cases h
  done h := by cases h

/-- **A step keeps all bytes on their way.** -/
theorem Step.sound (h : Step room x p y) (hx : Sound room input x) : Sound room input y := by
  have hwriting : ∀ rest, x.caller = .writing rest → x.exited = false := by
    intro rest hcaller
    cases hexited : x.exited with
    | false => rfl
    | true =>
      have hclosed := (hx.exited hexited).1
      rw [hcaller] at hclosed
      exact hclosed.elim
  have horder := hx.order
  cases h with
  | @write chunk rest hcaller hsome hroom =>
    have hruns := hwriting _ hcaller
    have hunread := hx.unread (by rw [hcaller]; exact id)
    refine ⟨?_, ?_, hx.outlet, hx.held, fun _ => hunread, fun h => ?_, nofun⟩
    · simpa [hcaller, Caller.unsent] using horder
    · simpa using hroom
    · cases hruns.symm.trans h
  | close hcaller =>
    have hruns := hwriting _ hcaller
    refine ⟨?_, hx.inlet, hx.outlet, hx.held, fun h => (h trivial).elim, fun h => ?_, nofun⟩
    · simpa [hcaller, Caller.unsent] using horder
    · cases hruns.symm.trans h
  | @read chunk rest hcaller hbytes hsome =>
    have hclosed : x.caller.HasClosed := by rw [hcaller]; trivial
    refine ⟨?_, hx.inlet, ?_, hx.held, fun h => (h hclosed).elim, hx.exited, fun h => ?_⟩
    · simpa [hbytes] using horder
    · have hlength := hx.outlet
      rw [hbytes, List.length_append] at hlength
      exact (Nat.le_add_left _ _).trans hlength
    · cases hcaller.symm.trans h
  | finish hcaller hempty hexited =>
    refine ⟨?_, hx.inlet, hx.outlet, hx.held, fun h => (h trivial).elim, fun h => ⟨trivial, (hx.exited h).2⟩,
      fun _ => ⟨hexited, hempty⟩⟩
    simpa [hcaller, Caller.unsent] using horder
  | @take chunk rest hheld hbytes hsome hblock =>
    have hruns : ¬ x.exited = true := fun h => by
      have hnone := (hx.exited h).2.1
      rw [hbytes] at hnone
      exact hsome (List.append_eq_nil_iff.1 hnone).1
    have hlength := hx.inlet
    rw [hbytes, List.length_append] at hlength
    refine ⟨?_, (Nat.le_add_left _ _).trans hlength, hx.outlet, ?_, hx.unread, fun h => (hruns h).elim, hx.done⟩
    · simpa [hheld, hbytes] using horder
    · exact le_min hblock ((Nat.le_add_right _ _).trans hlength)
  | @put chunk rest hheld hsome hroom =>
    have hruns : ¬ x.exited = true := fun h => by
      have hnone := (hx.exited h).2.2
      rw [hheld] at hnone
      exact hsome (List.append_eq_nil_iff.1 hnone).1
    have hlength := hx.held
    rw [hheld, List.length_append] at hlength
    refine ⟨?_, hx.inlet, ?_, (Nat.le_add_left _ _).trans hlength, hx.unread, fun h => (hruns h).elim, fun h => ?_⟩
    · simpa [hheld] using horder
    · simpa using hroom
    · exact (hruns (hx.done h).1).elim
  | exit hruns hclosed hinlet hheld =>
    refine ⟨horder, hx.inlet, hx.outlet, hx.held, hx.unread, fun _ => ⟨hclosed, hinlet, hheld⟩, fun h => ?_⟩
    cases hruns.symm.trans (hx.done h).1

theorem Reaches.sound (h : Reaches room x y) (hx : Sound room input x) : Sound room input y := by
  induction h with
  | refl => exact hx
  | tail _ hstep ih =>
    obtain ⟨p, hstep⟩ := hstep
    exact hstep.sound ih

theorem Sound.length (h : Sound room input x) : x.received.length + x.outlet.length + x.held.length + x.inlet.length +
    x.caller.unsent.length = input.length := by
  rw [← h.order]
  simp only [List.length_append]

/-! ## Exchanges come to rest -/

/-- how many steps are left at most: four for a byte, and those that close and end -/
def weight (x : Exchange) : Nat :=
  4 * x.caller.unsent.length + 3 * x.inlet.length + 2 * x.held.length + x.outlet.length +
    (match x.caller with
      | .writing _ => 2
      | .reading => 1
      | .done => 0) + (if x.exited then 0 else 1)

theorem Step.weight_lt (h : Step room x p y) : y.weight < x.weight := by
  have hlength : ∀ {chunk : Bytes}, chunk ≠ [] → 0 < chunk.length := List.length_pos_iff.2
  cases h with
  | write hcaller hsome _ =>
    have hpos := hlength hsome
    simp [weight, hcaller, Caller.unsent]
    omega
  | close hcaller => simp [weight, hcaller, Caller.unsent]
  | read hcaller hbytes hsome =>
    have hpos := hlength hsome
    simp [weight, hcaller, hbytes]
    omega
  | finish hcaller _ _ => simp [weight, hcaller, Caller.unsent]
  | take hheld hbytes hsome _ =>
    have hpos := hlength hsome
    simp [weight, hheld, hbytes]
    omega
  | put hheld hsome _ =>
    have hpos := hlength hsome
    simp [weight, hheld]
    omega
  | exit hruns _ _ _ => simp [weight, hruns]

/-- **No exchange goes on for ever.** -/
theorem steps_wellFounded (room : Pipes) : WellFounded fun y x => ∃ p, Step room x p y :=
  Subrelation.wf (fun ⟨_, hstep⟩ => hstep.weight_lt) (measure weight).wf

/-- an exchange can be brought to rest at any time -/
theorem exists_atRest (room : Pipes) (x : Exchange) : ∃ y, Reaches room x y ∧ y.AtRest room := by
  induction x using (steps_wellFounded room).induction with
  | h x ih =>
    by_cases hrest : x.AtRest room
    · exact ⟨x, .refl, hrest⟩
    · obtain ⟨p, y, hstep⟩ : ∃ p y, Step room x p y := by
        simpa [AtRest, Blocked] using hrest
      obtain ⟨z, hz, hrest⟩ := ih y ⟨p, hstep⟩
      exact ⟨z, .head ⟨p, hstep⟩ hz, hrest⟩

/-! ## Where both wait -/

/-- the pipes are full, the script has bytes to write, and so has the caller -/
structure Jammed (room : Pipes) (x : Exchange) : Prop where
  unsent : x.caller.unsent ≠ []
  inlet : x.inlet.length = room.inlet
  held : x.held ≠ []
  outlet : x.outlet.length = room.outlet

/-- **Both wait only if all is jammed.** -/
theorem Sound.jammed (h : Sound room input x) (hinlet : 0 < room.inlet) (houtlet : 0 < room.outlet)
    (hblock : 0 < room.block) (hstuck : x.Deadlocked room) : x.Jammed room := by
  obtain ⟨hrest, hopen⟩ := hstuck
  have hcaller := hrest .caller
  have hscript := hrest .script
  -- what keeps the script from each of its steps
  have hput : ∀ {b : UInt8} {bs : Bytes}, x.held = b :: bs → x.outlet.length = room.outlet := by
    intro b bs hheld
    by_contra hroom
    have hlt : x.outlet.length + [b].length ≤ room.outlet := lt_of_le_of_ne h.outlet hroom
    have hfirst : x.held = [b] ++ bs := hheld
    exact hscript _ (.put hfirst (List.cons_ne_nil _ _) hlt)
  have htake : x.held = [] → x.inlet = [] := by
    intro hheld
    cases hbytes : x.inlet with
    | nil => rfl
    | cons b bs =>
      have hfirst : x.inlet = [b] ++ bs := hbytes
      exact (hscript _ (.take hheld hfirst (List.cons_ne_nil _ _) hblock)).elim
  cases hc : x.caller with
  | done => exact (hopen hc).elim
  | reading =>
    have hempty : x.outlet = [] := by
      cases hbytes : x.outlet with
      | nil => rfl
      | cons b bs =>
        have hfirst : x.outlet = [b] ++ bs := hbytes
        exact (hcaller _ (.read hc hfirst (List.cons_ne_nil _ _))).elim
    have hheld : x.held = [] := by
      cases hbytes : x.held with
      | nil => rfl
      | cons b bs =>
        have hfull := hput hbytes
        rw [hempty] at hfull
        exact (houtlet.ne hfull).elim
    cases hexited : x.exited with
    | true => exact (hcaller _ (.finish hc hempty hexited)).elim
    | false => exact (hscript _ (.exit hexited (by rw [hc]; trivial) (htake hheld) hheld)).elim
  | writing rest =>
    cases rest with
    | nil => exact (hcaller _ (.close hc)).elim
    | cons b bs =>
      have hfull : x.inlet.length = room.inlet := by
        by_contra hroom
        have hlt : x.inlet.length + [b].length ≤ room.inlet := lt_of_le_of_ne h.inlet hroom
        have hfirst : x.caller = .writing ([b] ++ bs) := hc
        exact hcaller _ (.write hfirst (List.cons_ne_nil _ _) hlt)
      cases hheld : x.held with
      | nil =>
        rw [htake hheld] at hfull
        exact (hinlet.ne hfull).elim
      | cons c cs => exact ⟨by simp [hc, Caller.unsent], hfull, by simp [hheld], hput hheld⟩

/-- and then they do wait, whatever the size of the blocks -/
theorem Jammed.deadlocked (h : x.Jammed room) : x.Deadlocked room := by
  have hpos : ∀ {chunk : Bytes}, chunk ≠ [] → 0 < chunk.length := List.length_pos_iff.2
  have hunsent := h.unsent
  refine ⟨fun p y hstep => ?_, fun hdone => hunsent (by rw [hdone]; rfl)⟩
  cases hstep with
  | write _ hsome hroom =>
    have := hpos hsome
    have := h.inlet
    omega
  | close hcaller => exact hunsent (by rw [hcaller]; rfl)
  | read hcaller _ _ => exact hunsent (by rw [hcaller]; rfl)
  | finish hcaller _ _ => exact hunsent (by rw [hcaller]; rfl)
  | take hheld _ _ _ => exact h.held hheld
  | put _ hsome hroom =>
    have := hpos hsome
    have := h.outlet
    omega
  | exit _ _ _ hheld => exact h.held hheld

/-- a jam takes more bytes than there is room for in the pipes and one in the hand of the script -/
theorem Sound.length_of_jammed (h : Sound room input x) (hjam : x.Jammed room) :
    room.inlet + room.outlet + 1 < input.length := by
  have hunsent := List.length_pos_iff.2 hjam.unsent
  have hheld := List.length_pos_iff.2 hjam.held
  have hlength := h.length
  have hinlet := hjam.inlet
  have houtlet := hjam.outlet
  omega

/-! ## How exchanges end -/

/-- an exchange that has ended has brought all bytes back -/
theorem Sound.received_of_done (h : Sound room input x) (hdone : x.caller = .done) : x.received = input := by
  obtain ⟨hexited, houtlet⟩ := h.done hdone
  obtain ⟨-, hinlet, hheld⟩ := h.exited hexited
  have horder := h.order
  rw [houtlet, hinlet, hheld, hdone] at horder
  simpa [Caller.unsent] using horder

theorem outcome_of_done (timeout : Nat) (hdone : x.caller = .done) : x.outcome timeout = .ok x.received := by
  rw [outcome, hdone]

theorem outcome_of_open (timeout : Nat) (hopen : x.caller ≠ .done) :
    x.outcome timeout = .error (.timedOut timeout) := by
  unfold outcome
  split
  · next hdone => exact (hopen hdone).elim
  · rfl

/-- **Input for which there is room comes through.** -/
theorem Reaches.outcome_of_short (h : Reaches room (start input) x) (hinlet : 0 < room.inlet)
    (houtlet : 0 < room.outlet) (hblock : 0 < room.block) (hshort : input.length ≤ room.inlet + room.outlet + 1)
    (hrest : x.AtRest room) (timeout : Nat) : x.outcome timeout = .ok input := by
  have hsound := h.sound (sound_start room input)
  have hdone : x.caller = .done := by
    by_contra hopen
    have hjam := hsound.jammed hinlet houtlet hblock ⟨hrest, hopen⟩
    exact absurd hshort (not_le.2 (hsound.length_of_jammed hjam))
  rw [outcome_of_done timeout hdone, hsound.received_of_done hdone]

/-- while there are more bytes than there is room for, the caller goes on writing -/
theorem Reaches.writing_of_long (h : Reaches room (start input) x)
    (hlong : room.inlet + room.outlet + min room.block room.inlet < input.length) : ¬ x.caller.HasClosed := by
  induction h with
  | refl => exact id
  | @tail x y hx hstep ih =>
    obtain ⟨p, hstep⟩ := hstep
    have hsound := Reaches.sound hx (sound_start room input)
    cases hstep with
    | write _ _ _ => exact id
    | close hcaller =>
      have hunread := hsound.unread ih
      have hlength := hsound.length
      rw [hunread, hcaller] at hlength
      have hinlet := hsound.inlet
      have houtlet := hsound.outlet
      have hheld := hsound.held
      simp only [Caller.unsent, List.length_nil] at hlength
      omega
    | read hcaller _ _ => exact ih
    | finish hcaller _ _ => exact (ih (by rw [hcaller]; trivial)).elim
    | take _ _ _ _ => exact ih
    | put _ _ _ => exact ih
    | exit _ _ _ _ => exact ih

/-- **Input for which there is no room** never comes through. -/
theorem Reaches.outcome_of_long (h : Reaches room (start input) x)
    (hlong : room.inlet + room.outlet + min room.block room.inlet < input.length) (timeout : Nat) :
    x.caller ≠ .done ∧ x.outcome timeout = .error (.timedOut timeout) := by
  have hwriting := h.writing_of_long hlong
  have hopen : x.caller ≠ .done := fun hdone => hwriting (by rw [hdone]; trivial)
  exact ⟨hopen, outcome_of_open timeout hopen⟩

/-- a script that takes larger blocks may also take smaller ones -/
theorem Reaches.of_block {block : Nat} (hblock : block ≤ room.block)
    (h : Reaches { room with block := block } x y) : Reaches room x y := by
  refine Relation.ReflTransGen.mono ?_ x y h
  rintro x y ⟨p, hstep⟩
  refine ⟨p, ?_⟩
  cases hstep with
  | write hcaller hsome hroom => exact .write hcaller hsome hroom
  | close hcaller => exact .close hcaller
  | read hcaller hbytes hsome => exact .read hcaller hbytes hsome
  | finish hcaller hempty hexited => exact .finish hcaller hempty hexited
  | take hheld hbytes hsome hlength => exact .take hheld hbytes hsome (hlength.trans hblock)
  | put hheld hsome hroom => exact .put hheld hsome hroom
  | exit hruns hclosed hinlet hheld => exact .exit hruns hclosed hinlet hheld

/-- **Some exchange jams** if the input is longer than the pipes and one byte more. -/
theorem exists_deadlocked (hinlet : 0 < room.inlet) (houtlet : 0 < room.outlet) (hblock : 0 < room.block)
    (hlong : room.inlet + room.outlet + 1 < input.length) : ∃ x, Reaches room (start input) x ∧ x.Deadlocked room := by
  let single : Pipes := { room with block := 1 }
  obtain ⟨x, hx, hrest⟩ := exists_atRest single (start input)
  have hbound : single.inlet + single.outlet + min single.block single.inlet < input.length := by
    have hmin : min single.block single.inlet ≤ 1 := min_le_left _ _
    exact lt_of_le_of_lt (Nat.add_le_add_left hmin _) hlong
  have hopen := (hx.outcome_of_long hbound 0).1
  have hjam := (Reaches.sound hx (sound_start single input)).jammed hinlet houtlet Nat.one_pos ⟨hrest, hopen⟩
  have hroom : x.Jammed room := ⟨hjam.unsent, hjam.inlet, hjam.held, hjam.outlet⟩
  exact ⟨x, hx.of_block hblock, hroom.deadlocked⟩

/-! ## Large blocks -/

/-- once the input is closed it stays closed -/
theorem Reaches.hasClosed (h : Reaches room x y) (hx : x.caller.HasClosed) : y.caller.HasClosed := by
  induction h with
  | refl => exact hx
  | @tail y z _ hstep ih =>
    obtain ⟨p, hstep⟩ := hstep
    cases hstep with
    | write hcaller _ _ =>
      rw [hcaller] at ih
      exact ih.elim
    | close _ => trivial
    | finish _ _ _ => trivial
    | _ => exact ih

/-- **Behind the end of its input** an exchange comes through. -/
theorem Sound.exists_done (h : Sound room input x) (hclosed : x.caller.HasClosed) (hinlet : 0 < room.inlet)
    (houtlet : 0 < room.outlet) (hblock : 0 < room.block) :
    ∃ y, Reaches room x y ∧ y.AtRest room ∧ y.caller = .done := by
  obtain ⟨y, hy, hrest⟩ := exists_atRest room x
  refine ⟨y, hy, hrest, ?_⟩
  by_contra hopen
  have hjam := (Reaches.sound hy h).jammed hinlet houtlet hblock ⟨hrest, hopen⟩
  have hnone : y.caller.unsent = [] := by
    have hstays := hy.hasClosed hclosed
    cases hcaller : y.caller with
    | writing rest =>
      rw [hcaller] at hstays
      exact hstays.elim
    | _ => rfl
  exact hjam.unsent hnone

theorem reaches_write {inlet held outlet received chunk rest : Bytes} {exited : Bool}
    (hroom : inlet.length + chunk.length ≤ room.inlet) :
    Reaches room ⟨.writing (chunk ++ rest), inlet, held, outlet, received, exited⟩
      ⟨.writing rest, inlet ++ chunk, held, outlet, received, exited⟩ := by
  by_cases hnone : chunk = []
  · subst hnone
    rw [List.nil_append, List.append_nil]
    exact .refl
  · exact .single ⟨_, .write rfl hnone hroom⟩

theorem reaches_take {caller : Caller} {outlet received chunk : Bytes} {exited : Bool}
    (hblock : chunk.length ≤ room.block) :
    Reaches room ⟨caller, chunk, [], outlet, received, exited⟩ ⟨caller, [], chunk, outlet, received, exited⟩ := by
  by_cases hnone : chunk = []
  · subst hnone
    exact .refl
  · exact .single ⟨_, .take rfl (List.append_nil chunk).symm hnone hblock⟩

theorem reaches_put {caller : Caller} {inlet outlet received chunk : Bytes} {exited : Bool}
    (hroom : outlet.length + chunk.length ≤ room.outlet) :
    Reaches room ⟨caller, inlet, chunk, outlet, received, exited⟩
      ⟨caller, inlet, [], outlet ++ chunk, received, exited⟩ := by
  by_cases hnone : chunk = []
  · subst hnone
    rw [List.append_nil]
    exact .refl
  · exact .single ⟨_, .put (List.append_nil chunk).symm hnone hroom⟩

/-- three blocks of input find room: in the pipe to the caller, in the hand of the script, and in the pipe to it -/
theorem reaches_reading {a b c : Bytes} {size : Nat} (ha : a.length ≤ size) (hb : b.length ≤ size)
    (hc : c.length ≤ size) :
    Reaches ⟨size, size, size⟩ (start (a ++ (b ++ c))) ⟨.reading, c, b, a, [], false⟩ := by
  have hnone : ∀ {bytes : Bytes}, bytes.length ≤ size → ([] : Bytes).length + bytes.length ≤ size := by simp
  have hfirst : Reaches ⟨size, size, size⟩ (start (a ++ (b ++ c))) ⟨.writing (b ++ c), [], [], a, [], false⟩ :=
    (reaches_write (hnone ha)).trans ((reaches_take ha).trans (reaches_put (hnone ha)))
  have hsecond : Reaches ⟨size, size, size⟩ ⟨.writing (b ++ c), [], [], a, [], false⟩
      ⟨.writing ([] : Bytes), c, b, a, [], false⟩ := by
    have hthird : Reaches ⟨size, size, size⟩ ⟨.writing (c ++ []), [], b, a, [], false⟩
        ⟨.writing ([] : Bytes), c, b, a, [], false⟩ := reaches_write (hnone hc)
    rw [List.append_nil] at hthird
    exact (reaches_write (hnone hb)).trans ((reaches_take hb).trans hthird)
  exact hfirst.trans (hsecond.trans (.single ⟨_, .close rfl⟩))

/-- **With blocks as large as the pipes** some exchange comes to its end just if there is room for the input in the two
pipes and a block. -/
theorem exists_outcome {size : Nat} (hsize : 0 < size) (input : Bytes) (timeout : Nat) :
    ∃ x, Reaches ⟨size, size, size⟩ (start input) x ∧ x.AtRest ⟨size, size, size⟩ ∧
      x.outcome timeout = if 3 * size < input.length then .error (.timedOut timeout) else .ok input := by
  let room : Pipes := ⟨size, size, size⟩
  by_cases hlong : 3 * size < input.length
  · obtain ⟨x, hx, hrest⟩ := exists_atRest room (start input)
    have hbound : size + size + min size size < input.length := by
      rw [min_self]
      omega
    rw [if_pos hlong]
    exact ⟨x, hx, hrest, (hx.outcome_of_long hbound timeout).2⟩
  · obtain ⟨a, b, c, rfl, ha, hb, hc⟩ : ∃ a b c : Bytes, input = a ++ (b ++ c) ∧ a.length ≤ size ∧ b.length ≤ size ∧
        c.length ≤ size := by
      refine ⟨input.take size, (input.drop size).take size, (input.drop size).drop size, ?_, ?_, ?_, ?_⟩
      · rw [List.take_append_drop, List.take_append_drop]
      · exact List.length_take_le _ _
      · exact List.length_take_le _ _
      · simp only [List.length_drop]
        omega
    have hreading := reaches_reading ha hb hc
    have hsound := hreading.sound (sound_start room _)
    obtain ⟨x, hx, hrest, hdone⟩ := hsound.exists_done trivial hsize hsize hsize
    rw [if_neg hlong]
    refine ⟨x, hreading.trans hx, hrest, ?_⟩
    rw [outcome_of_done timeout hdone, (Reaches.sound hx hsound).received_of_done hdone]

end Exchange

end Gleaner.Shell
