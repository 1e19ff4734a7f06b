/-
What the rules of a configuration know of each other.

Rules work in one world, but what a script keeps belongs to the place of its stage. So the rules of some parts of a
configuration see the files, the variables, the signal and what is kept at their own places, and nothing else: an action
is `Within` the parts if it does the same in any two worlds that are alike to them, and leaves such worlds (`World.Alike`).
An action that is `Outside` them changes nothing that they see but the files (`World.Beside`).

Results:
- `Act.Seeing.within`, `Act.Closed.outside`: composed actions;
- `Chain.run_within`, `Chain.run_outside`: chains, by the part at which they stand;
- `Chain.run_still`: chains that leave the files as they were.
-/
import Gleaner.Proofs.Breakdowns
import Gleaner.Proofs.Visits

namespace Gleaner

/-! ## What parts see -/

namespace World

/-- what is kept for the stages of some parts -/
def sessionsOf (parts : Part → Bool) (w : World) : List (Place × Kept) :=
  w.sessions.filter fun s => parts s.1.part

/-- two worlds differ in nothing that some parts see, but for the files -/
structure Beside (parts : Part → Bool) (w w' : World) : Prop where
  env : w.env = w'.env
  signal : w.signal = w'.signal
  looks : w.looks = w'.looks
  sessions : w.sessionsOf parts = w'.sessionsOf parts

/-- two worlds look the same to some parts -/
structure Alike (parts : Part → Bool) (w w' : World) : Prop extends Beside parts w w' where
  files : w.files = w'.files

variable {parts : Part → Bool}

theorem Beside.refl (w : World) : Beside parts w w := ⟨rfl, rfl, rfl, rfl⟩

theorem Beside.trans {w w' w'' : World} (h : Beside parts w w') (h' : Beside parts w' w'') : Beside parts w w'' :=
  ⟨h.env.trans h'.env, h.signal.trans h'.signal, h.looks.trans h'.looks, h.sessions.trans h'.sessions⟩

theorem Beside.symm {w w' : World} (h : Beside parts w w') : Beside parts w' w :=
  ⟨h.env.symm, h.signal.symm, h.looks.symm, h.sessions.symm⟩

theorem Alike.refl (w : World) : Alike parts w w := ⟨Beside.refl w, rfl⟩

theorem Alike.host {w w' : World} (h : Alike parts w w') : w.host = w'.host := by
  rw [World.host, World.host, h.files, h.env]

theorem Alike.trans {w w' w'' : World} (h : Alike parts w w') (h' : Alike parts w' w'') : Alike parts w w'' :=
  ⟨h.toBeside.trans h'.toBeside, h.files.trans h'.files⟩

theorem Alike.symm {w w' : World} (h : Alike parts w w') : Alike parts w' w := ⟨h.toBeside.symm, h.files.symm⟩

end World

namespace Act

variable {α β ε : Type} {parts : Part → Bool}

/-- an action does the same in worlds that look the same to some parts, and leaves such worlds -/
def Within (parts : Part → Bool) (a : Act α) : Prop :=
  ∀ w w', World.Alike parts w w' → (a w).1 = (a w').1 ∧ World.Alike parts (a w).2 (a w').2

/-- an action changes nothing that some parts see but the files -/
def Outside (parts : Part → Bool) (a : Act α) : Prop := ∀ w, World.Beside parts w (a w).2

theorem Within.pure (v : α) : Within parts (pure v : Act α) := fun _ _ h => ⟨rfl, h⟩

theorem Within.bind {a : Act α} {f : α → Act β} (ha : Within parts a) (hf : ∀ v, Within parts (f v)) :
    Within parts (a >>= f) := by
  intro w w' h
  obtain ⟨hresult, hworld⟩ := ha w w' h
  rw [bind_run, bind_run, hresult]
  exact hf _ _ _ hworld

/-- samples are not seen -/
theorem Within.measure (key : String) {a : Act (Except ε α)} (ha : Within parts a) :
    Within parts (Act.measure key a) := ha.bind fun _ _ _ h =>
  ⟨rfl, ⟨h.env, h.signal, h.looks, h.sessions⟩, h.files⟩

theorem Within.warn (text : String) : Within parts (Act.warn text) := fun _ _ h =>
  ⟨rfl, ⟨h.env, h.signal, h.looks, h.sessions⟩, h.files⟩

/-- an action that looks at what is seen only -/
theorem Within.get {f : World → Act β} (hsame : ∀ w w', World.Alike parts w w' → f w = f w')
    (hf : ∀ w, Within parts (f w)) : Within parts (get >>= f) := by
  intro w w' h
  rw [bind_run, bind_run, get_run, get_run, hsame w w' h]
  exact hf w' w w' h

theorem Within.cancelled : Within parts Act.cancelled := by
  intro w w' h
  have hlooks := h.looks
  refine ⟨?_, ⟨⟨h.env, h.signal, ?_, h.sessions⟩, h.files⟩⟩
  · change w.signal w.looks = w'.signal w'.looks
    rw [h.signal, hlooks]
  · exact congrArg (· + 1) hlooks

theorem Within.readLines (source : Source) : Within parts (Act.readLines source) := by
  intro w w' h
  have hitems : (Act.readLines source w).1 = (Act.readLines source w').1 := by
    change Gleaner.readLines source (fun n => w.signal (w.looks + n)) = Gleaner.readLines source _
    rw [h.signal, h.looks]
  refine ⟨hitems, ⟨⟨h.env, h.signal, ?_, h.sessions⟩, h.files⟩⟩
  change w.looks + (Act.readLines source w).1.countP (·.error.isNone) + 1 =
    w'.looks + (Act.readLines source w').1.countP (·.error.isNone) + 1
  rw [h.looks, hitems]

theorem Outside.pure (v : α) : Outside parts (pure v : Act α) := World.Beside.refl

theorem Outside.bind {a : Act α} {f : α → Act β} (ha : Outside parts a) (hf : ∀ v, Outside parts (f v)) :
    Outside parts (a >>= f) := fun w => (ha w).trans (hf _ (a w).2)

theorem Outside.measure (key : String) {a : Act (Except ε α)} (ha : Outside parts a) :
    Outside parts (Act.measure key a) := ha.bind fun _ _ => ⟨rfl, rfl, rfl, rfl⟩

end Act

/-! ## Chains -/

variable {parts : Part → Bool}

/-- what is kept at a place of the parts is among what they see -/
theorem World.held_sessionsOf {place : Place} (h : parts place.part = true) (w : World) :
    w.held place = ((w.sessionsOf parts).find? (·.1 == place)).map (·.2) := by
  rw [sessionsOf, List.find?_filter]
  refine congrArg (Option.map Prod.snd) (congrArg (List.find? · w.sessions) (funext fun s => ?_))
  by_cases hs : s.1 = place
  · simp [hs, h]
  · simp [hs]

/-- what the parts see of a world in which something is kept -/
theorem World.sessionsOf_keep (w : World) (place : Place) (kept : Option Kept) :
    (w.keep place kept).sessionsOf parts =
      (if parts place.part then (kept.map fun k => (place, k)).toList else []) ++
        (w.sessionsOf parts).filter (·.1 != place) := by
  change List.filter _ (_ ++ w.sessions.filter (·.1 != place)) = _
  rw [List.filter_append, List.filter_comm]
  refine congrArg (· ++ _) ?_
  cases kept with
  | none => simp
  | some kept => simp [List.filter_cons]

namespace Act

variable {place : Place}

/-- **A call at a place of the parts** -/
theorem Within.call (h : parts place.part = true) (script : Callable) (text : String) :
    Within parts (Act.call place script text) := by
  intro w w' hw
  have hturn : script text (w.held place) w.host = script text (w'.held place) w'.host := by
    rw [World.held_sessionsOf h, World.held_sessionsOf h, hw.sessions, hw.host]
  refine ⟨congrArg Turn.result hturn, ⟨hw.env, hw.signal, hw.looks, ?_⟩, congrArg Turn.files hturn⟩
  change (World.keep _ place (script text (w.held place) w.host).kept).sessionsOf parts =
    (World.keep _ place (script text (w'.held place) w'.host).kept).sessionsOf parts
  rw [World.sessionsOf_keep, World.sessionsOf_keep, hturn]
  exact congrArg (_ ++ List.filter _ ·) hw.sessions

/-- **A call at no place of them** -/
theorem Outside.call (h : parts place.part = false) (script : Callable) (text : String) :
    Outside parts (Act.call place script text) := by
  intro w
  refine ⟨rfl, rfl, rfl, ?_⟩
  change _ = (World.keep _ place (script text (w.held place) w.host).kept).sessionsOf parts
  rw [World.sessionsOf_keep, h, if_neg Bool.false_ne_true, List.nil_append, eq_comm]
  refine List.filter_eq_self.2 fun s hs => ?_
  have hpart : parts s.1.part = true := (List.mem_filter.1 hs).2
  rw [bne_iff_ne]
  rintro rfl
  cases h.symm.trans hpart

end Act

namespace Stage

variable (s : Stage) {place : Place}

theorem outputs_within (h : parts place.part = true) (input : String) : (s.outputs place input).Within parts := by
  cases s with
  | shell script => exact .call h script.turn input
  | lua script => exact .call h script.turn input
  | _ => exact .pure _

theorem outputs_outside (h : parts place.part = false) (input : String) : (s.outputs place input).Outside parts := by
  cases s with
  | shell script => exact .call h script.turn input
  | lua script => exact .call h script.turn input
  | _ => exact .pure _

end Stage

/-- what is seen does not show samples, and is all that categories and walks look at -/
theorem Act.Seeing.within (parts : Part → Bool) : Seeing (fun _ => True) (Within parts) where
  pure := .pure
  bind := .bind
  measure _ ha := ha.measure _
  get hsame := .get fun w w' h => hsame w w' h.files
  warn := .warn
  cancelled := .cancelled
  readLines := .readLines

theorem Act.Closed.outside (parts : Part → Bool) : Closed (fun _ => True) (Outside parts) :=
  ⟨.pure, .bind, fun _ => .measure _⟩

namespace Chain

/-- **A chain at one of the parts** sees what they see. -/
theorem run_within {c : Chain} (h : parts c.place.part = true) (input : String) : (c.run input).Within parts := by
  refine run_closed (Act.Seeing.within parts).toClosed (fun _ => trivial) (fun _ s _ text => ?_) input
  refine s.outputs_within ?_ text
  exact h

/-- **A chain at no part of them** is not seen by them. -/
theorem run_outside {c : Chain} (h : parts c.place.part = false) (input : String) : (c.run input).Outside parts := by
  refine run_closed (.outside parts) (fun _ => trivial) (fun _ s _ text => ?_) input
  refine s.outputs_outside ?_ text
  exact h

end Chain

/-! ## Files -/

/-- a stage that leaves the files as they were -/
def Stage.Still (s : Stage) : Prop := ∀ place input w, (s.outputs place input w).2.files = w.files

/-- an action that leaves the files as they were -/
def Act.Still {α : Type} (a : Act α) : Prop := ∀ w, (a w).2.files = w.files

theorem Act.Closed.still : Closed (fun _ => True) Still where
  pure _ _ := rfl
  bind ha hf w := (hf _ _).trans (ha w)
  measure _ ha := ha

/-- a chain of stages that leave the files as they were -/
theorem Chain.run_still {c : Chain} (h : ∀ s ∈ c.stages, s.Still) (input : String) : (c.run input).Still :=
  run_closed .still (fun _ => trivial) (fun _ s hs text => h s (List.mem_of_getElem? hs) _ text) input

end Gleaner
