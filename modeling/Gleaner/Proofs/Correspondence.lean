/-
Worlds that are the same but for where they keep what scripts carry from call to call.

A stage sees the files, the variables and what is kept at its place. So it does the same at another place of another
world if the files and variables are the same there and the same is kept at that place. `R` tells which
places answer to each other in this way; no place answers to two (`Faithful`). Worlds correspond (`World.Corresponds`)
if they keep the same at all places that answer to each other, and actions do (`Act.Corresponds`) if they give results
that go together and leave worlds that correspond.

The number of a stage is part of what a chain without a match or with a failure says. `Renumbered` compares results of
chains whose stages are numbered differently.

Results:
- `Stage.apply_corresponds`: a stage at two places;
- `Chain.runFrom_corresponds`: stages one behind the other, at places with other numbers;
- `Chain.run_corresponds`: a chain that stands elsewhere.
-/
import Gleaner.Proofs.Breakdowns

namespace Gleaner

/-! ## Places -/

/-- another stage of the same chain -/
def Place.at (p : Place) (stage : Nat) : Place := { p with stage := stage }

theorem Place.at_inj {p : Place} {i j : Nat} : p.at i = p.at j ↔ i = j := by
  constructor
  · intro h
    exact congrArg Place.stage h
  · rintro rfl
    rfl

/-- the places behind the next one -/
theorem Place.next_at (p : Place) (i : Nat) :
    ({ p with stage := p.stage + 1 } : Place).at (p.stage + 1 + i) = p.at (p.stage + (i + 1)) := by
  rw [Nat.add_assoc, Nat.add_comm 1]
  rfl

/-- no place answers to two -/
def Faithful (R : Place → Place → Prop) : Prop := ∀ {a a' b b'}, R a a' → R b b' → (a = b ↔ a' = b')

/-- the stages beside a place answer to those beside another -/
def Place.Beside (p p' a a' : Place) : Prop := ∃ i, a = p.at i ∧ a' = p'.at i

theorem Place.beside_faithful (p p' : Place) : Faithful (p.Beside p') := by
  rintro _ _ _ _ ⟨i, rfl, rfl⟩ ⟨j, rfl, rfl⟩
  rw [Place.at_inj, Place.at_inj]

/-! ## Worlds -/

theorem held_endSessions (w : World) (p : Place → Bool) (place : Place) :
    (w.endSessions p).held place = if p place then none else w.held place := by
  change ((w.sessions.filter fun s => !p s.1).find? (·.1 == place)).map (·.2) = _
  rw [List.find?_filter]
  split
  · rename_i hends
    rw [Option.map_eq_none_iff, List.find?_eq_none]
    intro s _
    by_cases hs : s.1 = place <;> simp [hs, hends]
  · rename_i hkeeps
    refine congrArg (Option.map Prod.snd) (congrArg (List.find? · w.sessions) (funext fun s => ?_))
    by_cases hs : s.1 = place <;> simp [hs, hkeeps]

theorem held_keep (w : World) (place other : Place) (kept : Option Kept) :
    (w.keep place kept).held other = if place = other then kept else w.held other := by
  have hothers : (w.endSessions (· == place)).held other = if place = other then none else w.held other := by
    rw [held_endSessions]
    simp only [beq_iff_eq, @eq_comm _ other]
  cases kept with
  | none => exact hothers
  | some kept =>
    change (((place, kept) :: (w.endSessions (· == place)).sessions).find? (·.1 == other)).map (·.2) = _
    rw [List.find?_cons]
    by_cases heq : place = other
    · simp [heq]
    · have hne : (place == other) = false := by simpa using heq
      simp only [hne, heq, if_false] at hothers ⊢
      exact hothers

/-- two worlds have the same files and variables and keep the same at places that answer to each other -/
structure World.Corresponds (R : Place → Place → Prop) (w w' : World) : Prop where
  files : w.files = w'.files
  env : w.env = w'.env
  held : ∀ {a a'}, R a a' → w.held a = w'.held a'

variable {R : Place → Place → Prop} {w w' : World}

theorem World.Corresponds.host (h : World.Corresponds R w w') : w.host = w'.host := by
  rw [World.host, World.host, h.files, h.env]

/-- whatever is written to the files of both -/
theorem World.Corresponds.write (h : World.Corresponds R w w') (change : FileNode → FileNode) :
    World.Corresponds R { w with files := change w.files } { w' with files := change w'.files } :=
  ⟨congrArg change h.files, h.env, h.held⟩

/-- two steps from a world to another, the places of which answer to each other directly -/
theorem World.Corresponds.of_same {v : World} (h : World.Corresponds R w w') (hv : World.Corresponds Eq v w) :
    World.Corresponds R v w' :=
  ⟨hv.files.trans h.files, hv.env.trans h.env, fun hR => (hv.held rfl).trans (h.held hR)⟩

theorem World.Corresponds.of_both {v v' : World} (h : World.Corresponds R w w') (hv : World.Corresponds Eq v w)
    (hv' : World.Corresponds Eq v' w') : World.Corresponds R v v' :=
  ⟨hv.files.trans (h.files.trans hv'.files.symm), hv.env.trans (h.env.trans hv'.env.symm),
    fun hR => (hv.held rfl).trans ((h.held hR).trans (hv'.held rfl).symm)⟩

theorem World.Corresponds.refl (w : World) : World.Corresponds Eq w w := ⟨rfl, rfl, fun h => congrArg w.held h⟩

/-! ## Actions -/

namespace Act

variable {α α' β β' ε ε' : Type} {Q : α → α' → Prop} {P : β → β' → Prop}

/-- in worlds that correspond two actions give results that go together, and they leave worlds that correspond -/
def Corresponds (R : Place → Place → Prop) (Q : α → α' → Prop) (a : Act α) (b : Act α') : Prop :=
  ∀ w w', World.Corresponds R w w' → Q (a w).1 (b w').1 ∧ World.Corresponds R (a w).2 (b w').2

theorem Corresponds.pure {v : α} {v' : α'} (h : Q v v') : Corresponds R Q (pure v) (pure v') := fun _ _ hw => ⟨h, hw⟩

theorem Corresponds.bind {a : Act α} {b : Act α'} {f : α → Act β} {g : α' → Act β'} (ha : Corresponds R Q a b)
    (hf : ∀ v v', Q v v' → Corresponds R P (f v) (g v')) : Corresponds R P (a >>= f) (b >>= g) := by
  intro w w' hw
  obtain ⟨hresult, hworld⟩ := ha w w' hw
  rw [bind_run, bind_run]
  exact hf _ _ hresult _ _ hworld

theorem Corresponds.mono {P : α → α' → Prop} {a : Act α} {b : Act α'} (h : Corresponds R Q a b)
    (himp : ∀ v v', Q v v' → P v v') : Corresponds R P a b :=
  fun w w' hw => ⟨himp _ _ (h w w' hw).1, (h w w' hw).2⟩

/-- what holds of all results of the first action -/
theorem Corresponds.and_always {a : Act α} {b : Act α'} {S : α → Prop} (h : Corresponds R Q a b) (ha : Always S a) :
    Corresponds R (fun v v' => Q v v' ∧ S v) a b :=
  fun w w' hw => ⟨⟨(h w w' hw).1, ha w⟩, (h w w' hw).2⟩

/-- actions that give the same, and then others -/
theorem Corresponds.bind_eq {a b : Act α} {f : α → Act β} {g : α → Act β'} (ha : Corresponds R Eq a b)
    (hf : ∀ v, Corresponds R P (f v) (g v)) : Corresponds R P (a >>= f) (b >>= g) :=
  ha.bind fun v _ hv => hv ▸ hf v

/-- samples are not seen, whatever their keys are -/
theorem Corresponds.measure (key key' : String) {Q : Except ε α → Except ε' α' → Prop} {a : Act (Except ε α)}
    {b : Act (Except ε' α')} (h : Corresponds R Q a b) :
    Corresponds R Q (Act.measure key a) (Act.measure key' b) := by
  intro w w' hw
  obtain ⟨hresult, hworld⟩ := h w w' hw
  exact ⟨hresult, hworld.files, hworld.env, hworld.held⟩

/-- calls of one script, each with what is kept at its place -/
theorem Corresponds.call (hR : Faithful R) {place place' : Place} (h : R place place') (script : Callable)
    (text : String) : Corresponds R Eq (Act.call place script text) (Act.call place' script text) := by
  intro w w' hw
  have hturn : script text (w.held place) w.host = script text (w'.held place') w'.host := by rw [hw.held h, hw.host]
  refine ⟨congrArg Turn.result hturn, congrArg Turn.files hturn, hw.env, fun {a a'} ha => ?_⟩
  -- no place answers to two, so what is kept at one place is kept at the other just there
  change (World.keep _ place (script text (w.held place) w.host).kept).held a =
    (World.keep _ place' (script text (w'.held place') w'.host).kept).held a'
  rw [held_keep, held_keep, hturn]
  simp only [hR h ha]
  split
  · rfl
  · exact hw.held ha

/-- an action leaves the variables as they were, and what is kept at the places of `S` -/
def Leaves (S : Place → Prop) (a : Act α) : Prop :=
  ∀ w, (a w).2.env = w.env ∧ ∀ place, S place → (a w).2.held place = w.held place

variable {S : Place → Prop}

theorem Leaves.pure (v : α) : Leaves S (pure v : Act α) := fun _ => ⟨rfl, fun _ _ => rfl⟩

theorem Leaves.bind {a : Act α} {f : α → Act β} (ha : Leaves S a) (hf : ∀ v, Leaves S (f v)) : Leaves S (a >>= f) := by
  intro w
  obtain ⟨henv, hheld⟩ := ha w
  obtain ⟨henv', hheld'⟩ := hf (a w).1 (a w).2
  exact ⟨henv'.trans henv, fun place hplace => (hheld' place hplace).trans (hheld place hplace)⟩

theorem Leaves.measure (key : String) {a : Act (Except ε α)} (ha : Leaves S a) : Leaves S (Act.measure key a) :=
  ha.bind fun _ _ => ⟨rfl, fun _ _ => rfl⟩

theorem Leaves.call {place : Place} (h : ¬ S place) (script : Callable) (text : String) :
    Leaves S (Act.call place script text) := by
  intro w
  refine ⟨rfl, fun other hother => ?_⟩
  have hne : place ≠ other := fun heq => h (heq ▸ hother)
  change (World.keep _ place (script text (w.held place) w.host).kept).held other = _
  rw [held_keep, if_neg hne]
  rfl

theorem Closed.leaves (S : Place → Prop) : Closed (fun _ => True) (Leaves S) := ⟨.pure, .bind, fun _ => .measure _⟩

end Act

open Act

/-! ## Stages -/

namespace Stage

variable (s : Stage) {place place' : Place}

theorem outputs_corresponds (hR : Faithful R) (h : R place place') (input : String) :
    Act.Corresponds R Eq (s.outputs place input) (s.outputs place' input) := by
  cases s with
  | shell script => exact .call hR h script.turn input
  | lua script => exact .call hR h script.turn input
  | _ => exact .pure rfl

/-- **A stage at two places** that answer to each other -/
theorem apply_corresponds (hR : Faithful R) (h : R place place') (last : Bool) (input : String) :
    Act.Corresponds R Eq (s.apply place last input) (s.apply place' last input) := by
  refine Act.Corresponds.bind_eq ?_ fun r => .pure rfl
  unfold found
  split
  · exact s.outputs_corresponds hR h input
  · unfold gated
    split
    · exact .pure rfl
    · exact outputs_corresponds _ hR h input

/-- **A stage touches what is kept at its own place** and nowhere else. -/
theorem outputs_leaves {S : Place → Prop} (h : ¬ S place) (input : String) : Act.Leaves S (s.outputs place input) := by
  cases s with
  | shell script => exact .call h script.turn input
  | lua script => exact .call h script.turn input
  | _ => exact .pure _

end Stage

/-! ## Chains -/

namespace Chain

/-- results of chains that are the same but for the number of the stage that they name: `N` compares the numbers of
stages that leave nothing, and `F` those of stages that fail -/
inductive Renumbered (N F : Nat → Nat → Prop) : MatchResult → MatchResult → Prop where
  | ok (found : List String) : Renumbered N F (.ok found) (.ok found)
  | nothing {i j : Nat} (h : N i j) :
      Renumbered N F (.error (.unmatched (stageLabel i))) (.error (.unmatched (stageLabel j)))
  | failed {i j : Nat} (h : F i j) {e : MatchError} (hhard : e.isUnmatched = false) :
      Renumbered N F (.error (e.within (stageLabel i))) (.error (e.within (stageLabel j)))

variable {N F : Nat → Nat → Prop} {r r' : MatchResult} {place place' : Place}

theorem Renumbered.mono {N' F' : Nat → Nat → Prop} (h : Renumbered N F r r') (hN : ∀ i j, N i j → N' i j)
    (hF : ∀ i j, F i j → F' i j) : Renumbered N' F' r r' := by
  cases h with
  | ok found => exact .ok found
  | nothing h => exact .nothing (hN _ _ h)
  | failed h hhard => exact .failed (hF _ _ h) hhard

theorem Renumbered.eq (h : Renumbered N F r r') (hN : ∀ i j, N i j → i = j) (hF : ∀ i j, F i j → i = j) : r = r' := by
  cases h with
  | ok found => rfl
  | nothing h => rw [hN _ _ h]
  | failed h _ => rw [hF _ _ h]

/-- the numbers of two stages that stand at two places -/
def Standing (place place' : Place) (i j : Nat) : Prop := i = place.stage ∧ j = place'.stage

/-- the numbers of two stages that are equally far behind two places -/
def Counted (place place' : Place) (i j : Nat) : Prop := ∃ d, i = place.stage + d ∧ j = place'.stage + d

theorem Standing.counted {i j : Nat} (h : Standing place place' i j) : Counted place place' i j := ⟨0, h⟩

theorem Counted.behind {i j : Nat}
    (h : Counted { place with stage := place.stage + 1 } { place' with stage := place'.stage + 1 } i j) :
    Counted place place' i j := by
  obtain ⟨d, hi, hj⟩ := h
  exact ⟨d + 1, by rw [hi]; simp only; omega, by rw [hj]; simp only; omega⟩

theorem applyFrom_corresponds (hR : Faithful R) (h : R place place') (s : Stage) (last : Bool)
    (done : List (List String)) (texts : List String) :
    Act.Corresponds R (Renumbered (Standing place place') (Standing place place')) (applyFrom s place last done texts)
      (applyFrom s place' last done texts) := by
  induction texts generalizing done with
  | nil => exact .pure (.ok _)
  | cons text rest ih =>
    unfold applyFrom
    refine ((s.apply_corresponds hR h last text).measure _ _).bind_eq fun r => ?_
    cases r with
    | ok found => exact ih _
    | error e =>
      simp only
      split
      · exact ih _
      · rename_i hhard
        have hstanding : Standing place place' place.stage place'.stage := ⟨rfl, rfl⟩
        exact .pure (.failed hstanding (Bool.eq_false_iff.2 hhard))

/-- **Stages one behind the other** that stand elsewhere -/
theorem runFrom_corresponds (hR : Faithful R) {stages : List Stage}
    (h : ∀ i, R (place.at (place.stage + i)) (place'.at (place'.stage + i))) (texts : List String) :
    Act.Corresponds R (Renumbered (Counted place place') (Counted place place')) (runFrom place stages texts)
      (runFrom place' stages texts) := by
  induction stages generalizing place place' texts with
  | nil => exact .pure (.ok _)
  | cons s rest ih =>
    unfold runFrom
    have hstanding : Standing place place' place.stage place'.stage := ⟨rfl, rfl⟩
    refine (applyFrom_corresponds hR (h 0) s rest.isEmpty [] texts).bind fun r r' hr => ?_
    cases hr with
    | nothing hstanding => exact .pure (.nothing hstanding.counted)
    | failed hstanding hhard => exact .pure (.failed hstanding.counted hhard)
    | ok found =>
      cases found with
      | nil => exact .pure (.nothing hstanding.counted)
      | cons first others =>
        have hbehind : ∀ i, R (({ place with stage := place.stage + 1 } : Place).at (place.stage + 1 + i))
            (({ place' with stage := place'.stage + 1 } : Place).at (place'.stage + 1 + i)) := by
          intro i
          rw [Place.next_at, Place.next_at]
          exact h (i + 1)
        exact (ih hbehind (first :: others)).mono fun v v' hv =>
          hv.mono (fun _ _ => Counted.behind) fun _ _ => Counted.behind

/-- **A chain that stands elsewhere** gives the same. -/
theorem run_corresponds {c c' : Chain} (hR : Faithful R) (hstages : c.stages = c'.stages)
    (hstart : c.place.stage = c'.place.stage) (h : ∀ i, R (c.place.at i) (c'.place.at i)) (input : String) :
    Act.Corresponds R Eq (c.run input) (c'.run input) := by
  unfold run
  rw [← hstages]
  split
  · exact .pure rfl
  · have hplaces : ∀ i, R (c.place.at (c.place.stage + i)) (c'.place.at (c'.place.stage + i)) :=
      fun i => hstart ▸ h (c.place.stage + i)
    have hcount : ∀ i j, Counted c.place c'.place i j → i = j := by
      rintro i j ⟨d, rfl, rfl⟩
      rw [hstart]
    exact (runFrom_corresponds hR hplaces [input]).mono fun r r' hr => hr.eq hcount hcount

end Chain

end Gleaner
