/-
What the actions of stages can see and what they give.

A stage never looks at the signal and never warns: an action that is `Blind` runs the same whatever the signal, the
looks taken at it and the warnings are, and leaves them as they were (`Chain.run_blind`).

`Act.Gives Ok a v` says that in all worlds of `Ok` the action `a` gives `v` and ends in a world of `Ok`, and
`Act.Steady Ok a` that there is such a `v`. Both are closed under sequencing, so the result of a composed action is
found from those of its parts. `Act.Settles Ok a v cut` allows for other results besides, those that are cut short, and
`Act.Maintains Ok P a` for all that satisfy `P`.

What is closed under sequencing and measuring holds of a chain if it holds of its stages (`Chain.run_closed`).
-/
import Gleaner.Match.Chain

namespace Gleaner

variable {α β ε : Type}

/-! ## Blind actions -/

namespace World

/-- a world in which the signal never goes up, without looks and warnings -/
def core (w : World) : World := { w with signal := fun _ => false, looks := 0, warnings := [] }

/-- a world with the signal, the looks and the warnings of another -/
def under (inner outer : World) : World :=
  { inner with signal := outer.signal, looks := outer.looks, warnings := outer.warnings }

@[simp] theorem core_files (w : World) : w.core.files = w.files := rfl
@[simp] theorem core_env (w : World) : w.core.env = w.env := rfl
@[simp] theorem core_sessions (w : World) : w.core.sessions = w.sessions := rfl
@[simp] theorem core_core (w : World) : w.core.core = w.core := rfl
@[simp] theorem core_under (inner outer : World) : (inner.under outer).core = inner.core := rfl
@[simp] theorem under_files (inner outer : World) : (inner.under outer).files = inner.files := rfl
@[simp] theorem under_signal (inner outer : World) : (inner.under outer).signal = outer.signal := rfl
@[simp] theorem under_looks (inner outer : World) : (inner.under outer).looks = outer.looks := rfl
@[simp] theorem under_under (a b c : World) : a.under (b.under c) = a.under c := rfl
@[simp] theorem under_of_under (a b c : World) : (a.under b).under c = a.under c := rfl
@[simp] theorem core_under_self (w : World) : w.core.under w = w := rfl

end World

namespace Act

theorem bind_run (a : Act α) (f : α → Act β) (w : World) : (a >>= f) w = f (a w).1 (a w).2 := rfl

theorem pure_run (v : α) (w : World) : (pure v : Act α) w = (v, w) := rfl

theorem get_run (w : World) : (get : Act World) w = (w, w) := rfl

/-- an action that neither reads nor writes the signal, the looks and the warnings -/
def Blind (a : Act α) : Prop := ∀ w, a w = ((a w.core).1, (a w.core).2.under w)

theorem Blind.pure (v : α) : Blind (pure v : Act α) := fun _ => rfl

theorem Blind.bind {a : Act α} {f : α → Act β} (ha : Blind a) (hf : ∀ v, Blind (f v)) : Blind (a >>= f) := by
  intro w
  rw [bind_run, bind_run, ha w]
  simp only
  rw [hf _ ((a w.core).2.under w), hf _ (a w.core).2]
  simp

theorem Blind.measure (key : String) {a : Act (Except ε α)} (ha : Blind a) : Blind (Act.measure key a) :=
  ha.bind fun _ _ => rfl

theorem Blind.call (place : Place) (script : Callable) (text : String) : Blind (Act.call place script text) :=
  fun _ => rfl

/-- a blind action leaves the signal alone -/
theorem Blind.signal {a : Act α} (ha : Blind a) (w : World) : (a w).2.signal = w.signal := by rw [ha w]; rfl

/-- a blind action does the same in worlds that differ in what it cannot see -/
theorem Blind.of_core {a : Act α} (ha : Blind a) {w w' : World} (h : w.core = w'.core) :
    (a w).1 = (a w').1 ∧ (a w).2.core = (a w').2.core := by
  rw [ha w, ha w', h]
  exact ⟨rfl, rfl⟩

theorem Blind.looks {a : Act α} (ha : Blind a) (w : World) : (a w).2.looks = w.looks := by rw [ha w]; rfl

/-! ## Actions whose result is known -/

/-- in all worlds of `Ok` an action gives `v` and ends in a world of `Ok` -/
def Gives (Ok : World → Prop) (a : Act α) (v : α) : Prop := ∀ w, Ok w → (a w).1 = v ∧ Ok (a w).2

variable {Ok : World → Prop}

theorem Gives.pure (v : α) : Gives Ok (pure v : Act α) v := fun _ h => ⟨rfl, h⟩

theorem Gives.bind {a : Act α} {f : α → Act β} {u : α} {v : β} (ha : Gives Ok a u) (hf : Gives Ok (f u) v) :
    Gives Ok (a >>= f) v := by
  intro w hw
  obtain ⟨hu, hok⟩ := ha w hw
  have hrun : (a >>= f) w = f u (a w).2 := by rw [← hu]; rfl
  rw [hrun]
  exact hf _ hok

theorem Gives.measure (hOk : ∀ (w : World) samples, Ok w → Ok { w with samples := samples }) (key : String)
    {a : Act (Except ε α)} {v : Except ε α} (ha : Gives Ok a v) : Gives Ok (Act.measure key a) v := by
  intro w hw
  obtain ⟨hv, hok⟩ := ha w hw
  exact ⟨hv, hOk _ _ hok⟩

/-- an action gives one and the same in all worlds of `Ok` -/
def Steady (Ok : World → Prop) (a : Act α) : Prop := ∃ v, Gives Ok a v

theorem Steady.pure (v : α) : Steady Ok (pure v : Act α) := ⟨v, Gives.pure v⟩

theorem Steady.bind {a : Act α} {f : α → Act β} (ha : Steady Ok a) (hf : ∀ v, Steady Ok (f v)) :
    Steady Ok (a >>= f) := by
  obtain ⟨u, hu⟩ := ha
  obtain ⟨v, hv⟩ := hf u
  exact ⟨v, hu.bind hv⟩

theorem Steady.measure (hOk : ∀ (w : World) samples, Ok w → Ok { w with samples := samples }) (key : String)
    {a : Act (Except ε α)} (ha : Steady Ok a) : Steady Ok (Act.measure key a) :=
  ha.bind fun v => ⟨v, fun w hw => ⟨rfl, hOk w _ hw⟩⟩

/-- what a steady action gives can be found in any world of `Ok` -/
theorem Steady.gives {a : Act α} (ha : Steady Ok a) {w : World} (hw : Ok w) : Gives Ok a (a w).1 := by
  obtain ⟨v, hv⟩ := ha
  rw [(hv w hw).1]
  exact hv

/-- in all worlds of `Ok` an action gives `v` or something that is `cut` short, and ends in a world of `Ok` -/
def Settles (Ok : World → Prop) (a : Act α) (v : α) (cut : α → Prop) : Prop :=
  ∀ w, Ok w → ((a w).1 = v ∨ cut (a w).1) ∧ Ok (a w).2

theorem Gives.settles {a : Act α} {v : α} (ha : Gives Ok a v) (cut : α → Prop) : Settles Ok a v cut :=
  fun w hw => ⟨.inl (ha w hw).1, (ha w hw).2⟩

theorem Settles.map {a : Act α} {v : α} {cut : α → Prop} {cut' : β → Prop} (ha : Settles Ok a v cut) (g : α → β)
    (hg : ∀ r, cut r → cut' (g r)) : Settles Ok (do return g (← a)) (g v) cut' := by
  intro w hw
  obtain ⟨hresult, hok⟩ := ha w hw
  exact ⟨hresult.imp (congrArg g) (hg _), hok⟩

theorem Settles.measure (hOk : ∀ (w : World) samples, Ok w → Ok { w with samples := samples }) (key : String)
    {a : Act (Except ε α)} {v : Except ε α} {cut : Except ε α → Prop} (ha : Settles Ok a v cut) :
    Settles Ok (Act.measure key a) v cut := by
  intro w hw
  obtain ⟨hresult, hok⟩ := ha w hw
  exact ⟨hresult, hOk _ _ hok⟩

/-- the result of an action satisfies `P`, in every world -/
def Always (P : α → Prop) (a : Act α) : Prop := ∀ w, P (a w).1

theorem Always.pure {P : α → Prop} {v : α} (h : P v) : Always P (pure v : Act α) := fun _ => h

theorem Always.bind {P : α → Prop} {Q : β → Prop} {a : Act α} {f : α → Act β} (ha : Always P a)
    (hf : ∀ v, P v → Always Q (f v)) : Always Q (a >>= f) := fun w => hf _ (ha w) (a w).2

/-- in all worlds of `Ok` the result of an action satisfies `P`, and it ends in a world of `Ok` -/
def Maintains (Ok : World → Prop) (P : α → Prop) (a : Act α) : Prop := ∀ w, Ok w → P (a w).1 ∧ Ok (a w).2

theorem Maintains.pure {P : α → Prop} {v : α} (h : P v) : Maintains Ok P (pure v : Act α) := fun _ hw => ⟨h, hw⟩

theorem Maintains.bind {P : α → Prop} {Q : β → Prop} {a : Act α} {f : α → Act β} (ha : Maintains Ok P a)
    (hf : ∀ v, P v → Maintains Ok Q (f v)) : Maintains Ok Q (a >>= f) := by
  intro w hw
  obtain ⟨hv, hok⟩ := ha w hw
  exact hf _ hv _ hok

/-- what an action gives in every world -/
theorem Maintains.with_always {P : α → Prop} {a : Act α} (ha : Maintains Ok (fun _ => True) a) (h : Always P a) :
    Maintains Ok P a := fun w hw => ⟨h w, (ha w hw).2⟩

end Act

/-! ## Composed actions -/

/-- what holds of actions that do nothing, of one action after another and of actions that are measured -/
structure Act.Closed (keys : String → Prop) (P : ∀ {α : Type}, Act α → Prop) : Prop where
  pure : ∀ {α : Type} (v : α), P (pure v : Act α)
  bind : ∀ {α β : Type} {a : Act α} {f : α → Act β}, P a → (∀ v, P (f v)) → P (a >>= f)
  measure : ∀ {ε α : Type} {key : String} {a : Act (Except ε α)}, keys key → P a → P (Act.measure key a)

/-- what holds of actions that look at files and at the signal and warn, besides -/
structure Act.Seeing (keys : String → Prop) (P : ∀ {α : Type}, Act α → Prop) : Prop extends Closed keys P where
  get : ∀ {α : Type} {f : World → Act α}, (∀ w w', w.files = w'.files → f w = f w') → (∀ w, P (f w)) → P (get >>= f)
  warn : ∀ text, P (Act.warn text)
  cancelled : P Act.cancelled
  readLines : ∀ source, P (Act.readLines source)

theorem Act.Closed.blind : Closed (fun _ => True) Blind := ⟨.pure, .bind, fun _ => .measure _⟩

theorem Act.Closed.steady {Ok : World → Prop} (hOk : ∀ (w : World) samples, Ok w → Ok { w with samples := samples }) :
    Closed (fun _ => True) (Steady Ok) := ⟨.pure, .bind, fun _ => .measure hOk _⟩

/-- a property of worlds that does not depend on the signal, the looks, the samples and the warnings -/
def World.Lasting (Ok : World → Prop) : Prop :=
  ∀ w w' : World, w.files = w'.files → w.env = w'.env → w.sessions = w'.sessions → Ok w → Ok w'

theorem Act.Seeing.maintains {Ok : World → Prop} (hOk : World.Lasting Ok) :
    Seeing (fun _ => True) (Maintains Ok fun _ => True) where
  pure _ := .pure trivial
  bind ha hf := ha.bind fun v _ => hf v
  measure _ ha := ha.bind fun _ _ w hw => ⟨trivial, hOk w _ rfl rfl rfl hw⟩
  get _ hf w hw := hf w w hw
  warn _ w hw := ⟨trivial, hOk w _ rfl rfl rfl hw⟩
  cancelled w hw := ⟨trivial, hOk w _ rfl rfl rfl hw⟩
  readLines _ w hw := ⟨trivial, hOk w _ rfl rfl rfl hw⟩

section

variable {keys : String → Prop} {P : ∀ {α : Type}, Act α → Prop} (hP : Act.Closed keys P)

include hP

theorem Stage.apply_closed {s : Stage} {place : Place} {input : String} (h : P (s.outputs place input)) (last : Bool) :
    P (s.apply place last input) := by
  refine hP.bind ?_ fun r => hP.pure _
  unfold found
  split
  · exact h
  · unfold gated
    split
    · exact hP.pure _
    · exact h

namespace Chain

variable (hkeys : ∀ kind, keys ("matcher-" ++ kind))

include hkeys

theorem applyFrom_closed {s : Stage} {place : Place} (h : ∀ input, P (s.outputs place input)) (last : Bool)
    (done : List (List String)) (texts : List String) : P (applyFrom s place last done texts) := by
  induction texts generalizing done with
  | nil => exact hP.pure _
  | cons text rest ih =>
    unfold applyFrom
    refine hP.bind (hP.measure (hkeys _) (Stage.apply_closed hP (h text) last)) fun r => ?_
    cases r with
    | ok found => exact ih _
    | error e =>
      simp only
      split
      · exact ih _
      · exact hP.pure _

theorem runFrom_closed {place : Place} {stages : List Stage}
    (h : ∀ (i : Nat) (s : Stage), stages[i]? = some s →
      ∀ input, P (s.outputs { place with stage := place.stage + i } input))
    (texts : List String) : P (runFrom place stages texts) := by
  induction stages generalizing place texts with
  | nil => exact hP.pure _
  | cons s rest ih =>
    unfold runFrom
    refine hP.bind (applyFrom_closed hP hkeys (h 0 s rfl) _ [] texts) fun r => ?_
    match r with
    | .error e => exact hP.pure _
    | .ok [] => exact hP.pure _
    | .ok (_ :: _) =>
      refine ih (fun i s hs => ?_) _
      have hnext := h (i + 1) s hs
      rwa [Nat.add_comm i 1, ← Nat.add_assoc] at hnext

/-- **What holds of the stages of a chain** holds of the chain. -/
theorem run_closed {c : Chain}
    (h : ∀ (i : Nat) (s : Stage), c.stages[i]? = some s →
      ∀ input, P (s.outputs { c.place with stage := c.place.stage + i } input))
    (input : String) : P (c.run input) := by
  unfold run
  split
  · exact hP.pure _
  · exact runFrom_closed hP hkeys h _

end Chain

end

/-! ## Stages are blind -/

theorem Stage.outputs_blind (s : Stage) (place : Place) (input : String) : (s.outputs place input).Blind := by
  cases s with
  | shell script => exact Act.Blind.call place script.turn input
  | lua script => exact Act.Blind.call place script.turn input
  | _ => exact Act.Blind.pure _

theorem Chain.run_blind (c : Chain) (input : String) : (c.run input).Blind :=
  run_closed .blind (fun _ => trivial) (fun _ s _ input => s.outputs_blind _ input) input

end Gleaner
