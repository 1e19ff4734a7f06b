/-
What parts of a run come to.

A run writes records and counts, and it may end early. What a part of it is to do is a list of events
(`Event`): a path and a line are counted, a record is written, a failure ends the run. `Plays m v evs` says that `m`
does the events and gives `v`: it comes to an end behind all of them, at the first failure among them, or behind some of
them if the signal goes up, and what is kept stays right in any case. How often the signal is looked at does not matter.

Results:
- `Plays.bind`, `Plays.forIn`: parts one after the other, and loops;
- `writeRecord_plays`, `checkSignal_plays`, `act_plays`: the single steps of a run.
-/
import Gleaner.Proofs.Keeping

namespace Gleaner

/-- what a run does -/
inductive Event where
  | root
  | line
  | record (r : Record)
  | fail (e : RunError)

namespace Event

/-- what is written -/
def pieces : Event → List String
  | .record r => r.json.pieces ++ ["\n"]
  | _ => []

/-- what is counted -/
def tally (s : Summary) : Event → Summary
  | .root => { s with roots := s.roots + 1 }
  | .line => { s with lines := s.lines + 1 }
  | .record _ => { s with records := s.records + 1 }
  | .fail _ => s

def isFail : Event → Bool
  | .fail _ => true
  | _ => false

end Event

/-! ## Writing -/

/-- how many bytes pieces have -/
def byteSize (pieces : List String) : Nat := (pieces.map String.utf8ByteSize).sum

namespace Output

/-- an output behind some pieces -/
def written (o : Output) (pieces : List String) : Output :=
  { o with pieces := pieces.reverse ++ o.pieces, size := o.size + byteSize pieces }

/-- there is room for some pieces -/
def Fits (o : Output) (pieces : List String) : Prop := ∀ limit, o.limit = some limit → o.size + byteSize pieces ≤ limit

theorem written_append (o : Output) (xs ys : List String) : o.written (xs ++ ys) = (o.written xs).written ys := by
  simp [written, byteSize, Nat.add_assoc]

theorem Fits.left {o : Output} {xs ys : List String} (h : o.Fits (xs ++ ys)) : o.Fits xs := by
  intro limit hlimit
  have := h limit hlimit
  simp only [byteSize, List.map_append, List.sum_append] at this ⊢
  omega

theorem Fits.right {o : Output} {xs ys : List String} (h : o.Fits (xs ++ ys)) : (o.written xs).Fits ys := by
  intro limit hlimit
  have := h limit hlimit
  simp only [written, byteSize, List.map_append, List.sum_append] at this ⊢
  omega

/-- without a limit there is room for everything -/
theorem fits_of_unlimited {o : Output} (h : o.limit = none) (pieces : List String) : o.Fits pieces := by
  intro limit hlimit
  rw [h] at hlimit
  cases hlimit

/-- pieces for which there is room are all written -/
theorem writeAll_of_fits {o : Output} {pieces : List String} (h : o.Fits pieces) :
    o.writeAll pieces = (o.written pieces, none) := by
  induction pieces generalizing o with
  | nil => rfl
  | cons piece rest ih =>
    have hfirst : o.Fits [piece] := Fits.left h
    have haccepts : o.accepts piece.utf8ByteSize = true := by
      unfold accepts
      cases hlimit : o.limit with
      | none => rfl
      | some limit => simpa [byteSize] using hfirst limit hlimit
    have hwrite : o.write piece = .ok (o.written [piece]) := by
      rw [write, if_pos haccepts]
      rfl
    have hrest : (o.written [piece]).Fits rest := Fits.right h
    rw [writeAll, hwrite]
    exact (ih hrest).trans (by rw [← written_append]; rfl)

end Output

/-! ## Parts of a run -/

theorem Run.bind_run {α β : Type} (m : Run α) (f : α → Run β) (s : RunState) :
    (m >>= f).run s =
      match m.run s with
      | (.ok a, s) => (f a).run s
      | (.error e, s) => (.error e, s) := by
  change ExceptT.bindCont f (m.run s).1 (m.run s).2 = _
  rcases m.run s with ⟨e | a, s⟩ <;> rfl

/-- how a part of a run ended: behind `done`, which are its events, or the first of them up to a failure, or some of
the first of them if the signal rises -/
inductive Ends {α : Type} (fires : Nat → Bool) (v : α) (evs done : List Event) : Except RunError α → Prop where
  | finished (h : done = evs) : Ends fires v evs done (.ok v)
  | failed (e : RunError) (h : done ++ [.fail e] <+: evs) : Ends fires v evs done (.error e)
  | cancelled (hrises : Rises fires) (h : done <+: evs) : Ends fires v evs done (.error .cancelled)

/-- the end of a part behind another one -/
theorem Ends.after {α : Type} {fires : Nat → Bool} {v : α} {ys done : List Event} {r : Except RunError α}
    (h : Ends fires v ys done r) (xs : List Event) : Ends fires v (xs ++ ys) (xs ++ done) r := by
  cases h with
  | finished hall => exact .finished (by rw [hall])
  | failed e hfront => exact .failed e (by rw [List.append_assoc]; exact (List.prefix_append_right_inj _).2 hfront)
  | cancelled hrises hfront => exact .cancelled hrises ((List.prefix_append_right_inj _).2 hfront)

/-- the end of a part that another one does not get behind -/
theorem Ends.before {α β : Type} {fires : Nat → Bool} {u : α} {xs done : List Event} {e : RunError}
    (h : Ends fires u xs done (.error e)) (v : β) (ys : List Event) : Ends fires v (xs ++ ys) done (.error e) := by
  cases h with
  | failed _ hfront => exact .failed e (hfront.trans (List.prefix_append xs ys))
  | cancelled hrises hfront => exact .cancelled hrises (hfront.trans (List.prefix_append xs ys))

/-- a part of a run that began in a state has done some events -/
structure Did (done : List Event) (s s' : RunState) : Prop where
  noFail : ∀ e ∈ done, e.isFail = false
  output : s'.output = s.output.written (done.flatMap Event.pieces)
  summary : s'.summary = done.foldl Event.tally s.summary

/-- nothing is done if nothing is written or counted -/
theorem Did.nothing {s s' : RunState} (houtput : s'.output = s.output) (hsummary : s'.summary = s.summary) :
    Did [] s s' :=
  ⟨fun _ he => absurd he List.not_mem_nil, houtput, hsummary⟩

theorem Did.refl (s : RunState) : Did [] s s := Did.nothing rfl rfl

theorem Did.trans {xs ys : List Event} {s s' s'' : RunState} (h : Did xs s s') (h' : Did ys s' s'') :
    Did (xs ++ ys) s s'' := by
  constructor
  · intro e he
    rcases List.mem_append.1 he with he | he
    · exact h.noFail e he
    · exact h'.noFail e he
  · rw [h'.output, h.output, List.flatMap_append, Output.written_append]
  · rw [h'.summary, h.summary, List.foldl_append]

theorem Did.limit {done : List Event} {s s' : RunState} (h : Did done s s') : s'.output.limit = s.output.limit := by
  rw [h.output]
  rfl

variable {p : Pipeline} {files : FileNode} {env : Environment} {fires : Nat → Bool}

/-- what a part of a run came to from a state: it gave `v` if anything, what is kept stayed right and, if there was room
for what the events write, it did events and ended behind them -/
structure Played (p : Pipeline) (files : FileNode) (env : Environment) (fires : Nat → Bool) {α : Type} (v : α)
    (evs : List Event) (s : RunState) (r : Except RunError α × RunState) : Prop where
  kept : r.2.workspace.KeptUnder p files env fires
  value : ∀ a, r.1 = .ok a → a = v
  did : s.output.Fits (evs.flatMap Event.pieces) → ∃ done, Did done s r.2 ∧ Ends fires v evs done r.1

/-- a part of a run does some events and gives `v`, from any state in which what is kept is right -/
def Plays (p : Pipeline) (files : FileNode) (env : Environment) (fires : Nat → Bool) {α : Type} (m : Run α) (v : α)
    (evs : List Event) : Prop :=
  ∀ s : RunState, s.workspace.KeptUnder p files env fires → Played p files env fires v evs s (m.run s)

section

variable {α β : Type} {m : Run α} {f : α → Run β} {u : α} {v : β} {xs ys : List Event}

theorem Plays.pure (v : α) : Plays p files env fires (pure v : Run α) v [] := fun s hs =>
  ⟨hs, fun _ h => (Except.ok.inj h).symm, fun _ => ⟨[], Did.refl s, .finished rfl⟩⟩

theorem Plays.fail (v : α) (e : RunError) (more : List Event) :
    Plays p files env fires (throw e : Run α) v (.fail e :: more) := fun s hs =>
  ⟨hs, nofun, fun _ => ⟨[], Did.refl s, .failed e (List.cons_prefix_cons.2 ⟨rfl, List.nil_prefix⟩)⟩⟩

/-- the end of a run that was cancelled comes before any events -/
theorem Plays.cancel (hrises : Rises fires) (v : α) (evs : List Event) :
    Plays p files env fires (throw .cancelled : Run α) v evs := fun s hs =>
  ⟨hs, nofun, fun _ => ⟨[], Did.refl s, .cancelled hrises List.nil_prefix⟩⟩

/-- **One part of a run after another.** -/
theorem Plays.bind (h : Plays p files env fires m u xs) (hf : Plays p files env fires (f u) v ys) :
    Plays p files env fires (m >>= f) v (xs ++ ys) := by
  intro s hs
  obtain ⟨hkept, hvalue, hdid⟩ := h s hs
  rw [Run.bind_run]
  rcases hm : m.run s with ⟨e | a, s₁⟩
  · rw [hm] at hkept hdid
    refine ⟨hkept, nofun, fun hfits => ?_⟩
    rw [List.flatMap_append] at hfits
    obtain ⟨done, hdone, hends⟩ := hdid hfits.left
    exact ⟨done, hdone, hends.before v ys⟩
  · have ha : a = u := hvalue a (by rw [hm])
    subst ha
    rw [hm] at hkept hdid
    obtain ⟨hkept₂, hvalue₂, hdid₂⟩ := hf s₁ hkept
    refine ⟨hkept₂, hvalue₂, fun hfits => ?_⟩
    rw [List.flatMap_append] at hfits
    obtain ⟨done, hdone, hends⟩ := hdid hfits.left
    cases hends with
    | finished hall =>
      subst hall
      obtain ⟨done₂, hdone₂, hends₂⟩ := hdid₂ (by rw [hdone.output]; exact hfits.right)
      exact ⟨done ++ done₂, hdone.trans hdone₂, hends₂.after done⟩

/-- a part of a run before which nothing is done -/
theorem Plays.bind_nil (h : Plays p files env fires m u []) (hf : Plays p files env fires (f u) v ys) :
    Plays p files env fires (m >>= f) v ys := h.bind hf

/-- a part of a run behind which nothing is done -/
theorem Plays.bind_pure (h : Plays p files env fires m u xs) (g : α → β) :
    Plays p files env fires (do return g (← m)) (g u) xs := by
  have hboth := Plays.bind (f := fun a => Pure.pure (g a)) h (Plays.pure (g u))
  rwa [List.append_nil] at hboth

/-- **A loop** does the events of its rounds. -/
theorem Plays.forIn {l : List α} {body : α → PUnit → Run (ForInStep PUnit)} {evs : α → List Event}
    (h : ∀ x ∈ l, Plays p files env fires (body x ⟨⟩) (.yield ⟨⟩) (evs x)) :
    Plays p files env fires (forIn l ⟨⟩ body) ⟨⟩ (l.flatMap evs) := by
  induction l with
  | nil => exact Plays.pure _
  | cons x rest ih =>
    rw [List.forIn_cons, List.flatMap_cons]
    exact (h x List.mem_cons_self).bind (ih fun y hy => h y (List.mem_cons_of_mem _ hy))

end

/-! ## Single steps -/

theorem lift_plays {α : Type} {a : StateM Workspace α} {v : α}
    (h : ∀ ws, ws.KeptUnder p files env fires → (a ws).2.KeptUnder p files env fires ∧ (a ws).1 = v) :
    Plays p files env fires (Run.lift a) v [] := by
  intro s hs
  obtain ⟨hkept, hvalue⟩ := h s.workspace hs
  have hrun : (Run.lift a).run s = (.ok (a s.workspace).1, { s with workspace := (a s.workspace).2 }) := rfl
  rw [hrun, hvalue]
  exact ⟨hkept, fun _ h => (Except.ok.inj h).symm, fun _ => ⟨[], Did.nothing rfl rfl, .finished rfl⟩⟩

theorem act_plays {α : Type} {a : Act α} {v : α}
    (h : Act.Gives (World.SettledUnder p.scriptAt files env fires) a v) :
    Plays p files env fires (Run.act a) v [] :=
  lift_plays fun ws hws =>
    have hgives := h ws.world hws.settledUnder
    ⟨hws.act hgives.2, hgives.1⟩

/-- **A look at the signal** does nothing. -/
theorem checkSignal_plays : Plays p files env fires Run.checkSignal ⟨⟩ [] := by
  intro s hs
  have hlook : (Run.act Act.cancelled).run s =
      (.ok (s.workspace.world.signal s.workspace.world.looks),
        { s with workspace := (Workspace.act Act.cancelled s.workspace).2 }) := rfl
  have hkept : (Workspace.act Act.cancelled s.workspace).2.KeptUnder p files env fires :=
    ⟨⟨hs.1.world.of_subset hs.1.world.files_eq rfl (List.Subset.refl _), hs.1.categories, hs.1.categoryNormalizers,
      hs.1.nodeNormalizers⟩, hs.2⟩
  unfold Run.checkSignal
  rw [Run.bind_run, hlook]
  by_cases hup : s.workspace.world.signal s.workspace.world.looks = true
  · have hrises : Rises fires := ⟨_, by rw [← hs.2]; exact hup⟩
    simp only [hup, if_true]
    exact ⟨hkept, nofun, fun _ => ⟨[], Did.nothing rfl rfl, .cancelled hrises List.nil_prefix⟩⟩
  · simp only [hup]
    exact ⟨hkept, fun _ _ => rfl, fun _ => ⟨[], Did.nothing rfl rfl, .finished rfl⟩⟩

/-- **What is counted** is counted. -/
theorem count_plays {e : Event} (hpieces : e.pieces = []) (hfail : e.isFail = false) :
    Plays p files env fires (Run.count fun s => e.tally s) ⟨⟩ [e] := by
  intro s hs
  have hrun : (Run.count fun s => e.tally s).run s = (.ok ⟨⟩, { s with summary := e.tally s.summary }) := rfl
  rw [hrun]
  have hnothing : [e].flatMap Event.pieces = [] := by rw [List.flatMap_singleton, hpieces]
  refine ⟨hs, fun _ _ => rfl, fun _ => ⟨[e], ⟨?_, ?_, rfl⟩, .finished rfl⟩⟩
  · intro other hother
    rw [List.mem_singleton.1 hother]
    exact hfail
  · rw [hnothing]
    rfl

/-- a part of a run that leaves alone what is kept -/
def Run.Keeps {α : Type} (m : Run α) : Prop := ∀ s, (m.run s).2.workspace = s.workspace

theorem Run.Keeps.bind {α β : Type} {m : Run α} {f : α → Run β} (h : Run.Keeps m) (hf : ∀ a, Run.Keeps (f a)) :
    Run.Keeps (m >>= f) := by
  intro s
  have hfirst := h s
  rw [Run.bind_run]
  rcases hm : m.run s with ⟨e | a, s₁⟩
  · rw [hm] at hfirst
    exact hfirst
  · rw [hm] at hfirst
    exact (hf a s₁).trans hfirst

theorem Run.bind_of_ok {α β : Type} {m : Run α} {s s₁ : RunState} {a : α} (h : m.run s = (.ok a, s₁))
    (f : α → Run β) : (m >>= f).run s = (f a).run s₁ := by
  rw [Run.bind_run, h]

theorem Run.write_run (wrap : IoError → RunError) (pieces : List String) (s : RunState) :
    (Run.write wrap pieces).run s =
      ((match (s.output.writeAll pieces).2 with | none => .ok ⟨⟩ | some e => .error (wrap e)),
        { s with output := (s.output.writeAll pieces).1 }) := by
  unfold Run.write
  rw [Run.bind_run]
  change (match (s.output.writeAll pieces).2 with | none => _ | some e => _ : Run Unit).run _ = _
  cases (s.output.writeAll pieces).2 <;> rfl

theorem Run.write_keeps (wrap : IoError → RunError) (pieces : List String) : Run.Keeps (Run.write wrap pieces) := by
  intro s
  rw [Run.write_run]

/-- a write for which there is room -/
theorem Run.write_of_fits {s : RunState} {pieces : List String} (h : s.output.Fits pieces) (wrap : IoError → RunError) :
    (Run.write wrap pieces).run s = (.ok ⟨⟩, { s with output := s.output.written pieces }) := by
  rw [Run.write_run, Output.writeAll_of_fits h]

theorem writeRecord_keeps (r : Record) : Run.Keeps (Pipeline.writeRecord r) :=
  (Run.write_keeps _ _).bind fun _ => (Run.write_keeps _ _).bind fun _ _ => rfl

theorem Event.record_pieces (r : Record) : [Event.record r].flatMap Event.pieces = r.json.pieces ++ ["\n"] :=
  List.flatMap_singleton _ _

/-- a record for which there is room -/
theorem writeRecord_of_fits {r : Record} {s : RunState} (h : s.output.Fits (r.json.pieces ++ ["\n"])) :
    (Pipeline.writeRecord r).run s =
      (.ok ⟨⟩, ⟨s.workspace, s.output.written (r.json.pieces ++ ["\n"]), Event.tally s.summary (.record r)⟩) := by
  have hjson : s.output.Fits r.json.pieces := h.left
  have hend : { s with output := s.output.written r.json.pieces }.output.Fits ["\n"] := h.right
  unfold Pipeline.writeRecord
  rw [Run.bind_of_ok (Run.write_of_fits hjson _), Run.bind_of_ok (Run.write_of_fits hend _), Output.written_append]
  rfl

/-- **A record** is written and counted. -/
theorem writeRecord_plays (r : Record) : Plays p files env fires (Pipeline.writeRecord r) ⟨⟩ [.record r] := by
  intro s hs
  refine ⟨by rw [writeRecord_keeps r s]; exact hs, fun _ _ => rfl, fun hfits => ⟨[.record r], ?_⟩⟩
  rw [Event.record_pieces] at hfits
  rw [writeRecord_of_fits hfits]
  refine ⟨⟨fun e he => ?_, by rw [Event.record_pieces], rfl⟩, .finished rfl⟩
  rw [List.mem_singleton.1 he]
  rfl

end Gleaner
