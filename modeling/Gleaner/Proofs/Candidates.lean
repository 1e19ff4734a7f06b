/-
Stages that are functions of their candidate.

A script is one if calls leave the files as they are, and if whatever they leave to be kept, each is answered like the
first (`Callable.Stateless`): a Lua program that carries nothing from one call to the next, or a shell script that
leaves the files alone, its own one included. All other stages are functions anyway (`Stage.IsFunction`).

A world is settled if its files and variables are given ones and everything that is kept in it has been left by calls of
the script that stands at its place (`World.Settled`). In settled worlds, stages that are functions give the same and
leave the world settled, and so do chains of them (`Chain.run_gives`). What a chain gives is never the sign of a signal
that was up (`Chain.run_uncut`).
-/
import Gleaner.Proofs.Actions

namespace Gleaner

/-! ## Scripts and stages -/

namespace Callable

/-- what calls of a script leave to be kept while files and variables stay the same -/
inductive Reached (script : Callable) (host : Lua.Host) : Option Kept → Prop where
  | nothing : Reached script host none
  | called {kept : Option Kept} (h : Reached script host kept) (text : String) :
      Reached script host (script text kept host).kept

/-- calls leave the files as they are -/
def Spares (script : Callable) (host : Lua.Host) : Prop :=
  ∀ text kept, script.Reached host kept → (script text kept host).files = host.files

/-- a script that carries nothing from one call to the next -/
structure Stateless (script : Callable) (host : Lua.Host) : Prop where
  files : script.Spares host
  result : ∀ text kept, script.Reached host kept → (script text kept host).result = (script text none host).result

end Callable

/-- how a stage is called if it is a script -/
def Stage.callable? : Stage → Option Callable
  | .shell script => some script.turn
  | .lua script => some script.turn
  | _ => none

/-- a stage whose outputs are a function of its candidate -/
def Stage.IsFunction (files : FileNode) (env : Environment) (s : Stage) : Prop :=
  match s.callable? with
  | some script => script.Stateless { files := files, env := env }
  | none => True

theorem Stage.IsFunction.stateless {files : FileNode} {env : Environment} {s : Stage} (h : s.IsFunction files env)
    {script : Callable} (hs : s.callable? = some script) : script.Stateless { files := files, env := env } := by
  unfold IsFunction at h
  rwa [hs] at h

/-- a stage that is a script is called, and the others do the same in every world -/
theorem Stage.outputs_cases (s : Stage) (place : Place) (input : String) :
    (∃ script, s.callable? = some script ∧ s.outputs place input = Act.call place script input) ∨
      ∃ r, s.outputs place input = pure r := by
  cases s with
  | shell script => exact .inl ⟨_, rfl, rfl⟩
  | lua script => exact .inl ⟨_, rfl, rfl⟩
  | _ => exact .inr ⟨_, rfl⟩

/-! ## Settled worlds -/

/-- the world before anything has happened -/
def World.fresh (files : FileNode) (env : Environment) : World := { files := files, env := env }

/-- the files and variables are given ones, and what is kept at each place has been left by calls; `scripts` tells which
script stands where -/
structure World.Settled (scripts : Place → Option Callable) (files : FileNode) (env : Environment) (w : World) :
    Prop where
  files_eq : w.files = files
  env_eq : w.env = env
  sessions : ∀ place kept, (place, kept) ∈ w.sessions →
    ∃ script, scripts place = some script ∧ script.Reached { files := files, env := env } (some kept)

variable {scripts : Place → Option Callable} {files : FileNode} {env : Environment}

namespace World

theorem settled_fresh : (World.fresh files env).Settled scripts files env :=
  ⟨rfl, rfl, fun _ _ hmem => absurd hmem List.not_mem_nil⟩

/-- a settled world stays settled while its files and variables stay as they are and what is kept only goes -/
theorem Settled.of_subset {w w' : World} (h : w.Settled scripts files env) (hfiles : w'.files = files)
    (henv : w'.env = w.env) (hsessions : w'.sessions ⊆ w.sessions) : w'.Settled scripts files env :=
  ⟨hfiles, henv.trans h.env_eq, fun place kept hmem => h.sessions place kept (hsessions hmem)⟩

theorem Settled.lasting : World.Lasting (World.Settled scripts files env) := fun _ _ hfiles henv hsessions h =>
  h.of_subset (hfiles.symm.trans h.files_eq) henv.symm (hsessions ▸ List.Subset.refl _)

theorem Settled.of_samples (w : World) (samples : List Sample) (h : w.Settled scripts files env) :
    { w with samples := samples }.Settled scripts files env :=
  h.of_subset h.files_eq rfl (List.Subset.refl _)

theorem Settled.host {w : World} (h : w.Settled scripts files env) :
    w.host = ({ files := files, env := env } : Lua.Host) := by
  rw [World.host, h.files_eq, h.env_eq]

variable {place : Place} {script : Callable} {w : World}

theorem Settled.reached (h : w.Settled scripts files env) (hplace : scripts place = some script) :
    script.Reached { files := files, env := env } (w.held place) := by
  cases hheld : w.held place with
  | none => exact .nothing
  | some kept =>
    obtain ⟨⟨other, _⟩, hfind, rfl⟩ := Option.map_eq_some_iff.1 hheld
    have hother : other = place := by simpa using List.find?_some hfind
    obtain ⟨found, hfound, hreached⟩ := h.sessions other _ (List.mem_of_find?_eq_some hfind)
    rw [hother, hplace] at hfound
    cases hfound
    exact hreached

theorem Settled.keep (h : w.Settled scripts files env) (hplace : scripts place = some script) {kept : Option Kept}
    (hkept : script.Reached { files := files, env := env } kept) : (w.keep place kept).Settled scripts files env := by
  refine ⟨h.files_eq, h.env_eq, fun other session hmem => ?_⟩
  rcases List.mem_append.1 hmem with hhere | hother
  · cases kept with
    | none => cases hhere
    | some kept =>
      cases List.mem_singleton.1 hhere
      exact ⟨script, hplace, hkept⟩
  · exact h.sessions other session (List.mem_filter.1 hother).1

end World

open Act

/-! ## What stages and chains give in settled worlds -/

theorem World.Settled.call_run {w : World} {place : Place} (hw : w.Settled scripts files env) (script : Callable)
    (text : String) :
    Act.call place script text w =
      ((script text (w.held place) { files := files, env := env }).result,
        { w with files := (script text (w.held place) { files := files, env := env }).files }.keep place
          (script text (w.held place) { files := files, env := env }).kept) := by
  rw [← hw.host]
  rfl

/-- **A script that spares the files** leaves the world settled. -/
theorem Act.call_maintains {place : Place} {script : Callable} (hplace : scripts place = some script)
    (h : script.Spares { files := files, env := env }) (text : String) :
    Maintains (World.Settled scripts files env) (fun _ => True) (Act.call place script text) := by
  intro w hw
  have hreached := hw.reached hplace
  rw [hw.call_run]
  refine ⟨trivial, World.Settled.keep ?_ hplace (hreached.called text)⟩
  exact hw.of_subset (h text _ hreached) rfl (List.Subset.refl _)

/-- **A script that carries nothing over** is answered like the first time, and leaves the world settled. -/
theorem Act.call_gives {place : Place} {script : Callable} (hplace : scripts place = some script)
    (h : script.Stateless { files := files, env := env }) (text : String) :
    Gives (World.Settled scripts files env) (Act.call place script text)
      (script text none { files := files, env := env }).result := by
  intro w hw
  refine ⟨?_, (call_maintains hplace h.files text w hw).2⟩
  rw [hw.call_run]
  exact h.result text _ (hw.reached hplace)

namespace Stage

theorem outputs_steady {s : Stage} {place : Place} (h : s.IsFunction files env)
    (hplace : ∀ script, s.callable? = some script → scripts place = some script) (input : String) :
    Steady (World.Settled scripts files env) (s.outputs place input) := by
  rcases s.outputs_cases place input with ⟨script, hs, hcall⟩ | ⟨r, hpure⟩
  · rw [hcall]
    exact ⟨_, call_gives (hplace script hs) (h.stateless hs) input⟩
  · rw [hpure]
    exact Steady.pure _

theorem apply_steady {s : Stage} {place : Place} (h : s.IsFunction files env)
    (hplace : ∀ script, s.callable? = some script → scripts place = some script) (last : Bool) (input : String) :
    Steady (World.Settled scripts files env) (s.apply place last input) :=
  apply_closed (.steady World.Settled.of_samples) (outputs_steady h hplace input) last

end Stage

namespace Chain

/-- the scripts of a chain stand where `scripts` says -/
def Stands (scripts : Place → Option Callable) (place : Place) (stages : List Stage) : Prop :=
  ∀ i script, stages[i]?.bind Stage.callable? = some script →
    scripts { place with stage := place.stage + i } = some script

/-- what a chain gives in a fresh world -/
def value (files : FileNode) (env : Environment) (c : Chain) (input : String) : MatchResult :=
  (c.run input (World.fresh files env)).1

/-- **A chain of functions is a function**: it gives the same in all settled worlds, and leaves them settled. -/
theorem run_gives {c : Chain} (h : ∀ s ∈ c.stages, s.IsFunction files env)
    (hplace : Stands scripts c.place c.stages) (input : String) :
    Gives (World.Settled scripts files env) (c.run input) (c.value files env input) := by
  refine Steady.gives (run_closed (.steady World.Settled.of_samples) (fun _ => trivial) (fun i s hs text => ?_) input)
    World.settled_fresh
  refine s.outputs_steady (h s (List.mem_of_getElem? hs)) (fun script hscript => hplace i script ?_) text
  rw [hs]
  exact hscript

/-- **A chain whose scripts spare the files** leaves settled worlds settled. -/
theorem run_maintains {c : Chain}
    (h : ∀ s ∈ c.stages, ∀ script, s.callable? = some script → script.Spares { files := files, env := env })
    (hplace : Stands scripts c.place c.stages) (input : String) :
    Maintains (World.Settled scripts files env) (fun _ => True) (c.run input) := by
  refine run_closed (Seeing.maintains World.Settled.lasting).toClosed (fun _ => trivial) (fun i s hs text => ?_) input
  rcases s.outputs_cases _ text with ⟨script, hscript, hcall⟩ | ⟨r, hpure⟩
  · rw [hcall]
    refine call_maintains (hplace i script ?_) (h s (List.mem_of_getElem? hs) script hscript) text
    rw [hs]
    exact hscript
  · rw [hpure]
    exact .pure trivial

end Chain

/-! ## The signal does not show in results of chains -/

/-- a result that is not the sign of a signal that was up -/
def Uncut (r : MatchResult) : Prop := ∀ e, r = .error e → e.isCancelled = false

theorem uncut_ok (found : List String) : Uncut (.ok found) := nofun

theorem uncut_error {e : MatchError} (h : e.isCancelled = false) : Uncut (.error e) := by
  rintro _ ⟨⟩
  exact h

theorem MatchError.isCancelled_within (e : MatchError) (place : String) :
    (e.within place).isCancelled = e.isCancelled := by
  cases e <;> rfl

theorem MatchError.isUnmatched_within (e : MatchError) (place : String) :
    (e.within place).isUnmatched = e.isUnmatched := by
  cases e <;> rfl

theorem MatchError.isCancelled_foldl_within (e : MatchError) (places : List String) :
    (places.foldl MatchError.within e).isCancelled = e.isCancelled := by
  induction places generalizing e with
  | nil => rfl
  | cons place rest ih => exact (ih (e.within place)).trans (e.isCancelled_within place)

theorem Lua.Script.answer_uncut (s : Lua.Script) (o : Lua.Outcome) : Uncut (s.answer o) := by
  cases o with
  | text bytes => exact uncut_ok _
  | other kind => exact uncut_error rfl
  | failed reason => exact uncut_error rfl

theorem Lua.Script.turn_uncut (s : Lua.Script) (input : String) (kept : Option Kept) (host : Lua.Host) :
    Uncut (s.turn input kept host).result := by
  unfold turn
  split
  · exact uncut_error rfl
  · exact s.answer_uncut _

theorem Shell.Script.answer_uncut (outcome : Except Shell.Refusal Utf8.Bytes) : Uncut (answer outcome) := by
  cases outcome with
  | ok output => exact uncut_ok _
  | error refusal => exact uncut_error rfl

theorem Shell.Script.turn_uncut (s : Shell.Script) (input : String) (kept : Option Kept) (host : Lua.Host) :
    Uncut (s.turn input kept host).result := by
  unfold turn
  split
  · exact answer_uncut (.error _)
  · exact answer_uncut _

namespace Stage

theorem whenMatched_uncut (matched : Bool) (what : String) (found : List String) :
    Uncut (whenMatched matched what found) := by
  unfold whenMatched
  split
  · exact uncut_ok _
  · exact uncut_error rfl

theorem outputs_uncut (s : Stage) (place : Place) (input : String) : Always Uncut (s.outputs place input) := by
  cases s with
  | regex p constants => exact Always.pure (whenMatched_uncut _ _ _)
  | negated p constants => exact Always.pure (whenMatched_uncut _ _ _)
  | template p text => exact Always.pure (whenMatched_uncut _ _ _)
  | values constants => exact Always.pure (uncut_ok _)
  | glob g => exact Always.pure (whenMatched_uncut _ _ _)
  | shell script => exact fun w => script.turn_uncut input _ _
  | lua script => exact fun w => script.turn_uncut input _ _

theorem apply_uncut (s : Stage) (place : Place) (last : Bool) (input : String) :
    Always Uncut (s.apply place last input) := by
  have hfound : Always Uncut (s.found place last input) := by
    unfold found gated
    split
    · exact s.outputs_uncut place input
    · split
      · exact Always.pure (whenMatched_uncut _ _ _)
      · exact outputs_uncut _ place input
  refine hfound.bind fun r hr => Always.pure ?_
  cases r with
  | error e => exact hr
  | ok found =>
    change Uncut (dropBlank s.kind found)
    unfold dropBlank
    split
    · exact uncut_error rfl
    · exact uncut_ok _

end Stage

namespace Chain

theorem applyFrom_uncut (s : Stage) (place : Place) (last : Bool) (done : List (List String)) (texts : List String) :
    Always Uncut (applyFrom s place last done texts) := by
  induction texts generalizing done with
  | nil => exact Always.pure (uncut_ok _)
  | cons text rest ih =>
    unfold applyFrom
    have happly : Always Uncut (Act.measure ("matcher-" ++ s.kind) (s.apply place last text)) :=
      s.apply_uncut place last text
    refine happly.bind fun r hr => ?_
    cases r with
    | ok found => exact ih _
    | error e =>
      simp only
      split
      · exact ih _
      · exact Always.pure (uncut_error ((e.isCancelled_within _).trans (hr e rfl)))

/-- **No chain gives the sign of a signal.** -/
theorem run_uncut (c : Chain) (input : String) : Always Uncut (c.run input) := by
  have hfrom : ∀ (stages : List Stage) (place : Place) (texts : List String),
      Always Uncut (runFrom place stages texts) := by
    intro stages
    induction stages with
    | nil => exact fun _ texts => Always.pure (uncut_ok texts)
    | cons s rest ih =>
      intro place texts
      unfold runFrom
      refine (applyFrom_uncut s place _ [] texts).bind fun r hr => ?_
      rcases r with e | _ | ⟨found, more⟩
      · exact Always.pure hr
      · exact Always.pure (uncut_error rfl)
      · exact ih _ _
  unfold Chain.run
  split
  · exact Always.pure (uncut_error rfl)
  · exact hfrom _ _ _

end Chain

end Gleaner
