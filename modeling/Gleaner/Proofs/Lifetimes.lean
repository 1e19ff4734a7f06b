/-
What a chain keeps between its runs.

A history of a chain is what is done with it from outside (`Use`): it is run on texts, files are written in between,
and it is closed. All that a chain keeps is what its scripts keep, each at the place of its stage: the session of a Lua
program and the file that a shell script has been put into. To close the chain is to end that (`Chain.close`). So a
chain that has been closed gives what a chain gives that has just been compiled from the same entries, wherever that
stands.

A script that stands in a chain lives from its first call on (`Lives`): each call finds what the one before has left,
whatever came of that, and starts anew where nothing is kept. A program that cannot be loaded leaves nothing, nor does
a shell script whose file cannot be made, and so the next call tries again.

An interpreter may be a function of programs and calls (`Interpreter`). Then what a Lua script gives is told by the
texts it is called with and by what its source says at the first of them that finds no session
(`Lua.Script.foretold`): whatever is written later makes no difference. That is asked of an interpreter only for the
calls of the history that is spoken of, some of them left out or not (`Interpreter.Runs`), and so it can be checked.

Results:
- `play_corresponds`, `play_closed`: a history after a close, and in a fresh chain;
- `play_lives`: the life of a script in any history;
- `Lives.foretold`: what a script gives if its interpreter is a function;
- `close_resets`: all of it for any compiled chain.
-/
import Gleaner.Proofs.Correspondence
import Gleaner.Proofs.Keeping
import Mathlib.Data.List.ReduceOption
import Mathlib.Data.List.Sublists

namespace Gleaner

open Act Lua

/-! ## Histories -/

/-- what is done with a chain -/
inductive Use where
  | run (input : String)
  | write (change : FileNode → FileNode)
  | close

namespace Chain

/-- a place is that of a stage of a chain -/
def Owns (c : Chain) (place : Place) : Prop := place = c.place.at place.stage

instance (c : Chain) (place : Place) : Decidable (c.Owns place) := inferInstanceAs (Decidable (place = _))

/-- ends what the scripts of a chain keep -/
def close (c : Chain) (w : World) : World := w.endSessions fun place => decide (c.Owns place)

/-- the results of the runs in a history -/
def play (c : Chain) : List Use → Act (List MatchResult)
  | [] => return []
  | .run input :: rest => do
    let r ← c.run input
    return r :: (← c.play rest)
  | .write change :: rest => do
    modify fun w => { w with files := change w.files }
    c.play rest
  | .close :: rest => do
    modify c.close
    c.play rest

end Chain

variable {c c' : Chain}

theorem Chain.held_close (c : Chain) (w : World) (i : Nat) : (c.close w).held (c.place.at i) = none := by
  have howns : c.Owns (c.place.at i) := rfl
  rw [close, held_endSessions, if_pos (decide_eq_true howns)]

/-! ## After a close -/

/-- **A chain that stands elsewhere** gives the same in a history. -/
theorem Chain.play_corresponds (hstages : c.stages = c'.stages) (hstart : c.place.stage = c'.place.stage)
    (uses : List Use) : Act.Corresponds (c.place.Beside c'.place) Eq (c.play uses) (c'.play uses) := by
  induction uses with
  | nil => exact .pure rfl
  | cons use rest ih =>
    cases use with
    | run input =>
      have hrun := Chain.run_corresponds (c.place.beside_faithful c'.place) hstages hstart
        (fun i => ⟨i, rfl, rfl⟩) input
      exact hrun.bind_eq fun r => ih.bind_eq fun results => .pure rfl
    | write change => exact fun w w' hw => ih _ _ (hw.write change)
    | close =>
      intro w w' hw
      refine ih _ _ ⟨hw.files, hw.env, ?_⟩
      rintro _ _ ⟨i, rfl, rfl⟩
      rw [c.held_close, c'.held_close]

/-- **A chain that has been closed** gives what one gives that keeps nothing. -/
theorem Chain.play_closed (c c' : Chain) (hstages : c.stages = c'.stages) (hstart : c.place.stage = c'.place.stage)
    {w w' : World} {p : Place → Bool} (hp : ∀ i, p (c.place.at i) = true) (hfiles : w'.files = w.files)
    (henv : w'.env = w.env) (hfresh : ∀ i, w'.held (c'.place.at i) = none) (uses : List Use) :
    (c.play uses (w.endSessions p)).1 = (c'.play uses w').1 := by
  have hworlds : World.Corresponds (c.place.Beside c'.place) (w.endSessions p) w' := by
    refine ⟨hfiles.symm, henv.symm, ?_⟩
    rintro _ _ ⟨i, rfl, rfl⟩
    rw [held_endSessions, if_pos (hp i), hfresh i]
  exact (play_corresponds hstages hstart uses _ _ hworlds).1

/-! ## Lives of scripts -/

/-- what happens to a script at a place: it is applied to a text, or else it is closed -/
abbrev Happening := Option Application

/-- **The life of a script** at a place. Each application finds what the one before has left, whatever came of that
one, and the first behind a close finds nothing. -/
inductive Lives (s : Stage) (script : Callable) (place : Place) : Option Kept → List Happening → Option Kept → Prop where
  | done (kept : Option Kept) : Lives s script place kept [] kept
  | closed {kept last : Option Kept} {rest : List Happening} (h : Lives s script place none rest last) :
      Lives s script place kept (none :: rest) last
  | applied {kept last : Option Kept} {a : Application} {rest : List Happening} (hplace : a.place = place)
      (hfinds : a.world.held place = kept)
      (hgives : a.outcome.1 = (script a.input kept a.world.host).result >>= Stage.dropBlank s.kind)
      (hleaves : a.outcome.2.held place = (script a.input kept a.world.host).kept)
      (h : Lives s script place (script a.input kept a.world.host).kept rest last) :
      Lives s script place kept (some a :: rest) last

section

variable {s : Stage} {script : Callable} {place : Place}

theorem Lives.append {kept middle last : Option Kept} {first second : List Happening}
    (h : Lives s script place kept first middle) (h' : Lives s script place middle second last) :
    Lives s script place kept (first ++ second) last := by
  induction h with
  | done kept => exact h'
  | closed _ ih => exact .closed (ih h')
  | applied hplace hfinds hgives hleaves _ ih => exact .applied hplace hfinds hgives hleaves (ih h')

/-- a stage that is a script is called with what is kept at its place -/
theorem Application.called {a : Application} (hs : a.stage.callable? = some script) :
    let turn := script a.input (a.world.held a.place) a.world.host
    a.outcome.1 = turn.result >>= Stage.dropBlank a.stage.kind ∧ a.outcome.2.held a.place = turn.kept := by
  obtain ⟨stage, place, last, input, w⟩ := a
  have hheld : (Act.call place script input w).2.held place = (script input (w.held place) w.host).kept :=
    (held_keep _ place place _).trans (if_pos rfl)
  cases stage <;> cases hs
  all_goals cases last <;> exact ⟨rfl, hheld⟩

end

namespace Chain

variable {s : Stage} {script : Callable} {place : Place}

/-- the applications of a script to texts are a part of its life -/
theorem applied_lives (hs : s.callable? = some script) (place : Place) (last : Bool) (done : List (List String))
    (texts : List String) (w : World) :
    Lives s script place (w.held place) ((applied s place last texts w).map some)
      ((applyFrom s place last done texts w).2.held place) := by
  induction texts generalizing done w with
  | nil => exact .done _
  | cons text rest ih =>
    obtain ⟨hgives, hleaves⟩ := (Application.mk s place last text w).called hs
    rw [applyFrom_cons, applied_cons, List.map_cons]
    refine .applied rfl rfl hgives hleaves ?_
    rw [← hleaves]
    rcases (Application.mk s place last text w).outcome with ⟨e | found, w'⟩
    · simp only
      split
      · exact ih _ w'
      · exact .done _
    · exact ih _ w'

theorem applied_place {s : Stage} {last : Bool} {texts : List String} {w : World} :
    ∀ a ∈ applied s place last texts w, a.place = place := by
  induction texts generalizing w with
  | nil => exact fun a ha => absurd ha List.not_mem_nil
  | cons text rest ih =>
    unfold applied
    refine List.forall_mem_cons.2 ⟨rfl, ?_⟩
    split
    · exact ih
    · split
      · exact ih
      · exact fun a ha => absurd ha List.not_mem_nil

/-- stages further on are applied further on -/
theorem appliedFrom_place {stages : List Stage} {texts : List String} {w : World} :
    ∀ a ∈ appliedFrom place stages texts w, place.stage ≤ a.place.stage := by
  induction stages generalizing place texts w with
  | nil => exact fun a ha => absurd ha List.not_mem_nil
  | cons s rest ih =>
    unfold appliedFrom
    refine List.forall_mem_append.2 ⟨fun a ha => (applied_place a ha ▸ le_rfl), ?_⟩
    split
    · exact fun a ha => (Nat.le_succ _).trans (ih a ha)
    · exact fun a ha => absurd ha List.not_mem_nil

/-- stages that stand elsewhere leave what is kept at a place -/
theorem runFrom_held {stages : List Stage} {other : Place}
    (h : ∀ i < stages.length, other ≠ place.at (place.stage + i)) (texts : List String) (w : World) :
    (runFrom place stages texts w).2.held other = w.held other := by
  have hleaves : Act.Leaves (· = other) (runFrom place stages texts) := by
    refine runFrom_closed (Closed.leaves _) (fun _ => trivial) (fun i s hs input => s.outputs_leaves ?_ input) texts
    exact fun hother => h i (List.getElem?_eq_some_iff.1 hs).1 hother.symm
  exact (hleaves w).2 other rfl

theorem applyFrom_held {s : Stage} {other : Place} (h : other ≠ place) (last : Bool) (done : List (List String))
    (texts : List String) (w : World) : (applyFrom s place last done texts w).2.held other = w.held other := by
  have hleaves : Act.Leaves (· = other) (applyFrom s place last done texts) :=
    applyFrom_closed (Closed.leaves _) (fun _ => trivial) (s.outputs_leaves fun hother => h hother.symm) last done texts
  exact (hleaves w).2 other rfl

/-- what happens at a place -/
def own (place : Place) (applications : List Application) : List Happening :=
  (applications.filter fun a => decide (a.place = place)).map some

theorem own_append (place : Place) (first second : List Application) :
    own place (first ++ second) = own place first ++ own place second := by
  rw [own, List.filter_append, List.map_append]
  rfl

theorem own_eq_map {applications : List Application} (h : ∀ a ∈ applications, a.place = place) :
    own place applications = applications.map some := by
  rw [own, List.filter_eq_self.2 fun a ha => decide_eq_true (h a ha)]

theorem own_eq_nil {applications : List Application} (h : ∀ a ∈ applications, a.place ≠ place) :
    own place applications = [] := by
  rw [own, List.filter_eq_nil_iff.2 fun a ha => by simpa using h a ha, List.map_nil]

/-- nothing happens at the place of a stage as those behind it are run -/
theorem own_behind (stages : List Stage) (texts : List String) (w : World) :
    own place (appliedFrom { place with stage := place.stage + 1 } stages texts w) = [] := by
  refine own_eq_nil fun a ha heq => ?_
  have hplace : place.stage + 1 ≤ a.place.stage := appliedFrom_place a ha
  rw [heq] at hplace
  exact Nat.not_succ_le_self _ hplace

/-- **A script among stages**: its applications are a part of its life, and no other stage touches what it keeps. -/
theorem appliedFrom_lives (hs : s.callable? = some script) {stages : List Stage} {i : Nat} (h : stages[i]? = some s)
    (texts : List String) (w : World) :
    Lives s script (place.at (place.stage + i)) (w.held (place.at (place.stage + i)))
      (own (place.at (place.stage + i)) (appliedFrom place stages texts w))
      ((runFrom place stages texts w).2.held (place.at (place.stage + i))) := by
  induction stages generalizing place i texts w with
  | nil => cases h
  | cons first rest ih =>
    rw [runFrom_cons, appliedFrom, own_append]
    cases i with
    | zero =>
      cases h
      change Lives s script place (w.held place) (own place _ ++ own place _) (World.held _ place)
      rw [own_eq_map applied_place]
      refine (applied_lives hs place rest.isEmpty [] texts w).append ?_
      change Lives _ script place ((applyAll _ place rest.isEmpty texts w).2.held place) _ _
      -- none of the stages behind it stands at its place
      rcases applyAll s place rest.isEmpty texts w with ⟨e | _ | ⟨first, others⟩, v⟩
      · exact .done _
      · exact .done _
      · simp only
        have hbehind : ∀ j : Nat,
            place ≠ ({ place with stage := place.stage + 1 } : Place).at (place.stage + 1 + j) := by
          intro j heq
          have hstage : place.stage = place.stage + 1 + j := congrArg Place.stage heq
          omega
        rw [own_behind, runFrom_held fun j _ => hbehind j]
        exact .done _
    | succ i =>
      have hne : place.at (place.stage + (i + 1)) ≠ place := by
        intro heq
        have hstage : place.stage + (i + 1) = place.stage := congrArg Place.stage heq
        omega
      have hheld : (applyAll first place rest.isEmpty texts w).2.held (place.at (place.stage + (i + 1))) =
          w.held (place.at (place.stage + (i + 1))) := applyFrom_held hne _ _ _ _
      have hnone : own (place.at (place.stage + (i + 1))) (applied first place rest.isEmpty texts w) = [] :=
        own_eq_nil fun a ha heq => hne (heq.symm.trans (applied_place a ha))
      rw [hnone, List.nil_append, ← hheld]
      rcases applyAll first place rest.isEmpty texts w with ⟨e | _ | ⟨text, others⟩, v⟩
      · exact .done _
      · exact .done _
      · have hnext := @ih { place with stage := place.stage + 1 } i h (text :: others) v
        rwa [Place.next_at] at hnext

/-- what happens at a place in a history -/
def happenings (c : Chain) (place : Place) : List Use → World → List Happening
  | [], _ => []
  | .run input :: rest, w => own place (c.reached input w) ++ c.happenings place rest (c.run input w).2
  | .write change :: rest, w => c.happenings place rest { w with files := change w.files }
  | .close :: rest, w => none :: c.happenings place rest (c.close w)

/-- **What happens to a script in a history** is its life. -/
theorem play_lives {c : Chain} (hs : s.callable? = some script) {i : Nat} (h : c.stages[i]? = some s)
    (uses : List Use) (w : World) :
    Lives s script (c.place.at (c.place.stage + i)) (w.held (c.place.at (c.place.stage + i)))
      (c.happenings (c.place.at (c.place.stage + i)) uses w)
      ((c.play uses w).2.held (c.place.at (c.place.stage + i))) := by
  have hne : c.stages.isEmpty = false := by
    cases hstages : c.stages with
    | nil => simp [hstages] at h
    | cons first rest => rfl
  induction uses generalizing w with
  | nil => exact .done _
  | cons use rest ih =>
    cases use with
    | run input =>
      have hrun : c.run input w = runFrom c.place c.stages [input] w := by simp [run, hne]
      refine (appliedFrom_lives hs h [input] w).append ?_
      rw [← hrun]
      exact ih (c.run input w).2
    | write change => exact ih { w with files := change w.files }
    | close =>
      have hclosed := ih (c.close w)
      rw [c.held_close] at hclosed
      exact .closed hclosed

end Chain

/-! ## Interpreters that are functions -/

namespace Lua

/-- what calls of a session come to, one behind the other -/
def Session.replies (entry : String) : Session → List (String × Host) → List Outcome
  | _, [] => []
  | session, (text, host) :: rest =>
    (session.call entry text host).1 :: replies entry (session.call entry text host).2.1 rest

/-- what an interpreter makes of programs under their names: why a program does not load, or else what the last of some
calls comes to -/
abbrev Interpreter := String × String → Except String (List String → Outcome)

/-- what calls come to, if the last of some calls comes to `reply` and those with the texts `before` have been made -/
def repliesTo (reply : List String → Outcome) (before : List String) : List String → List Outcome
  | [] => []
  | text :: rest => reply (before ++ [text]) :: repliesTo reply (before ++ [text]) rest

/-- a program does what is said of it, when it is loaded and in calls that are some of those in `met` -/
def Agrees (entry : String) (met : List (String × Host)) :
    Except String Session → Except String (List String → Outcome) → Prop
  | .error reason, .error reason' => reason = reason'
  | .ok session, .ok reply =>
    ∀ calls ∈ met.sublists, session.replies entry calls = repliesTo reply [] (calls.map Prod.fst)
  | .error _, .ok _ => False
  | .ok _, .error _ => False

instance (entry : String) (met : List (String × Host)) :
    (started : Except String Session) → (known : Except String (List String → Outcome)) →
      Decidable (Agrees entry met started known)
  | .error reason, .error reason' => inferInstanceAs (Decidable (reason = reason'))
  | .ok session, .ok reply =>
    inferInstanceAs (Decidable (∀ calls ∈ met.sublists,
      session.replies entry calls = repliesTo reply [] (calls.map Prod.fst)))
  | .error _, .ok _ => inferInstanceAs (Decidable False)
  | .ok _, .error _ => inferInstanceAs (Decidable False)

namespace Script

/-- what a script is called with when it is applied; loading the program may have changed the files -/
def callOf (s : Script) (a : Application) : String × Host :=
  (a.input, { a.world.host with files := (s.session (a.world.held a.place) a.world.host).2 })

/-- what a script is called with in a history -/
def callsIn (s : Script) (happened : List Happening) : List (String × Host) := happened.reduceOption.map s.callOf

/-- what a script gives, told from the texts of its calls and what its source says at each of them. Of a program that
has been loaded, it is known what it replies and which calls there have been. -/
def foretold (I : Interpreter) (s : Script) :
    Option ((List String → Outcome) × List String) → List (Option (String × Except String (String × String))) →
      List MatchResult
  | _, [] => []
  | _, none :: rest => s.foretold I none rest
  | some (reply, texts), some (text, _) :: rest =>
    s.answer (reply (texts ++ [text])) :: s.foretold I (some (reply, texts ++ [text])) rest
  | none, some (text, program) :: rest =>
    match program >>= I with
    | .error reason => .error (.scriptLoad reason) :: s.foretold I none rest
    | .ok reply => s.answer (reply [text]) :: s.foretold I (some (reply, [text])) rest

/-- what there is to know of what happens to a script: the text, and what its source says -/
def seen (s : Script) (happening : Happening) : Option (String × Except String (String × String)) :=
  happening.map fun a => (a.input, s.program a.world.files)

end Script

/-- an interpreter is a function of a program and the texts of the calls: files and variables make no difference to it,
as far as the calls go that there are in a history -/
def Interpreter.Runs (I : Interpreter) (s : Script) (happened : List Happening) (program : String × String) : Prop :=
  ∀ a ∈ happened.reduceOption,
    Agrees s.entry (s.callsIn happened) (Session.start program.1 program.2 a.world.host).1 (I program)

instance (I : Interpreter) (s : Script) (happened : List Happening) (program : String × String) :
    Decidable (I.Runs s happened program) :=
  inferInstanceAs (Decidable (∀ a ∈ happened.reduceOption, Agrees s.entry _ _ _))

/-- what is known of what is kept: a session replies as it is said to, in calls that are some of those still to come -/
def Remembers (entry : String) (met : List (String × Host)) :
    Option Kept → Option ((List String → Outcome) × List String) → Prop
  | none, none => True
  | some (.lua session), some (reply, texts) =>
    ∀ calls, calls.Sublist met → session.replies entry calls = repliesTo reply texts (calls.map Prod.fst)
  | _, _ => False

section

variable {entry : String} {met : List (String × Host)} {reply : List String → Outcome} {texts : List String}

/-- what is known of a session that has been called once more -/
theorem Remembers.called {session : Session} {text : String} {host : Host}
    (h : Remembers entry ((text, host) :: met) (some (.lua session)) (some (reply, texts))) :
    (session.call entry text host).1 = reply (texts ++ [text]) ∧
      Remembers entry met (some (.lua (session.call entry text host).2.1)) (some (reply, texts ++ [text])) := by
  constructor
  · exact (List.cons.inj (h [(text, host)] (List.singleton_sublist.2 List.mem_cons_self))).1
  · intro calls hcalls
    exact (List.cons.inj (h ((text, host) :: calls) (hcalls.cons_cons _))).2

/-- nothing is known where there is no session -/
theorem Remembers.eq_none {kept : Option Kept} {known : Option ((List String → Outcome) × List String)}
    (h : Remembers entry met kept known) (hnone : ∀ session, kept ≠ some (.lua session)) : known = none := by
  match kept, known with
  | none, none => rfl
  | none, some _ => exact h.elim
  | some (.lua session), _ => exact absurd rfl (hnone session)
  | some (.shell _), none => rfl
  | some (.shell _), some _ => exact h.elim

/-- what is said of a program that cannot be loaded is why -/
theorem Agrees.eq_error {reason : String} {said : Except String (List String → Outcome)}
    (h : Agrees entry met (.error reason) said) : said = .error reason := by
  cases said with
  | error reason' => exact congrArg Except.error h.symm
  | ok reply => exact h.elim

/-- a session that has just been started replies as it is said of its program -/
theorem Agrees.remembers {total : List (String × Host)} {session : Session}
    {said : Except String (List String → Outcome)} (h : Agrees entry total (.ok session) said)
    (hmet : met.Sublist total) :
    ∃ reply, said = .ok reply ∧ Remembers entry met (some (.lua session)) (some (reply, [])) := by
  cases said with
  | error reason => exact h.elim
  | ok reply => exact ⟨reply, rfl, fun calls hcalls => h calls (List.mem_sublists.2 (hcalls.trans hmet))⟩

end

namespace Script

variable {s : Script} {kept : Option Kept} {host : Host}

/-- a call in the session that there is -/
theorem turn_loaded {session : Session} {files : FileNode} (h : s.session kept host = (.ok session, files))
    (text : String) :
    let r := session.call s.entry text { host with files := files }
    s.turn text kept host = { result := s.answer r.1, kept := some (.lua r.2.1), files := r.2.2.files } := by
  unfold turn
  rw [h]

/-- a call that comes to none -/
theorem turn_unloaded {reason : String} {files : FileNode} (h : s.session kept host = (.error reason, files))
    (text : String) :
    s.turn text kept host = { result := .error (.scriptLoad reason), kept := none, files := files } := by
  unfold turn
  rw [h]

/-- a call leaves a session, whatever it comes to, unless there is none and the program cannot be loaded -/
theorem kept_eq_none_iff {text : String} :
    (s.turn text kept host).kept = none ↔
      (∀ session, kept ≠ some (.lua session)) ∧ ∃ reason, (s.start host).1 = .error reason := by
  rw [← exists_and_left]
  simp only [← session_error_iff]
  rcases hsession : s.session kept host with ⟨reason | session, files⟩
  · rw [turn_unloaded hsession]
    exact ⟨fun _ => ⟨reason, rfl⟩, fun _ => rfl⟩
  · rw [turn_loaded hsession]
    exact ⟨nofun, nofun⟩

/-- a session has been kept, or the program has just been loaded -/
theorem session_eq_ok {session : Session} (h : (s.session kept host).1 = .ok session) :
    kept = some (.lua session) ∨
      (∀ session, kept ≠ some (.lua session)) ∧ (s.start host).1 = .ok session := by
  unfold Script.session at h
  split at h
  · cases h
    exact .inl rfl
  · rename_i hnone
    exact .inr ⟨fun found hfound => hnone found hfound, h⟩

variable {I : Interpreter} {happened : List Happening} {a : Application}

/-- a program that is loaded does what the interpreter makes of what the source says -/
theorem start_agrees (ha : a ∈ happened.reduceOption)
    (hI : ∀ program, s.program a.world.files = .ok program → I.Runs s happened program) :
    Agrees s.entry (s.callsIn happened) (s.start a.world.host).1 (s.program a.world.files >>= I) := by
  unfold start
  cases hprogram : s.program a.world.host.files with
  | error reason =>
    rw [show s.program a.world.files = _ from hprogram]
    exact rfl
  | ok program =>
    rw [show s.program a.world.files = _ from hprogram]
    exact hI program hprogram a ha

theorem foretold_unloaded {text reason : String} {program : Except String (String × String)}
    (h : program >>= I = .error reason) (rest : List (Option (String × Except String (String × String)))) :
    s.foretold I none (some (text, program) :: rest) = .error (.scriptLoad reason) :: s.foretold I none rest := by
  rw [foretold, h]

theorem foretold_loaded {text : String} {program : Except String (String × String)} {reply : List String → Outcome}
    (h : program >>= I = .ok reply) (rest : List (Option (String × Except String (String × String)))) :
    s.foretold I none (some (text, program) :: rest) =
      s.answer (reply [text]) :: s.foretold I (some (reply, [text])) rest := by
  rw [foretold, h]

/-- a call in a session of which it is known what it replies -/
theorem turn_replied {met : List (String × Host)} {session : Session} {files : FileNode}
    {reply : List String → Outcome} {texts : List String}
    (hsession : s.session (a.world.held a.place) a.world.host = (.ok session, files))
    (h : Remembers s.entry (s.callOf a :: met) (some (.lua session)) (some (reply, texts))) :
    let turn := s.turn a.input (a.world.held a.place) a.world.host
    turn.result = s.answer (reply (texts ++ [a.input])) ∧
      Remembers s.entry met turn.kept (some (reply, texts ++ [a.input])) := by
  intro turn
  have hturn : turn = _ := turn_loaded hsession a.input
  have hcall : s.callOf a = (a.input, { a.world.host with files := files }) := by
    rw [callOf, hsession]
  rw [hcall] at h
  obtain ⟨hgives, hleaves⟩ := h.called
  rw [hturn]
  exact ⟨congrArg s.answer hgives, hleaves⟩

/-- **A turn of a script** is told from what is known of its session, and what its source says if there is none. -/
theorem turn_foretold {met : List (String × Host)} {known : Option ((List String → Outcome) × List String)}
    (hknown : Remembers s.entry (s.callOf a :: met) (a.world.held a.place) known)
    (hmet : (s.callOf a :: met).Sublist (s.callsIn happened)) (ha : a ∈ happened.reduceOption)
    (hI : ∀ program, s.program a.world.files = .ok program → I.Runs s happened program) :
    let turn := s.turn a.input (a.world.held a.place) a.world.host
    ∃ known', Remembers s.entry met turn.kept known' ∧
      ∀ rest, s.foretold I known (s.seen (some a) :: rest) = turn.result :: s.foretold I known' rest := by
  intro turn
  have hagrees := start_agrees ha hI
  rcases hsession : s.session (a.world.held a.place) a.world.host with ⟨reason | session, files⟩
  · -- there is none, for the reason that the interpreter gives
    obtain ⟨hnone, hstart⟩ := session_error_iff.1 (congrArg Prod.fst hsession)
    have hturn : turn = _ := turn_unloaded hsession a.input
    cases hknown.eq_none hnone
    rw [hstart] at hagrees
    rw [hturn]
    exact ⟨none, trivial, foretold_unloaded hagrees.eq_error⟩
  · -- there is one, and the interpreter knows what it replies
    rcases session_eq_ok (congrArg Prod.fst hsession) with hkept | ⟨hnone, hstart⟩
    · rw [hkept] at hknown
      obtain _ | ⟨reply, texts⟩ := known
      · exact hknown.elim
      · obtain ⟨hgives, hleaves⟩ := turn_replied hsession hknown
        exact ⟨_, hleaves, fun rest => congrArg (· :: _) hgives.symm⟩
    · cases hknown.eq_none hnone
      rw [hstart] at hagrees
      obtain ⟨reply, hmakes, hremembers⟩ := hagrees.remembers hmet
      obtain ⟨hgives, hleaves⟩ := turn_replied hsession hremembers
      exact ⟨_, hleaves, fun rest => (foretold_loaded hmakes rest).trans (congrArg (· :: _) hgives.symm)⟩

end Script

end Lua

/-- **What a script gives in its life** depends on the texts and on what its source says where no session is kept. -/
theorem Lives.foretold {s : Lua.Script} {place : Place} {I : Lua.Interpreter} {kept last : Option Kept}
    {known : Option ((List String → Lua.Outcome) × List String)} {happened rest : List Happening}
    (h : Lives (.lua s) s.turn place kept rest last) (hrest : rest.Sublist happened)
    (hknown : Lua.Remembers s.entry (s.callsIn rest) kept known)
    (hI : ∀ a ∈ happened.reduceOption, ∀ program, s.program a.world.files = .ok program → I.Runs s happened program) :
    rest.reduceOption.map (fun a => a.outcome.1) =
      (s.foretold I known (rest.map s.seen)).map (· >>= Stage.dropBlank "lua") := by
  induction h generalizing known with
  | done kept => cases known <;> rfl
  | closed _ ih =>
    have hnone := @ih none ((List.sublist_cons_self _ _).trans hrest) trivial
    cases known <;> exact hnone
  | @applied kept last a rest hplace hfinds hgives hleaves _ ih =>
    subst hplace hfinds
    have hmet : (s.callOf a :: s.callsIn rest).Sublist (s.callsIn happened) := (hrest.filterMap id).map s.callOf
    have ha : a ∈ happened.reduceOption := List.reduceOption_mem_iff.2 (hrest.subset List.mem_cons_self)
    obtain ⟨known', hknown', hforetold⟩ := Lua.Script.turn_foretold hknown hmet ha (hI a ha)
    rw [List.map_cons, hforetold, List.map_cons, ← ih ((List.sublist_cons_self _ _).trans hrest) hknown']
    exact congrArg (· :: _) hgives

/-- a call of a shell script leaves its file, whatever it comes to, unless there is none and it cannot be made -/
theorem Shell.Script.kept_eq_none_iff {s : Shell.Script} {text : String} {kept : Option Kept} {host : Lua.Host} :
    (s.turn text kept host).kept = none ↔
      (∀ file, kept ≠ some (.shell file)) ∧ ∃ refusal, s.prepare host.files host.env = .error refusal := by
  have hfile : (∃ refusal, s.file kept host = .error refusal) ↔
      (∀ file, kept ≠ some (.shell file)) ∧ ∃ refusal, s.prepare host.files host.env = .error refusal := by
    unfold Shell.Script.file
    split
    · rename_i file
      exact ⟨nofun, fun h => absurd rfl (h.1 file)⟩
    · rename_i hnone
      exact ⟨fun h => ⟨fun file hkept => hnone file hkept, h⟩, And.right⟩
  rw [← hfile]
  cases hmade : s.file kept host with
  | ok file =>
    rw [turn_made hmade]
    exact ⟨nofun, nofun⟩
  | error refusal =>
    rw [turn_unmade hmade]
    exact ⟨fun _ => ⟨refusal, rfl⟩, fun _ => rfl⟩

/-! ## Closing -/

/-- **Closing is a reset, and without a close what scripts keep stays.** After any history and a close, a chain gives in
whatever comes next what a chain gives that has just been compiled from the same entries. Before that, each script has
one life: what it keeps is carried from call to call, whatever the calls come to. It keeps nothing only if nothing has
been kept and its program cannot be loaded or its file cannot be made. The source of a Lua program is read where it is
loaded and nowhere else; if the interpreter is a function of programs and calls, files make no other difference. -/
theorem close_resets {env : Environment} {place : Place} {specs : List StageSpec} {c : Chain}
    (hc : Chain.compile env place specs = .ok c) (history : List Use) (w : World) :
    let v := (c.play history w).2
    let here i := place.at (place.stage + i)
    (∀ (p : Place → Bool) (place' : Place), (∀ i, p (place.at i) = true) → place'.stage = place.stage →
      ∃ c', Chain.compile env place' specs = .ok c' ∧
        ∀ w', w'.files = v.files → w'.env = v.env → (∀ i, w'.held (place'.at i) = none) →
          ∀ later, (c.play later (v.endSessions p)).1 = (c'.play later w').1) ∧
      (∀ (i : Nat) s script, c.stages[i]? = some s → s.callable? = some script →
        Lives s script (here i) (w.held (here i)) (c.happenings (here i) history w) (v.held (here i))) ∧
      (∀ (i : Nat) (s : Shell.Script), c.stages[i]? = some (.shell s) → ∀ text kept host,
        (s.turn text kept host).kept = none ↔
          (∀ file, kept ≠ some (.shell file)) ∧ ∃ refusal, s.prepare host.files host.env = .error refusal) ∧
      ∀ (i : Nat) (s : Lua.Script), c.stages[i]? = some (.lua s) →
        (∀ text kept host, (s.turn text kept host).kept = none ↔
          (∀ session, kept ≠ some (.lua session)) ∧ ∃ reason, (s.start host).1 = .error reason) ∧
        (∀ (s' : Lua.Script) text session host, s'.entry = s.entry →
          s'.turn text (some (.lua session)) host = s.turn text (some (.lua session)) host) ∧
        ∀ I : Interpreter, w.held (here i) = none →
          let happened := c.happenings (here i) history w
          (∀ a ∈ happened.reduceOption, ∀ program, s.program a.world.files = .ok program →
            I.Runs s happened program) →
          happened.reduceOption.map (fun a => a.outcome.1) =
            (s.foretold I none (happened.map s.seen)).map (· >>= Stage.dropBlank "lua") := by
  obtain ⟨stages, hstages, rfl⟩ := Pipeline.map_eq_ok hc
  have hlives : ∀ i s script, stages[i]? = some s → s.callable? = some script → Lives s script _ _ _ _ :=
    fun i s script hi hs => Chain.play_lives (c := ⟨place, stages⟩) hs hi history w
  refine ⟨fun p place' hp hstart => ⟨⟨place', stages⟩, ?_, fun w' hfiles henv hfresh later => ?_⟩, hlives,
    fun i s _ text kept host => s.kept_eq_none_iff, fun i s hi => ⟨fun text kept host => s.kept_eq_none_iff, ?_, ?_⟩⟩
  · rw [Chain.compile, hstages]
    rfl
  · exact Chain.play_closed ⟨place, stages⟩ ⟨place', stages⟩ rfl hstart.symm hp hfiles henv hfresh later
  · intro s' text session host hentry
    have hsession : ∀ s : Lua.Script, s.session (some (.lua session)) host = (.ok session, host.files) := fun _ => rfl
    have hanswer : s'.answer = s.answer := by
      funext outcome
      cases outcome <;> simp only [Lua.Script.answer, hentry]
    rw [s'.turn_loaded (hsession s'), s.turn_loaded (hsession s), hentry, hanswer]
  · intro I hnone happened hI
    refine (hlives i _ _ hi rfl).foretold (List.Sublist.refl _) ?_ hI
    have hheld : w.held (place.at (place.stage + i)) = none := hnone
    rw [hheld]
    trivial

/-- A program counts its calls and fails in the second one; its file is rewritten after the first. A shell script
empties its own file. The program goes on counting, and the script gives nothing more, until the chain is closed. -/
theorem close_resets_rewritten :
    let counting := "n = 0 function f(s) n = n + 1 if n == 2 then error(s) end return s .. n end"
    let tree (code : String) : FileNode := .dir [("f.lua", .file (Utf8.encode code))]
    let specs : List StageSpec := [{ lua := some { file := some "f.lua", entry := "f" } }, .ofShell "echo k; >$0"]
    let w : World := { files := tree counting, env := ⟨[("PATH", "/bin")]⟩ }
    let history : List Use := [.run "a", .write fun _ => tree "function f(s) return s end", .run "b", .run "c"]
    let later : List Use := [.run "d", .run "e"]
    ∃ c c' : Chain, Chain.compile w.env {} specs = .ok c ∧ Chain.compile w.env { rule := 1 } specs = .ok c' ∧
      (c.play history w).1.map Except.toOption = [some ["k"], none, none] ∧
      (c.happenings {} history w).reduceOption.map (fun a => a.outcome.1) =
        [.ok ["a1"], .error (.scriptCall "f" "runtime error: f.lua:1: b"), .ok ["c3"]] ∧
      (c.play later (c.close (c.play history w).2)).1 =
        (c'.play later { files := (c.play history w).2.files, env := (c.play history w).2.env }).1 ∧
      (c.play later (c.close (c.play history w).2)).1.map Except.toOption = [some ["k"], none] := by
  intro counting tree specs w history later
  let s : Lua.Script := { source := .file "f.lua", entry := "f" }
  let c : Chain := ⟨{}, [.lua s, .shell { body := "echo k; >$0" }]⟩
  let I : Interpreter := fun program => .ok fun texts =>
    let text := texts.getLastD ""
    if program.1 ≠ counting then .text (ofText text)
    else if texts.length = 2 then .failed ("runtime error: f.lua:1: " ++ text)
    else .text (ofText (text ++ toString texts.length))
  have hc : Chain.compile w.env {} specs = .ok c := rfl
  obtain ⟨hreset, -, -, hlua⟩ := close_resets hc history w
  have howns : ∀ i, decide (c.Owns (({} : Place).at i)) = true := fun i => decide_eq_true rfl
  obtain ⟨c', hc', hsame⟩ := hreset (fun place => decide (c.Owns place)) { rule := 1 } howns rfl
  obtain ⟨-, -, hforetold⟩ := hlua 0 s rfl
  have hruns : ∀ a ∈ (c.happenings {} history w).reduceOption, ∀ program ∈ (s.program a.world.files).toOption,
      I.Runs s (c.happenings {} history w) program := by decide +kernel
  have hgiven : (s.foretold I none ((c.happenings {} history w).map s.seen)).map (· >>= Stage.dropBlank "lua") =
      [.ok ["a1"], .error (.scriptCall "f" "runtime error: f.lua:1: b"), .ok ["c3"]] := by decide +kernel
  have hafter : (c.play later (c.close (c.play history w).2)).1 =
      (c'.play later { files := (c.play history w).2.files, env := (c.play history w).2.env }).1 := by
    generalize (c.play history w).2 = v at hsame ⊢
    exact hsame { files := v.files, env := v.env } rfl rfl (fun _ => rfl) later
  refine ⟨c, c', hc, hc', by decide +kernel, ?_, hafter, by decide +kernel⟩
  exact (hforetold I rfl fun a ha program hprogram => hruns a ha program (congrArg _ hprogram)).trans hgiven

end Gleaner
