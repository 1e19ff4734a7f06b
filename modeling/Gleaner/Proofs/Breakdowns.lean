/-
Where hard errors come from.

A stage that has no match says so, and a chain goes on without it. The only stage that can fail in any other way is a
script of a Lua program, and it does in four: the program cannot be loaded, has no function of the name, the call
raises an error, or gives no text (`Lua.Script.Breaks`). `Chain.reached` are the applications of stages that a run of a
chain comes to, each with the world in which it happens. The run fails with a hard error exactly if one of them is the
call of a script that breaks (`run_hard_iff`).

Places that are put around an error on its way do not change whether it is unmatched or cancelled
(`MatchError.kind_foldl_within`), so what rules give is of the same kind as what their chains give.
-/
import Gleaner.Proofs.Selections

namespace Gleaner

open Act

/-! ## Scripts that break -/

namespace Lua

/-- the ways in which a call in a session breaks, and what it fails with then -/
inductive Session.Breaks (session : Session) (name input : String) (host : Host) : MatchError → Prop
  /-- there is no function of the name -/
  | entry {reason : String} {m : Machine} (hentry : Session.entry name (session.within host) = (.error reason, m)) :
      Breaks session name input host (.scriptCall name reason)
  /-- the call raises an error -/
  | raise {f cause : Value} {m m' : Machine} (hentry : Session.entry name (session.within host) = (.ok f, m))
      (hcall : m.runCall f [.ofString input] = (.error cause, m')) :
      Breaks session name input host (.scriptCall name (Session.complaint cause m'))
  /-- the call gives something that is no text -/
  | result {f : Value} {found : List Value} {m m' : Machine}
      (hentry : Session.entry name (session.within host) = (.ok f, m))
      (hcall : m.runCall f [.ofString input] = (.ok found, m')) (hresult : ∀ bytes, found.headD .nil ≠ .text bytes) :
      Breaks session name input host (.invalidReturn name (found.headD .nil).kindName)

namespace Script

/-- the ways in which a script breaks at a place, and what it fails with then -/
inductive Breaks (s : Script) (place : Place) (input : String) (w : World) : MatchError → Prop
  /-- no session is there, and the program cannot be loaded -/
  | load {reason : String} (hnone : ∀ session, w.held place ≠ some (.lua session))
      (hstart : (s.start w.host).1 = .error reason) : Breaks s place input w (.scriptLoad reason)
  /-- the call breaks, in the session that is there or in a new one -/
  | call {session : Session} {files : FileNode} {e : MatchError}
      (hsession : s.session (w.held place) w.host = (.ok session, files))
      (hcall : session.Breaks s.entry input { w.host with files := files } e) : Breaks s place input w e

variable {s : Script} {place : Place} {input : String} {w : World} {e : MatchError}

/-- what a call answers, written out -/
theorem answer_call (s : Script) (session : Session) (input : String) (host : Host) :
    s.answer (session.call s.entry input host).1 =
      match Session.entry s.entry (session.within host) with
      | (.error reason, _) => .error (.scriptCall s.entry reason)
      | (.ok f, m) =>
        match m.runCall f [.ofString input] with
        | (.error cause, m) => .error (.scriptCall s.entry (Session.complaint cause m))
        | (.ok found, _) =>
          match found.headD .nil with
          | .text bytes => .ok (splitLines bytes.toList)
          | v => .error (.invalidReturn s.entry v.kindName) := by
  unfold Session.call
  rcases Session.entry s.entry (session.within host) with ⟨f | f, m⟩
  · rfl
  · simp only
    rcases m.runCall f [.ofString input] with ⟨cause | found, m'⟩
    · rfl
    · simp only
      cases found.headD .nil <;> rfl

/-- a call fails just when it breaks -/
theorem answer_error_iff {session : Session} {host : Host} :
    s.answer (session.call s.entry input host).1 = .error e ↔ session.Breaks s.entry input host e := by
  rw [answer_call]
  constructor
  · intro he
    rcases hentry : Session.entry s.entry (session.within host) with ⟨f | f, m⟩
    · rw [hentry] at he
      cases he
      exact .entry hentry
    · rw [hentry] at he
      simp only at he
      rcases hcall : m.runCall f [.ofString input] with ⟨cause | found, m'⟩
      · rw [hcall] at he
        cases he
        exact .raise hentry hcall
      · rw [hcall] at he
        simp only at he
        have hresult : ∀ bytes, found.headD .nil ≠ .text bytes := by
          intro bytes hbytes
          rw [hbytes] at he
          cases he
        have herror : e = .invalidReturn s.entry (found.headD .nil).kindName := by
          split at he
          · cases he
          · exact (Except.error.inj he).symm
        rw [herror]
        exact .result hentry hcall hresult
  · intro hbreaks
    cases hbreaks with
    | entry hentry => rw [hentry]
    | raise hentry hcall => simp only [hentry, hcall]
    | result hentry hcall hresult => simp only [hentry, hcall]

/-- there is no session just when none is there and the program cannot be loaded -/
theorem session_error_iff {kept : Option Kept} {host : Host} {reason : String} :
    (s.session kept host).1 = .error reason ↔
      (∀ session, kept ≠ some (.lua session)) ∧ (s.start host).1 = .error reason := by
  unfold session
  split
  · rename_i found
    exact ⟨nofun, fun h => absurd rfl (h.1 found)⟩
  · rename_i hnone
    exact ⟨fun h => ⟨fun found hfound => hnone found hfound, h⟩, And.right⟩

/-- **A script fails just when it breaks**, in any world. -/
theorem call_error_iff : (Act.call place s.turn input w).1 = .error e ↔ s.Breaks place input w e := by
  have hcall : (Act.call place s.turn input w).1 = (s.turn input (w.held place) w.host).result := rfl
  rw [hcall]
  unfold turn
  rcases hsession : s.session (w.held place) w.host with ⟨reason | session, files⟩
  · have hlost := session_error_iff.1 (congrArg Prod.fst hsession)
    constructor
    · intro he
      cases he
      exact .load hlost.1 hlost.2
    · intro hbreaks
      cases hbreaks with
      | load hnone hstart =>
        cases hlost.2.symm.trans hstart
        rfl
      | call hother => cases hsession.symm.trans hother
  · refine answer_error_iff.trans ⟨fun hbreaks => .call hsession hbreaks, fun hbreaks => ?_⟩
    cases hbreaks with
    | load hnone hstart => cases (congrArg Prod.fst hsession).symm.trans (session_error_iff.2 ⟨hnone, hstart⟩)
    | call hother hbreaks =>
      cases hsession.symm.trans hother
      exact hbreaks

/-- a script that breaks fails with a hard error -/
theorem Breaks.hard (h : s.Breaks place input w e) : e.isUnmatched = false := by
  cases h with
  | load => rfl
  | call _ hcall => cases hcall <;> rfl

end Script

end Lua

/-! ## Stages -/

/-- a result that has a match or none, and is no other failure -/
def Soft (r : MatchResult) : Prop := ∀ e, r = .error e → e.isUnmatched = true

theorem soft_ok (found : List String) : Soft (.ok found) := nofun

theorem soft_error {e : MatchError} (h : e.isUnmatched = true) : Soft (.error e) := by
  rintro _ ⟨⟩
  exact h

theorem Shell.Script.answer_soft (outcome : Except Shell.Refusal Utf8.Bytes) : Soft (answer outcome) := by
  cases outcome with
  | ok output => exact soft_ok _
  | error refusal => exact soft_error rfl

/-- a call of a shell script whose file has been made gives what the end of its run means -/
theorem Shell.Script.turn_made {s : Shell.Script} {kept : Option Kept} {host : Lua.Host} {file : Shell.ScriptFile}
    (h : s.file kept host = .ok file) (input : String) :
    let r := s.run file (Utf8.encode input) host.files host.env
    s.turn input kept host = { result := answer r.1, kept := some (.shell r.2.1), files := r.2.2 } := by
  unfold turn
  rw [h]

/-- a call of one whose file cannot be made leaves all as it is -/
theorem Shell.Script.turn_unmade {s : Shell.Script} {kept : Option Kept} {host : Lua.Host} {refusal : Shell.Refusal}
    (h : s.file kept host = .error refusal) (input : String) :
    s.turn input kept host = { result := answer (.error refusal), kept := none, files := host.files } := by
  unfold turn
  rw [h]

/-- a shell script that gives no output has no match, for whatever reason -/
theorem Shell.Script.turn_soft (s : Shell.Script) (input : String) (kept : Option Kept) (host : Lua.Host) :
    Soft (s.turn input kept host).result := by
  cases h : s.file kept host with
  | ok file =>
    rw [turn_made h input]
    exact answer_soft _
  | error refusal =>
    rw [turn_unmade h input]
    exact answer_soft (.error refusal)

namespace Stage

/-- a stage is a script, and its call breaks -/
def Breaks (s : Stage) (place : Place) (input : String) (w : World) (e : MatchError) : Prop :=
  ∃ script, s = .lua script ∧ script.Breaks place input w e

theorem Breaks.hard {s : Stage} {place : Place} {input : String} {w : World} {e : MatchError}
    (h : s.Breaks place input w e) : e.isUnmatched = false := by
  obtain ⟨script, -, hbreaks⟩ := h
  exact hbreaks.hard

theorem whenMatched_soft (matched : Bool) (what : String) (found : List String) :
    Soft (whenMatched matched what found) := by
  cases matched with
  | true => exact soft_ok _
  | false => exact soft_error rfl

theorem dropBlank_soft (kind : String) (found : List String) : Soft (dropBlank kind found) := by
  unfold dropBlank
  split
  · exact soft_error rfl
  · exact soft_ok _

section

variable {s : Stage} {place : Place} {last : Bool} {input : String} {w : World} {e : MatchError}

/-- stages that are no scripts of Lua programs have a match or none -/
theorem outputs_soft (h : ∀ script, s ≠ .lua script) : Always Soft (s.outputs place input) := by
  cases s with
  | regex p constants => exact Always.pure (whenMatched_soft _ _ _)
  | negated p constants => exact Always.pure (whenMatched_soft _ _ _)
  | template p text => exact Always.pure (whenMatched_soft _ _ _)
  | values constants => exact Always.pure (soft_ok _)
  | shell script => exact fun w => script.turn_soft input (w.held place) w.host
  | glob g => exact Always.pure (whenMatched_soft _ _ _)
  | lua script => exact absurd rfl (h script)

theorem outputs_error (h : (s.outputs place input w).1 = .error e) :
    e.isUnmatched = true ∨ s.Breaks place input w e := by
  cases s with
  | lua script =>
    exact .inr ⟨script, rfl, Lua.Script.call_error_iff.1 h⟩
  | regex | negated | template | values | shell | glob => exact .inl (outputs_soft (by simp) w e h)

theorem found_error (h : (s.found place last input w).1 = .error e) :
    e.isUnmatched = true ∨ s.Breaks place input w e := by
  unfold found at h
  split at h
  · exact outputs_error h
  · unfold gated at h
    split at h
    · exact .inl (whenMatched_soft _ _ _ e h)
    · exact outputs_error h

/-- **A stage that fails has no match, or is a script that breaks.** -/
theorem apply_error (h : (s.apply place last input w).1 = .error e) :
    e.isUnmatched = true ∨ s.Breaks place input w e := by
  have hrun : (s.apply place last input w).1 = (s.found place last input w).1 >>= dropBlank s.kind := rfl
  rw [hrun] at h
  cases hfound : (s.found place last input w).1 with
  | error cause =>
    rw [hfound] at h
    cases h
    exact found_error hfound
  | ok outputs =>
    rw [hfound] at h
    exact .inl (dropBlank_soft _ _ e h)

/-- a script that breaks fails as a stage -/
theorem Breaks.apply (h : s.Breaks place input w e) (last : Bool) : (s.apply place last input w).1 = .error e := by
  obtain ⟨script, rfl, hbreaks⟩ := h
  have hfound : ((Stage.lua script).found place last input w).1 = .error e := by
    cases last <;> exact Lua.Script.call_error_iff.2 hbreaks
  have hrun : ((Stage.lua script).apply place last input w).1 =
      ((Stage.lua script).found place last input w).1 >>= dropBlank (Stage.lua script).kind := rfl
  rw [hrun, hfound]
  rfl

end

end Stage

/-! ## Chains -/

/-- a stage at its place, applied to a text in a world -/
structure Application where
  stage : Stage
  place : Place
  last : Bool
  input : String
  world : World

namespace Application

/-- what it gives, and the world behind it -/
def outcome (a : Application) : MatchResult × World :=
  Act.measure ("matcher-" ++ a.stage.kind) (a.stage.apply a.place a.last a.input) a.world

def Breaks (a : Application) (e : MatchError) : Prop := a.stage.Breaks a.place a.input a.world e

theorem outcome_fst (a : Application) : a.outcome.1 = (a.stage.apply a.place a.last a.input a.world).1 := rfl

/-- **A stage fails with a hard error just when it breaks.** -/
theorem breaks_iff {a : Application} {e : MatchError} :
    a.outcome.1 = .error e ∧ e.isUnmatched = false ↔ a.Breaks e := by
  constructor
  · rintro ⟨he, hhard⟩
    rcases Stage.apply_error (a.outcome_fst.symm.trans he) with hsoft | hbreaks
    · cases hhard.symm.trans hsoft
    · exact hbreaks
  · intro h
    exact ⟨a.outcome_fst.trans (h.apply a.last), h.hard⟩

end Application

namespace Chain

/-- the applications of a stage to texts, up to the first that fails with a hard error -/
def applied (s : Stage) (place : Place) (last : Bool) : List String → World → List Application
  | [], _ => []
  | text :: rest, w =>
    let a : Application := ⟨s, place, last, text, w⟩
    a :: match a.outcome with
      | (.ok _, w) => applied s place last rest w
      | (.error e, w) => if e.isUnmatched then applied s place last rest w else []

/-- the applications of stages that texts come to, level by level -/
def appliedFrom : Place → List Stage → List String → World → List Application
  | _, [], _, _ => []
  | place, s :: rest, texts, w =>
    applied s place rest.isEmpty texts w ++
      match applyAll s place rest.isEmpty texts w with
      | (.ok (first :: others), w) => appliedFrom { place with stage := place.stage + 1 } rest (first :: others) w
      | _ => []

/-- the applications of stages that a run of a chain comes to -/
def reached (c : Chain) (input : String) (w : World) : List Application := appliedFrom c.place c.stages [input] w

theorem applied_cons (s : Stage) (place : Place) (last : Bool) (text : String) (rest : List String) (w : World) :
    applied s place last (text :: rest) w = ⟨s, place, last, text, w⟩ ::
      match (Application.mk s place last text w).outcome with
      | (.ok _, w) => applied s place last rest w
      | (.error e, w) => if e.isUnmatched then applied s place last rest w else [] := rfl

theorem applyFrom_cons (s : Stage) (place : Place) (last : Bool) (done : List (List String)) (text : String)
    (rest : List String) (w : World) :
    applyFrom s place last done (text :: rest) w =
      match (Application.mk s place last text w).outcome with
      | (.ok found, w) => applyFrom s place last (found :: done) rest w
      | (.error e, w) =>
        if e.isUnmatched then applyFrom s place last done rest w
        else (.error (e.within (stageLabel place.stage)), w) := by
  unfold Application.outcome
  rw [applyFrom, bind_run]
  rcases Act.measure ("matcher-" ++ s.kind) (s.apply place last text) w with ⟨e | found, w'⟩
  · simp only
    split <;> rfl
  · rfl

/-- applying a stage to texts fails just when one of the applications breaks -/
theorem applyFrom_error_iff {s : Stage} {place : Place} {last : Bool} {texts : List String} {w : World}
    {e : MatchError} (done : List (List String)) :
    (applyFrom s place last done texts w).1 = .error e ↔
      ∃ a ∈ applied s place last texts w, ∃ cause, a.Breaks cause ∧ e = cause.within (stageLabel a.place.stage) := by
  simp only [← Application.breaks_iff]
  induction texts generalizing done w with
  | nil =>
    constructor
    · intro he
      cases he
    · rintro ⟨a, ha, -⟩
      cases ha
  | cons text rest ih =>
    rw [applyFrom_cons, applied_cons]
    simp only [List.mem_cons, exists_eq_or_imp]
    rcases hout : (Application.mk s place last text w).outcome with ⟨failure | found, w'⟩
    · by_cases hsoft : failure.isUnmatched = true
      · have hnot : ∀ cause, ¬ ((.error failure : MatchResult) = .error cause ∧ cause.isUnmatched = false) := by
          rintro _ ⟨⟨⟩, hhard⟩
          cases hhard.symm.trans hsoft
        simp only [hsoft, if_true, ih, hnot, false_and, exists_false, false_or]
      · simp only [hsoft, if_false, Bool.false_eq_true, List.not_mem_nil, false_and, exists_false, or_false]
        constructor
        · rintro ⟨⟩
          exact ⟨failure, ⟨rfl, Bool.eq_false_iff.2 hsoft⟩, rfl⟩
        · rintro ⟨_, ⟨⟨⟩, -⟩, rfl⟩
          rfl
    · simp only [ih, reduceCtorEq, false_and, exists_false, false_or]

theorem runFrom_cons (place : Place) (s : Stage) (rest : List Stage) (texts : List String) (w : World) :
    runFrom place (s :: rest) texts w =
      match applyAll s place rest.isEmpty texts w with
      | (.error e, w) => (.error e, w)
      | (.ok [], w) => (.error (.unmatched (stageLabel place.stage)), w)
      | (.ok (first :: others), w) => runFrom { place with stage := place.stage + 1 } rest (first :: others) w := by
  rw [runFrom, bind_run]
  rcases applyAll s place rest.isEmpty texts w with ⟨e | _ | ⟨first, others⟩, w'⟩ <;> rfl

/-- so does sending texts through stages; if it fails in any other way, there is no match -/
theorem runFrom_error_iff {place : Place} {stages : List Stage} {texts : List String} {w : World} {e : MatchError} :
    (runFrom place stages texts w).1 = .error e ∧ e.isUnmatched = false ↔
      ∃ a ∈ appliedFrom place stages texts w, ∃ cause,
        a.Breaks cause ∧ e = cause.within (stageLabel a.place.stage) := by
  induction stages generalizing place texts w with
  | nil =>
    constructor
    · rintro ⟨he, -⟩
      cases he
    · rintro ⟨a, ha, -⟩
      cases ha
  | cons s rest ih =>
    have hhere : ∀ e, (applyAll s place rest.isEmpty texts w).1 = .error e ↔
        ∃ a ∈ applied s place rest.isEmpty texts w, ∃ cause,
          a.Breaks cause ∧ e = cause.within (stageLabel a.place.stage) := fun _ => applyFrom_error_iff []
    have hhard : ∀ e, (applyAll s place rest.isEmpty texts w).1 = .error e → e.isUnmatched = false := by
      intro e he
      obtain ⟨a, -, cause, hbreaks, rfl⟩ := (hhere e).1 he
      exact (cause.isUnmatched_within _).trans hbreaks.hard
    simp only [runFrom_cons, appliedFrom, List.mem_append, or_and_right, exists_or, ← hhere]
    rcases hall : applyAll s place rest.isEmpty texts w with ⟨failure | _ | ⟨first, others⟩, w'⟩
    · rw [hall] at hhard
      simp only [List.not_mem_nil, false_and, exists_false, or_false]
      exact ⟨And.left, fun he => ⟨he, hhard e he⟩⟩
    · simp only [List.not_mem_nil, false_and, exists_false, or_false]
      constructor
      · rintro ⟨⟨⟩, hsoft⟩
        cases hsoft
      · rintro ⟨⟩
    · simp only [reduceCtorEq, false_or]
      exact ih

/-- **A chain fails with a hard error just when a script that it comes to breaks**, in any world. -/
theorem run_hard_iff {c : Chain} {input : String} {w : World} {e : MatchError} :
    (c.run input w).1 = .error e ∧ e.isUnmatched = false ↔
      ∃ a ∈ c.reached input w, ∃ cause, a.Breaks cause ∧ e = cause.within (stageLabel a.place.stage) := by
  unfold run reached
  by_cases hempty : c.stages = []
  · rw [hempty]
    constructor
    · rintro ⟨he, hhard⟩
      cases he
      cases hhard
    · rintro ⟨a, ha, -⟩
      cases ha
  · rw [if_neg (by simpa using hempty)]
    exact runFrom_error_iff

end Chain

/-! ## Kinds of results -/

/-- what of a failure decides how a run goes on: whether it is no match, and whether it shows the signal -/
def MatchError.kind (e : MatchError) : Bool × Bool := (e.isUnmatched, e.isCancelled)

/-- the kind of failure of a result, if it is one -/
def failureKind {α : Type} : Except MatchError α → Option (Bool × Bool)
  | .ok _ => none
  | .error e => some e.kind

/-- a failure of the kind of one that is no match is none either -/
theorem Soft.of_kind {r r' : MatchResult} (h : Soft r') (hkind : failureKind r = failureKind r') : Soft r := by
  rintro e rfl
  cases r' with
  | ok found => cases hkind
  | error e' =>
    have hsame : e.isUnmatched = e'.isUnmatched := congrArg Prod.fst (Option.some.inj hkind)
    exact hsame.trans (h e' rfl)

theorem MatchError.kind_within (e : MatchError) (place : String) : (e.within place).kind = e.kind := by
  unfold kind
  rw [e.isUnmatched_within, e.isCancelled_within]

/-- **Places do not change the kind of a failure**, however many are put around it. -/
theorem MatchError.kind_foldl_within (e : MatchError) (places : List String) :
    (places.foldl MatchError.within e).kind = e.kind := by
  induction places generalizing e with
  | nil => rfl
  | cons place rest ih => exact (ih (e.within place)).trans (e.kind_within place)

theorem failureKind_located (places : List String) (r : MatchResult) :
    failureKind (Selection.located places r) = failureKind r := by
  cases r with
  | ok found => rfl
  | error e => exact congrArg some (e.kind_foldl_within places)

end Gleaner
