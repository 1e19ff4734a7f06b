/-
Chains as threads through their stages.

A chain runs level by level: a stage is applied to all texts before the next one is. If its stages are functions of
their candidates, this comes to the same as following each text by itself, through all stages to the end, and putting
the outputs one behind the other (`Chain.depthFirst`).

`Stage.answer` is what a stage that is a function makes of a candidate, and `Chain.level` are the candidates of each
stage. A stage may raise a hard error on a candidate. Then both fail, the chain with the first such pair in the order
of levels (`Chain.FirstRaise`), the other with the first one on its way.

Results:
- `Stage.apply_gives`: a stage gives its answer without blank texts;
- `depthFirst_quiet`: a text is followed through a stage first, and then what is left of it through the others;
- `run_threads`: a chain and the depth-first recursion agree.
-/
import Gleaner.Proofs.Candidates
import Mathlib.Tactic

namespace Gleaner

open Act

variable {scripts : Place → Option Callable} {files : FileNode} {env : Environment}

/-! ## What stages make of candidates -/

namespace Stage

/-- what a stage makes of a candidate, blank texts included; a script is called for the first time. A pattern without
values gives its matches in the last stage and lets the candidate pass in any other. -/
def answer (files : FileNode) (env : Environment) (last : Bool) (candidate : String) : Stage → MatchResult
  | .regex p [] =>
    if last then whenMatched (!(p.findAll candidate).isEmpty) "regex" ((p.findAll candidate).map (·.whole))
    else whenMatched (p.isMatch candidate) "regex" [candidate]
  | .regex p constants => whenMatched (!(p.findAll candidate).isEmpty) "regex" constants
  | .negated p constants => whenMatched (!p.isMatch candidate) "not" (if constants.isEmpty then [candidate] else constants)
  | .template p text =>
    let filled := String.join ((p.findAll candidate).map (·.expand text))
    whenMatched (!filled.isEmpty) "template" [filled]
  | .values constants => .ok constants
  | .shell script => (script.turn candidate none { files := files, env := env }).result
  | .glob g => whenMatched (g.isMatch candidate) "glob" [candidate]
  | .lua script => (script.turn candidate none { files := files, env := env }).result

/-- a stage raises a hard error on a candidate -/
def Raises (files : FileNode) (env : Environment) (last : Bool) (candidate : String) (s : Stage) (e : MatchError) : Prop :=
  s.answer files env last candidate = .error e ∧ e.isUnmatched = false

/-- the outputs of a stage for a candidate that are not blank -/
def survivors (files : FileNode) (env : Environment) (last : Bool) (candidate : String) (s : Stage) : List String :=
  match s.answer files env last candidate with
  | .ok outputs => outputs.filter fun output => !Text.isBlank output
  | .error _ => []

end Stage

namespace Stage

/-- an answer without blank texts -/
def answerKept (files : FileNode) (env : Environment) (last : Bool) (text : String) (s : Stage) : MatchResult :=
  s.answer files env last text >>= dropBlank s.kind

theorem answerKept_raises {s : Stage} {last : Bool} {candidate : String} {e : MatchError}
    (h : s.Raises files env last candidate e) : s.answerKept files env last candidate = .error e := by
  rw [answerKept, h.1]
  rfl

/-- a stage that raises no hard error leaves some outputs, or has no match -/
theorem answerKept_cases {last : Bool} {candidate : String} (s : Stage)
    (h : ∀ e, ¬ s.Raises files env last candidate e) :
    (s.answerKept files env last candidate = .ok (s.survivors files env last candidate) ∧
        s.survivors files env last candidate ≠ []) ∨
      ∃ e, s.answerKept files env last candidate = .error e ∧ e.isUnmatched = true ∧
        s.survivors files env last candidate = [] := by
  unfold answerKept survivors
  cases hanswer : s.answer files env last candidate with
  | error e =>
    cases hhard : e.isUnmatched with
    | true => exact .inr ⟨e, rfl, hhard, rfl⟩
    | false => exact absurd ⟨hanswer, hhard⟩ (h e)
  | ok outputs =>
    change (dropBlank s.kind outputs = _ ∧ _) ∨ ∃ e, dropBlank s.kind outputs = _ ∧ _
    unfold dropBlank
    simp only
    cases outputs.filter fun output => !Text.isBlank output with
    | nil => exact .inr ⟨_, rfl, rfl, rfl⟩
    | cons first rest => exact .inl ⟨rfl, List.cons_ne_nil _ _⟩

theorem outputs_fresh (s : Stage) (place : Place) (text : String) :
    (s.outputs place text (World.fresh files env)).1 = s.answer files env true text := by
  cases s with
  | regex p constants => cases constants <;> rfl
  | negated p constants => rfl
  | template p filling =>
    unfold outputs answer
    simp only
    rw [pure_run]
  | values constants => rfl
  | shell script => rfl
  | glob g => rfl
  | lua script => rfl

theorem found_fresh (s : Stage) (place : Place) (last : Bool) (text : String) :
    (s.found place last text (World.fresh files env)).1 = s.answer files env last text := by
  cases last with
  | true => exact s.outputs_fresh place text
  | false =>
    have hsame : ∀ s : Stage, (∀ p, s ≠ .regex p []) → s.answer files env false text = s.answer files env true text := by
      intro s hs
      cases s with
      | regex p constants =>
        cases constants with
        | nil => exact absurd rfl (hs p)
        | cons first rest => rfl
      | _ => rfl
    unfold found
    rw [if_neg Bool.false_ne_true]
    unfold gated
    split
    · rfl
    · rename_i hs
      rw [hsame s hs]
      exact s.outputs_fresh place text

/-- **A stage gives its answer** without blank texts, in all settled worlds. -/
theorem apply_gives {s : Stage} {place : Place} (h : s.IsFunction files env)
    (hplace : ∀ script, s.callable? = some script → scripts place = some script) (last : Bool) (text : String) :
    Gives (World.Settled scripts files env) (s.apply place last text) (s.answerKept files env last text) := by
  have hgives := (apply_steady h hplace last text).gives World.settled_fresh
  have hvalue : (s.apply place last text (World.fresh files env)).1 = s.answerKept files env last text := by
    unfold apply answerKept
    rw [bind_run, found_fresh]
    rfl
  rwa [hvalue] at hgives

end Stage

namespace Chain

/-! ## Levels and threads -/

/-- the candidates of stage number `i`, if the first stage gets some texts. A candidate on which a stage raises a hard
error leaves none behind, and the others go on. -/
def level (files : FileNode) (env : Environment) : List Stage → List String → Nat → List String
  | _, texts, 0 => texts
  | [], _, _ + 1 => []
  | s :: rest, texts, i + 1 => level files env rest (texts.flatMap fun t => s.survivors files env rest.isEmpty t) i

/-- stage number `i` raises a hard error on one of its candidates -/
def Raises (files : FileNode) (env : Environment) (stages : List Stage) (texts : List String) (i : Nat)
    (text : String) (e : MatchError) : Prop :=
  ∃ s, stages[i]? = some s ∧ text ∈ level files env stages texts i ∧
    s.Raises files env (decide (i + 1 = stages.length)) text e

/-- the first hard error in the order of levels, and the number of its stage: no earlier stage raises one, nor does the
stage on an earlier candidate -/
def FirstRaise (files : FileNode) (env : Environment) (stages : List Stage) (texts : List String) (i : Nat)
    (e : MatchError) : Prop :=
  (∀ j < i, ∀ text e', ¬ Raises files env stages texts j text e') ∧
    ∃ s before text after, stages[i]? = some s ∧ level files env stages texts i = before ++ text :: after ∧
      s.Raises files env (decide (i + 1 = stages.length)) text e ∧
      ∀ t ∈ before, ∀ e', ¬ s.Raises files env (decide (i + 1 = stages.length)) t e'

/-- follows a text by itself: a stage is applied to it, blank outputs are dropped, every output is followed through the
other stages, one after the other, and what they come to is put together -/
def depthFirst (files : FileNode) (env : Environment) : List Stage → String → MatchResult
  | [], text => .ok [text]
  | s :: rest, text =>
    match s.answer files env rest.isEmpty text with
    | .error e => if e.isUnmatched then .ok [] else .error e
    | .ok outputs =>
      ((outputs.filter fun output => !Text.isBlank output).mapM (depthFirst files env rest)).map List.flatten

/-- follows several texts, one after the other -/
def followAll (files : FileNode) (env : Environment) (stages : List Stage) (texts : List String) : MatchResult :=
  (texts.mapM (depthFirst files env stages)).map List.flatten

/-! ## Levels -/

section

variable {s : Stage} {rest stages : List Stage} {texts : List String} {last : Bool} {text : String} {e : MatchError}

theorem level_zero (stages : List Stage) (texts : List String) : level files env stages texts 0 = texts := by
  cases stages <;> rfl

theorem level_append (stages : List Stage) (xs ys : List String) (i : Nat) :
    level files env stages (xs ++ ys) i = level files env stages xs i ++ level files env stages ys i := by
  induction stages generalizing xs ys i with
  | nil => cases i <;> simp [level]
  | cons s rest ih =>
    cases i with
    | zero => rfl
    | succ i => simp only [level, List.flatMap_append, ih]

theorem level_nil (stages : List Stage) (i : Nat) : level files env stages [] i = [] := by
  induction stages generalizing i with
  | nil => cases i <;> rfl
  | cons s rest ih =>
    cases i with
    | zero => rfl
    | succ i => exact ih i

/-- no candidates are left once there are none -/
theorem level_of_le {i j : Nat} (hij : i ≤ j) (h : level files env stages texts i = []) :
    level files env stages texts j = [] := by
  induction stages generalizing texts i j with
  | nil =>
    cases j with
    | zero =>
      have hi : i = 0 := Nat.le_zero.1 hij
      rwa [hi] at h
    | succ j => rfl
  | cons s rest ih =>
    cases i with
    | zero =>
      have htexts : texts = [] := h
      rw [htexts]
      exact level_nil _ _
    | succ i =>
      cases j with
      | zero => exact absurd hij (Nat.not_succ_le_zero i)
      | succ j => exact ih (Nat.le_of_succ_le_succ hij) h

theorem last_first : decide (0 + 1 = (s :: rest).length) = rest.isEmpty := by
  cases rest <;> simp

theorem last_next (i : Nat) : decide (i + 1 + 1 = (s :: rest).length) = decide (i + 1 = rest.length) := by
  simp

theorem raises_first :
    Raises files env (s :: rest) texts 0 text e ↔ text ∈ texts ∧ s.Raises files env rest.isEmpty text e := by
  unfold Raises
  rw [last_first]
  constructor
  · rintro ⟨other, hother, hmem, hraises⟩
    cases hother
    exact ⟨hmem, hraises⟩
  · rintro ⟨hmem, hraises⟩
    exact ⟨s, rfl, hmem, hraises⟩

theorem raises_next (i : Nat) :
    Raises files env (s :: rest) texts (i + 1) text e ↔
      Raises files env rest (texts.flatMap fun t => s.survivors files env rest.isEmpty t) i text e := by
  unfold Raises
  rw [last_next]
  rfl

theorem Raises.append_left {i : Nat} (h : Raises files env stages texts i text e) (more : List String) :
    Raises files env stages (texts ++ more) i text e := by
  obtain ⟨s, hs, hmem, hraises⟩ := h
  refine ⟨s, hs, ?_, hraises⟩
  rw [level_append]
  exact List.mem_append_left _ hmem

theorem FirstRaise.next {i : Nat}
    (hquiet : ∀ t ∈ texts, ∀ e', ¬ s.Raises files env rest.isEmpty t e')
    (h : FirstRaise files env rest (texts.flatMap fun t => s.survivors files env rest.isEmpty t) i e) :
    FirstRaise files env (s :: rest) texts (i + 1) e := by
  obtain ⟨hbefore, hfirst⟩ := h
  constructor
  · intro j hj text e' hraises
    cases j with
    | zero =>
      obtain ⟨hmem, hraises⟩ := raises_first.1 hraises
      exact hquiet text hmem e' hraises
    | succ j => exact hbefore j (Nat.lt_of_succ_lt_succ hj) text e' ((raises_next j).1 hraises)
  · rw [last_next]
    exact hfirst

/-- the first of some texts on which a stage raises a hard error -/
theorem exists_first_raise (h : ∃ t ∈ texts, ∃ e, s.Raises files env last t e) :
    ∃ before t after e, texts = before ++ t :: after ∧ s.Raises files env last t e ∧
      ∀ u ∈ before, ∀ e', ¬ s.Raises files env last u e' := by
  induction texts with
  | nil =>
    obtain ⟨t, ht, -⟩ := h
    cases ht
  | cons first others ih =>
    by_cases hfirst : ∃ e, s.Raises files env last first e
    · obtain ⟨e, he⟩ := hfirst
      exact ⟨[], first, others, e, rfl, he, fun u hu => absurd hu List.not_mem_nil⟩
    · have hothers : ∃ t ∈ others, ∃ e, s.Raises files env last t e := by
        obtain ⟨t, ht, hraises⟩ := h
        rcases List.mem_cons.1 ht with rfl | ht
        · exact absurd hraises hfirst
        · exact ⟨t, ht, hraises⟩
      obtain ⟨before, t, after, e, rfl, hraises, hbefore⟩ := ih hothers
      refine ⟨first :: before, t, after, e, rfl, hraises, fun u hu e' he' => ?_⟩
      rcases List.mem_cons.1 hu with rfl | hu
      · exact hfirst ⟨e', he'⟩
      · exact hbefore u hu e' he'

/-! ## Depth first -/

theorem followAll_nil (texts : List String) : followAll files env [] texts = .ok texts := by
  unfold followAll
  have hall : texts.mapM (depthFirst files env []) = .ok (texts.map fun t => [t]) := by
    induction texts with
    | nil => rfl
    | cons t others ih =>
      rw [List.mapM_cons, ih]
      rfl
  rw [hall]
  have hflatten : (texts.map fun t => [t]).flatten = texts := by
    rw [← List.flatMap_def, List.flatMap_singleton']
  exact congrArg Except.ok hflatten

/-- following a text and then others -/
theorem followAll_cons (stages : List Stage) (t : String) (others : List String) :
    followAll files env stages (t :: others) =
      match depthFirst files env stages t with
      | .error e => .error e
      | .ok found => (followAll files env stages others).map (found ++ ·) := by
  unfold followAll
  rw [List.mapM_cons]
  cases depthFirst files env stages t with
  | error e => rfl
  | ok found =>
    cases others.mapM (depthFirst files env stages) with
    | error e => rfl
    | ok pieces => rfl

theorem followAll_append (stages : List Stage) (xs ys : List String) :
    followAll files env stages (xs ++ ys) =
      match followAll files env stages xs with
      | .error e => .error e
      | .ok found => (followAll files env stages ys).map (found ++ ·) := by
  induction xs with
  | nil =>
    change followAll files env stages ys = (followAll files env stages ys).map ([] ++ ·)
    cases followAll files env stages ys <;> rfl
  | cons t others ih =>
    rw [List.cons_append, followAll_cons, followAll_cons, ih]
    cases depthFirst files env stages t with
    | error e => rfl
    | ok found =>
      cases followAll files env stages others with
      | error e => rfl
      | ok more =>
        cases followAll files env stages ys with
        | error e => rfl
        | ok others => simp [Except.map]

theorem depthFirst_raises (h : s.Raises files env rest.isEmpty text e) :
    depthFirst files env (s :: rest) text = .error e := by
  rw [depthFirst, h.1]
  simp only
  rw [if_neg (by rw [h.2]; exact Bool.false_ne_true)]

theorem depthFirst_quiet (h : ∀ e, ¬ s.Raises files env rest.isEmpty text e) :
    depthFirst files env (s :: rest) text =
      followAll files env rest (s.survivors files env rest.isEmpty text) := by
  rw [depthFirst, Stage.survivors]
  cases hanswer : s.answer files env rest.isEmpty text with
  | ok outputs => rfl
  | error e =>
    cases hhard : e.isUnmatched with
    | true => simp only [hhard, if_true, followAll, List.mapM_nil]; rfl
    | false => exact absurd ⟨hanswer, hhard⟩ (h e)

/-- **Following texts through a stage** first, and then what is left of them through the others. -/
theorem followAll_quiet (h : ∀ t ∈ texts, ∀ e, ¬ s.Raises files env rest.isEmpty t e) :
    followAll files env (s :: rest) texts =
      followAll files env rest (texts.flatMap fun t => s.survivors files env rest.isEmpty t) := by
  induction texts with
  | nil => rfl
  | cons t others ih =>
    rw [followAll_cons, depthFirst_quiet (h t List.mem_cons_self), List.flatMap_cons, followAll_append,
      ih fun u hu => h u (List.mem_cons_of_mem _ hu)]

variable (files env) in
/-- **Following texts** fails with the hard error of a stage on one of its candidates, or no stage raises one and the
candidates behind the last stage are found. -/
theorem followAll_cases (stages : List Stage) (texts : List String) :
    (∃ i text e, Raises files env stages texts i text e ∧ followAll files env stages texts = .error e) ∨
      (∀ i text e, ¬ Raises files env stages texts i text e) ∧
        followAll files env stages texts = .ok (level files env stages texts stages.length) := by
  induction stages generalizing texts with
  | nil =>
    refine .inr ⟨?_, followAll_nil texts⟩
    rintro i text e ⟨s, hs, -⟩
    cases hs
  | cons s rest ih =>
    let next (texts : List String) := texts.flatMap fun t => s.survivors files env rest.isEmpty t
    by_cases hraises : ∃ t ∈ texts, ∃ e, s.Raises files env rest.isEmpty t e
    · obtain ⟨before, t, after, e, rfl, hraises, hbefore⟩ := exists_first_raise hraises
      rw [followAll_append, followAll_quiet hbefore]
      rcases ih (next before) with ⟨i, text, e', hdeep, herror⟩ | ⟨-, hok⟩
      · refine .inl ⟨i + 1, text, e', ((raises_next i).2 hdeep).append_left _, ?_⟩
        rw [herror]
      · refine .inl ⟨0, t, e, raises_first.2 ⟨by simp, hraises⟩, ?_⟩
        rw [hok, followAll_cons, depthFirst_raises hraises]
        rfl
    · have hquiet : ∀ t ∈ texts, ∀ e, ¬ s.Raises files env rest.isEmpty t e :=
        fun t ht e he => hraises ⟨t, ht, e, he⟩
      rw [followAll_quiet hquiet]
      rcases ih (next texts) with ⟨i, text, e, hdeep, herror⟩ | ⟨hnone, hok⟩
      · exact .inl ⟨i + 1, text, e, (raises_next i).2 hdeep, herror⟩
      · refine .inr ⟨fun i text e h => ?_, hok⟩
        cases i with
        | zero =>
          obtain ⟨hmem, hfirst⟩ := raises_first.1 h
          exact hquiet text hmem e hfirst
        | succ i => exact hnone i text e ((raises_next i).1 h)

end

/-! ## Level by level -/

section

variable {s : Stage} {place : Place} {last : Bool}

/-- a stage that raises nothing leaves the outputs for all texts that are not blank -/
theorem applyFrom_quiet {Ok : World → Prop} (hOk : ∀ (w : World) samples, Ok w → Ok { w with samples := samples })
    (hgives : ∀ text, Gives Ok (s.apply place last text) (s.answerKept files env last text))
    {texts : List String} (hquiet : ∀ t ∈ texts, ∀ e, ¬ s.Raises files env last t e) (done : List (List String)) :
    Gives Ok (applyFrom s place last done texts)
      (.ok (done.reverse.flatten ++ texts.flatMap fun t => s.survivors files env last t)) := by
  induction texts generalizing done with
  | nil =>
    rw [List.flatMap_nil, List.append_nil]
    exact Gives.pure _
  | cons t others ih =>
    have hothers := ih fun u hu => hquiet u (List.mem_cons_of_mem _ hu)
    unfold applyFrom
    refine ((hgives t).measure hOk _).bind ?_
    rcases s.answerKept_cases (hquiet t List.mem_cons_self) with ⟨hkept, -⟩ | ⟨e, hkept, hunmatched, hnone⟩
    · have hnext := hothers (s.survivors files env last t :: done)
      rw [hkept, List.flatMap_cons]
      simpa using hnext
    · rw [hkept, List.flatMap_cons, hnone]
      simp only
      rw [if_pos hunmatched]
      exact hothers done

/-- a stage fails with the first hard error that it raises -/
theorem applyFrom_raises
    (hgives : ∀ text, Gives (World.Settled scripts files env) (s.apply place last text)
      (s.answerKept files env last text))
    {before after : List String} {text : String} {e : MatchError} (hraises : s.Raises files env last text e)
    (hbefore : ∀ t ∈ before, ∀ e', ¬ s.Raises files env last t e') (done : List (List String)) :
    Gives (World.Settled scripts files env) (applyFrom s place last done (before ++ text :: after))
      (.error (e.within (stageLabel place.stage))) := by
  induction before generalizing done with
  | nil =>
    rw [List.nil_append]
    unfold applyFrom
    refine ((hgives text).measure World.Settled.of_samples _).bind ?_
    rw [Stage.answerKept_raises hraises]
    simp only
    rw [if_neg (by rw [hraises.2]; exact Bool.false_ne_true)]
    exact Gives.pure _
  | cons t others ih =>
    have hothers := ih fun u hu => hbefore u (List.mem_cons_of_mem _ hu)
    rw [List.cons_append]
    unfold applyFrom
    refine ((hgives t).measure World.Settled.of_samples _).bind ?_
    rcases s.answerKept_cases (hbefore t List.mem_cons_self) with ⟨hkept, -⟩ | ⟨e, hkept, hunmatched, -⟩
    · rw [hkept]
      exact hothers _
    · rw [hkept]
      simp only
      rw [if_pos hunmatched]
      exact hothers done

end

section

variable {place : Place} {stages : List Stage} {texts : List String}

theorem Stands.rest {s : Stage} {rest : List Stage} (h : Stands scripts place (s :: rest)) :
    Stands scripts { place with stage := place.stage + 1 } rest := by
  intro i script hi
  have hnext := h (i + 1) script hi
  rwa [Nat.add_comm i 1, ← Nat.add_assoc] at hnext

/-- the stages of a chain give their answers -/
theorem stage_gives {s : Stage} {rest : List Stage} (h : ∀ s' ∈ s :: rest, s'.IsFunction files env)
    (hplace : Stands scripts place (s :: rest)) (last : Bool) (text : String) :
    Gives (World.Settled scripts files env) (s.apply place last text) (s.answerKept files env last text) :=
  Stage.apply_gives (h s List.mem_cons_self) (fun script hs => hplace 0 script hs) last text

/-- behind a stage that leaves some texts, a chain gives what its other stages give for them -/
theorem runFrom_gives {s : Stage} {rest : List Stage} {next : List String} {r : MatchResult}
    (happly : Gives (World.Settled scripts files env) (applyAll s place rest.isEmpty texts) (.ok next))
    (hnext : next ≠ [])
    (hrest : Gives (World.Settled scripts files env) (runFrom { place with stage := place.stage + 1 } rest next) r) :
    Gives (World.Settled scripts files env) (runFrom place (s :: rest) texts) r := by
  unfold runFrom
  refine happly.bind ?_
  cases next with
  | nil => exact absurd rfl hnext
  | cons first others => exact hrest

/-- **Levels without hard errors**: what is behind the last stage is given, unless some stage leaves nothing. -/
theorem runFrom_quiet (h : ∀ s ∈ stages, s.IsFunction files env) (hplace : Stands scripts place stages)
    (htexts : texts ≠ []) (hquiet : ∀ i text e, ¬ Raises files env stages texts i text e) :
    (level files env stages texts stages.length ≠ [] ∧
        Gives (World.Settled scripts files env) (runFrom place stages texts)
          (.ok (level files env stages texts stages.length))) ∨
      ∃ i < stages.length, level files env stages texts (i + 1) = [] ∧
        (∀ j ≤ i, level files env stages texts j ≠ []) ∧
        Gives (World.Settled scripts files env) (runFrom place stages texts)
          (.error (.unmatched (stageLabel (place.stage + i)))) := by
  induction stages generalizing place texts with
  | nil => exact .inl ⟨htexts, Gives.pure _⟩
  | cons s rest ih =>
    -- the texts that the stage leaves for the others
    let next : List String := texts.flatMap fun t => s.survivors files env rest.isEmpty t
    have hfirst : ∀ t ∈ texts, ∀ e, ¬ s.Raises files env rest.isEmpty t e :=
      fun t ht e hraises => hquiet 0 t e (raises_first.2 ⟨ht, hraises⟩)
    have happly : Gives (World.Settled scripts files env) (applyAll s place rest.isEmpty texts) (.ok next) :=
      applyFrom_quiet World.Settled.of_samples (stage_gives h hplace rest.isEmpty) hfirst []
    by_cases hnext : next = []
    · refine .inr ⟨0, Nat.succ_pos _, (level_zero rest next).trans hnext, ?_, ?_⟩
      · intro j hj
        rw [Nat.le_zero.1 hj]
        exact htexts
      · unfold runFrom
        refine happly.bind ?_
        rw [hnext]
        exact Gives.pure _
    · have hdeep : ∀ i text e, ¬ Raises files env rest next i text e :=
        fun i text e hraises => hquiet (i + 1) text e ((raises_next i).2 hraises)
      rcases ih (fun s' hs' => h s' (List.mem_cons_of_mem _ hs')) hplace.rest hnext hdeep with
        ⟨hleft, hgives⟩ | ⟨i, hi, hempty, hbefore, hgives⟩
      · exact .inl ⟨hleft, runFrom_gives happly hnext hgives⟩
      · refine .inr ⟨i + 1, Nat.succ_lt_succ hi, hempty, ?_, ?_⟩
        · intro j hj
          cases j with
          | zero => exact htexts
          | succ j => exact hbefore j (Nat.le_of_succ_le_succ hj)
        · have hlabel : place.stage + (i + 1) = place.stage + 1 + i := by omega
          rw [hlabel]
          exact runFrom_gives happly hnext hgives

/-- **Levels with hard errors**: the first one is given, with the number of its stage. -/
theorem runFrom_raises (h : ∀ s ∈ stages, s.IsFunction files env) (hplace : Stands scripts place stages)
    (hraises : ∃ i text e, Raises files env stages texts i text e) :
    ∃ i e, FirstRaise files env stages texts i e ∧
      Gives (World.Settled scripts files env) (runFrom place stages texts)
        (.error (e.within (stageLabel (place.stage + i)))) := by
  induction stages generalizing place texts with
  | nil =>
    obtain ⟨i, text, e, s, hs, -⟩ := hraises
    cases hs
  | cons s rest ih =>
    let next : List String := texts.flatMap fun t => s.survivors files env rest.isEmpty t
    by_cases hfirst : ∃ t ∈ texts, ∃ e, s.Raises files env rest.isEmpty t e
    · obtain ⟨before, t, after, e, rfl, hraise, hbefore⟩ := exists_first_raise hfirst
      refine ⟨0, e, ⟨fun j hj => absurd hj (Nat.not_lt_zero j), s, before, t, after, rfl, rfl, ?_⟩, ?_⟩
      · rw [last_first]
        exact ⟨hraise, hbefore⟩
      · unfold runFrom
        exact (applyFrom_raises (stage_gives h hplace rest.isEmpty) hraise hbefore []).bind (Gives.pure _)
    · have hquiet : ∀ t ∈ texts, ∀ e, ¬ s.Raises files env rest.isEmpty t e :=
        fun t ht e he => hfirst ⟨t, ht, e, he⟩
      have happly : Gives (World.Settled scripts files env) (applyAll s place rest.isEmpty texts) (.ok next) :=
        applyFrom_quiet World.Settled.of_samples (stage_gives h hplace rest.isEmpty) hquiet []
      have hdeep : ∃ i text e, Raises files env rest next i text e := by
        obtain ⟨i, text, e, hraise⟩ := hraises
        cases i with
        | zero =>
          obtain ⟨hmem, hraise⟩ := raises_first.1 hraise
          exact absurd hraise (hquiet text hmem e)
        | succ i => exact ⟨i, text, e, (raises_next i).1 hraise⟩
      have hnext : next ≠ [] := by
        rintro hnext
        obtain ⟨i, text, e, s', -, hmem, -⟩ := hdeep
        rw [hnext, level_nil] at hmem
        cases hmem
      obtain ⟨i, e, hfirstRaise, hgives⟩ := ih (fun s' hs' => h s' (List.mem_cons_of_mem _ hs')) hplace.rest hdeep
      refine ⟨i + 1, e, hfirstRaise.next hquiet, ?_⟩
      have hlabel : place.stage + (i + 1) = place.stage + 1 + i := by omega
      rw [hlabel]
      exact runFrom_gives happly hnext hgives

end

/-! ## Chains and threads -/

/-- what a chain of some stages gives for an input, and what following the input depth first comes to, if they agree -/
structure Agrees (files : FileNode) (env : Environment) (stages : List Stage) (input : String)
    (r deep : MatchResult) : Prop where
  /-- the chain fails exactly if a stage raises a hard error on a text that it is reached with -/
  fails_iff : (∃ e, r = .error e ∧ e.isUnmatched = false) ↔ ∃ i text e, Raises files env stages [input] i text e
  /-- so does the other -/
  deep_fails_iff :
    (∃ e, deep = .error e ∧ e.isUnmatched = false) ↔ ∃ i text e, Raises files env stages [input] i text e
  /-- the chain fails with the first hard error in the order of levels -/
  first : ∀ e, r = .error e → e.isUnmatched = false →
    ∃ i cause, FirstRaise files env stages [input] i cause ∧ e = cause.within (stageLabel i)
  /-- without hard errors both give the same texts -/
  same : (∀ i text e, ¬ Raises files env stages [input] i text e) →
    ∃ found, deep = .ok found ∧
      (found ≠ [] → r = .ok found) ∧ (found = [] → ∃ e, r = .error e ∧ e.isUnmatched = true)
  /-- a chain without a match tells the first stage that leaves nothing -/
  unmatched : ∀ e, r = .error e → e.isUnmatched = true →
    ∃ i < stages.length, level files env stages [input] (i + 1) = [] ∧
      (∀ j ≤ i, level files env stages [input] j ≠ []) ∧ e = .unmatched (stageLabel i)

theorem followAll_single (stages : List Stage) (input : String) :
    followAll files env stages [input] = depthFirst files env stages input := by
  rw [followAll_cons]
  cases depthFirst files env stages input with
  | error e => rfl
  | ok found => exact congrArg Except.ok (List.append_nil found)

/-- the error of a stage that raises one is hard -/
theorem Raises.hard {stages : List Stage} {texts : List String} {i : Nat} {text : String} {e : MatchError}
    (h : Raises files env stages texts i text e) : e.isUnmatched = false := by
  obtain ⟨s, -, -, hraises⟩ := h
  exact hraises.2

theorem FirstRaise.raises {stages : List Stage} {texts : List String} {i : Nat} {e : MatchError}
    (h : FirstRaise files env stages texts i e) : ∃ text, Raises files env stages texts i text e := by
  obtain ⟨-, s, before, text, after, hs, hlevel, hraises, -⟩ := h
  refine ⟨text, s, hs, ?_, hraises⟩
  rw [hlevel]
  exact List.mem_append_right _ List.mem_cons_self

section

variable {stages : List Stage} {input : String} {r deep : MatchResult}

/-- both have failed -/
theorem Agrees.of_raises {i j : Nat} {text : String} {e cause : MatchError}
    (hfirst : FirstRaise files env stages [input] i cause) (hr : r = .error (cause.within (stageLabel i)))
    (hraises : Raises files env stages [input] j text e) (hdeep : deep = .error e) :
    Agrees files env stages input r deep := by
  have hreached : ∃ i text e, Raises files env stages [input] i text e := ⟨j, text, e, hraises⟩
  obtain ⟨text', hcause⟩ := hfirst.raises
  have hhard : (cause.within (stageLabel i)).isUnmatched = false := (cause.isUnmatched_within _).trans hcause.hard
  constructor
  · exact iff_of_true ⟨_, hr, hhard⟩ hreached
  · exact iff_of_true ⟨e, hdeep, hraises.hard⟩ hreached
  · intro e' he' _
    rw [hr] at he'
    exact ⟨i, cause, hfirst, (Except.error.inj he').symm⟩
  · intro hnone
    exact absurd hraises (hnone j text e)
  · intro e' he' hunmatched
    rw [hr] at he'
    rw [← Except.error.inj he', hhard] at hunmatched
    cases hunmatched

/-- nothing has failed -/
theorem Agrees.of_quiet (hnone : ∀ i text e, ¬ Raises files env stages [input] i text e)
    (hdeep : deep = .ok (level files env stages [input] stages.length))
    (hr : (level files env stages [input] stages.length ≠ [] ∧
        r = .ok (level files env stages [input] stages.length)) ∨
      ∃ i < stages.length, level files env stages [input] (i + 1) = [] ∧
        (∀ j ≤ i, level files env stages [input] j ≠ []) ∧ r = .error (.unmatched (stageLabel i))) :
    Agrees files env stages input r deep := by
  have hnotReached : ¬ ∃ i text e, Raises files env stages [input] i text e :=
    fun ⟨i, text, e, hraises⟩ => hnone i text e hraises
  have hunmatched : ∀ e, r = .error e →
      ∃ i < stages.length, level files env stages [input] (i + 1) = [] ∧
        (∀ j ≤ i, level files env stages [input] j ≠ []) ∧ e = .unmatched (stageLabel i) := by
    intro e he
    rcases hr with ⟨-, hok⟩ | ⟨i, hi, hempty, hbefore, herror⟩
    · cases he.symm.trans hok
    · exact ⟨i, hi, hempty, hbefore, Except.error.inj (he.symm.trans herror)⟩
  constructor
  · refine iff_of_false ?_ hnotReached
    rintro ⟨e, he, hhard⟩
    obtain ⟨i, -, -, -, rfl⟩ := hunmatched e he
    cases hhard
  · refine iff_of_false ?_ hnotReached
    rintro ⟨e, he, -⟩
    cases he.symm.trans hdeep
  · intro e he hhard
    obtain ⟨i, -, -, -, rfl⟩ := hunmatched e he
    cases hhard
  · intro _
    refine ⟨_, hdeep, ?_, ?_⟩
    · intro hfound
      rcases hr with ⟨-, hok⟩ | ⟨i, hi, hempty, -, -⟩
      · exact hok
      · exact absurd (level_of_le hi hempty) hfound
    · intro hfound
      rcases hr with ⟨hleft, -⟩ | ⟨i, -, -, -, herror⟩
      · exact absurd hfound hleft
      · exact ⟨_, herror, rfl⟩
  · intro e he _
    exact hunmatched e he

end

/-- **A chain threads its input through its stages.** Let the stages be functions of their candidates, and the world be
settled, fresh or behind any calls of the scripts in it. A chain without stages has no match. Any other agrees with the
depth-first recursion. -/
theorem run_threads {c : Chain} (hstart : c.place.stage = 0) (hstands : Stands scripts c.place c.stages)
    (h : ∀ s ∈ c.stages, s.IsFunction files env) {w : World} (hw : w.Settled scripts files env) (input : String) :
    (c.stages = [] → (c.run input w).1 = .error (.unmatched "empty matcher chain")) ∧
      (c.stages ≠ [] →
        Agrees files env c.stages input (c.run input w).1 (depthFirst files env c.stages input)) := by
  constructor
  · intro hempty
    unfold run
    rw [hempty]
    rfl
  · intro hstages
    have hrun : c.run input = runFrom c.place c.stages [input] := by
      unfold run
      rw [if_neg (by simpa using hstages)]
    rw [hrun, ← followAll_single]
    rcases followAll_cases files env c.stages [input] with
      ⟨j, text, e, hraises, hdeep⟩ | ⟨hnone, hdeep⟩
    · obtain ⟨i, cause, hfirst, hgives⟩ := runFrom_raises h hstands ⟨j, text, e, hraises⟩
      rw [hstart, Nat.zero_add] at hgives
      exact Agrees.of_raises hfirst (hgives w hw).1 hraises hdeep
    · refine Agrees.of_quiet hnone hdeep ?_
      rcases runFrom_quiet h hstands (List.cons_ne_nil input []) hnone with
        ⟨hleft, hgives⟩ | ⟨i, hi, hempty, hbefore, hgives⟩
      · exact .inl ⟨hleft, (hgives w hw).1⟩
      · rw [hstart, Nat.zero_add] at hgives
        exact .inr ⟨i, hi, hempty, hbefore, (hgives w hw).1⟩

end Chain

/-! ## Small chains -/

/-- a pattern that matches the letters a and b behind each other -/
def pairPattern : Regex.Pattern :=
  ⟨"ab", ⟨#[.accept, .save 1 0, .char 'b' 1, .char 'a' 2, .save 0 3], 4, 2⟩, #[none]⟩

/-- fans out, keeps what has a pair in it, and takes all pairs -/
def pairChain : Chain := ⟨{}, [.values ["xab", " ", "abab", "x"], .regex pairPattern [], .regex pairPattern []]⟩

/-- a program that is nowhere -/
def missingScript : Lua.Script := ⟨.file "gone.lua", "f"⟩

/-- loads a program that is not there for the second of its stages -/
def brokenChain : Chain := ⟨{}, [.values ["k", "x"], .lua missingScript]⟩

/-- a program that is not there carries nothing from one call to the next -/
theorem Lua.Script.stateless_of_missing {s : Lua.Script} {host : Lua.Host} {reason : String}
    (h : s.program host.files = .error reason) : s.turn.Stateless host := by
  have hturn : ∀ text, s.turn text none host = ⟨.error (.scriptLoad reason), none, host.files⟩ := by
    intro text
    simp only [turn, session, start, h]
  have hnone : ∀ kept, s.turn.Reached host kept → kept = none := by
    intro kept hreached
    induction hreached with
    | nothing => rfl
    | called _ text ih => rw [ih, hturn]
  constructor
  · intro text kept hreached
    rw [hnone kept hreached, hturn]
  · intro text kept hreached
    rw [hnone kept hreached]

/-- the scripts of a chain in which there is only one -/
theorem Chain.stands_of_only (script : Callable) {place : Place} {stages : List Stage}
    (h : ∀ s ∈ stages, ∀ other, s.callable? = some other → other = script) :
    Stands (fun _ => some script) place stages := by
  intro i other hi
  obtain ⟨s, hs, hother⟩ := Option.bind_eq_some_iff.1 hi
  rw [h s (List.mem_of_getElem? hs) other hother]

/-- why it cannot be loaded -/
def missingReason : String := "gone.lua: No such file or directory (os error 2)"

/-- behind the empty tree, one chain gives three pairs, and the other fails in its second stage -/
theorem Chain.run_threads_pairs :
    (Agrees .emptyDir ⟨[]⟩ pairChain.stages "i" (pairChain.run "i" (World.fresh .emptyDir ⟨[]⟩)).1
        (.ok ["ab", "ab", "ab"]) ∧
      (pairChain.run "i" (World.fresh .emptyDir ⟨[]⟩)).1 = .ok ["ab", "ab", "ab"]) ∧
      Agrees .emptyDir ⟨[]⟩ brokenChain.stages "i" (brokenChain.run "i" (World.fresh .emptyDir ⟨[]⟩)).1
        (.error (.scriptLoad missingReason)) ∧
      (brokenChain.run "i" (World.fresh .emptyDir ⟨[]⟩)).1 =
        .error (.context "matcher chain[1]" (.scriptLoad missingReason)) := by
  have hpairs : ∀ s ∈ pairChain.stages, s.IsFunction .emptyDir ⟨[]⟩ := by
    simp [pairChain, Stage.IsFunction, Stage.callable?]
  have hbroken : ∀ s ∈ brokenChain.stages, s.IsFunction .emptyDir ⟨[]⟩ := by
    have hreason : missingScript.program .emptyDir = .error missingReason := by decide +kernel
    have hmissing : missingScript.turn.Stateless { files := .emptyDir, env := ⟨[]⟩ } :=
      Lua.Script.stateless_of_missing hreason
    simp [brokenChain, Stage.IsFunction, Stage.callable?, hmissing]
  have hpair := (run_threads rfl (stands_of_only missingScript.turn (by simp [pairChain, Stage.callable?])) hpairs
    World.settled_fresh "i").2 (by simp [pairChain])
  have hbreak := (run_threads rfl (stands_of_only missingScript.turn (by simp [brokenChain, Stage.callable?])) hbroken
    World.settled_fresh "i").2 (by simp [brokenChain])
  have hdeep : depthFirst .emptyDir ⟨[]⟩ pairChain.stages "i" = .ok ["ab", "ab", "ab"] := by decide +kernel
  have hdeepBroken : depthFirst .emptyDir ⟨[]⟩ brokenChain.stages "i" = .error (.scriptLoad missingReason) := by
    decide +kernel
  rw [hdeep] at hpair
  rw [hdeepBroken] at hbreak
  exact ⟨⟨hpair, by decide +kernel⟩, hbreak, by decide +kernel⟩

end Gleaner
