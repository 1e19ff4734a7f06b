/-
Chains behind chains.

The stages of one chain and behind them those of another are a chain again. None of the first stages is the last any
more, and so a pattern among them that gave its matches now lets its candidate pass. The stages of the second chain get
what the first ones leave (`Chain.passed`).

Results:
- `level_behind`: the levels of the second chain begin with what the first stages leave;
- `Calm.relay`: two chains of functions that raise no hard error raise none behind each other;
- `isOk_relay_iff`: they match a text if the second chain matches some text that the first stages leave of it.
-/
import Gleaner.Proofs.Threading

namespace Gleaner

variable {files : FileNode} {env : Environment}

theorem isUnmatched_of_whenMatched {matched : Bool} {what : String} {found : List String} {e : MatchError}
    (h : Stage.whenMatched matched what found = .error e) : e.isUnmatched = true := by
  unfold Stage.whenMatched at h
  split at h
  · cases h
  · cases h
    rfl

/-- whether a stage raises a hard error does not depend on where it stands -/
theorem Stage.raises_last {s : Stage} {last : Bool} {text : String} {e : MatchError}
    (h : s.Raises files env last text e) (last' : Bool) : s.Raises files env last' text e := by
  obtain ⟨hanswer, hhard⟩ := h
  cases s with
  | regex p constants =>
    have hunmatched : e.isUnmatched = true := by
      cases constants with
      | nil =>
        simp only [answer] at hanswer
        split at hanswer <;> exact isUnmatched_of_whenMatched hanswer
      | cons first rest => exact isUnmatched_of_whenMatched hanswer
    cases hhard.symm.trans hunmatched
  | _ => exact ⟨hanswer, hhard⟩

/-- a stage without a script -/
def Stage.IsPlain : Stage → Prop
  | .shell _ => False
  | .lua _ => False
  | _ => True

theorem Stage.IsPlain.not_raises {s : Stage} (h : s.IsPlain) (last : Bool) (text : String) (e : MatchError) :
    ¬ s.Raises files env last text e := by
  intro hraises
  obtain ⟨hanswer, hhard⟩ := s.raises_last hraises true
  have hunmatched : e.isUnmatched = true := by
    cases s with
    | regex p constants => cases constants <;> exact isUnmatched_of_whenMatched hanswer
    | negated p constants => exact isUnmatched_of_whenMatched hanswer
    | template p filling => exact isUnmatched_of_whenMatched hanswer
    | values constants => cases hanswer
    | glob g => exact isUnmatched_of_whenMatched hanswer
    | shell script => exact h.elim
    | lua script => exact h.elim
  cases hhard.symm.trans hunmatched

/-- a stage that lets its candidate pass as it is, or not at all, unless it is the last -/
def Stage.IsFilter : Stage → Prop
  | .regex _ [] => True
  | .negated _ [] => True
  | .glob _ => True
  | _ => False

theorem Stage.IsFilter.isPlain {s : Stage} (h : s.IsFilter) : s.IsPlain := by
  cases s with
  | shell script => exact h.elim
  | lua script => exact h.elim
  | _ => trivial

/-- whether a filter lets a text pass -/
def Stage.passes (text : String) : Stage → Bool
  | .regex p _ => p.isMatch text
  | .negated p _ => !p.isMatch text
  | .glob g => g.isMatch text
  | _ => false

/-- a pattern without values, which gives its matches where it stands last -/
def Stage.GivesMatches : Stage → Prop
  | .regex _ [] => True
  | _ => False

theorem Stage.IsFilter.answer_eq {s : Stage} (h : s.IsFilter) {last : Bool} (hlast : last = false ∨ ¬ s.GivesMatches)
    (text : String) : ∃ what, s.answer files env last text = whenMatched (s.passes text) what [text] := by
  cases s with
  | regex p constants =>
    cases constants with
    | nil =>
      rcases hlast with rfl | hlast
      · exact ⟨_, rfl⟩
      · exact absurd trivial hlast
    | cons first rest => exact h.elim
  | negated p constants =>
    cases constants with
    | nil => exact ⟨_, rfl⟩
    | cons first rest => exact h.elim
  | glob g => exact ⟨_, rfl⟩
  | template p filling => exact h.elim
  | values constants => exact h.elim
  | shell script => exact h.elim
  | lua script => exact h.elim

theorem Stage.survivors_of_answer {s : Stage} {last matched : Bool} {text what : String} {found : List String}
    (h : s.answer files env last text = whenMatched matched what found) :
    s.survivors files env last text = if matched then found.filter fun output => !Text.isBlank output else [] := by
  rw [survivors, h]
  cases matched <;> rfl

/-- **A filter leaves its candidate** if it lets it pass, and it is not blank. -/
theorem Stage.IsFilter.survivors_eq {s : Stage} (h : s.IsFilter) {last : Bool}
    (hlast : last = false ∨ ¬ s.GivesMatches) (text : String) :
    s.survivors files env last text = [text].filter fun t => s.passes t && !Text.isBlank t := by
  obtain ⟨what, hanswer⟩ := h.answer_eq hlast text
  rw [survivors_of_answer hanswer]
  cases hpass : s.passes text <;> simp [hpass, List.filter_cons]

namespace Chain

/-- what stages leave of some texts if none of them is the last of its chain -/
def passed (files : FileNode) (env : Environment) : List Stage → List String → List String
  | [], texts => texts
  | s :: rest, texts => passed files env rest (texts.flatMap fun t => s.survivors files env false t)

/-! ## Levels of two chains -/

section

variable {stages more : List Stage} {texts : List String} {i : Nat} {text : String} {e : MatchError}

/-- before the last of its stages a chain does not see what is behind it -/
theorem level_before (hi : i < stages.length) :
    level files env (stages ++ more) texts i = level files env stages texts i := by
  induction stages generalizing texts i with
  | nil => exact absurd hi (Nat.not_lt_zero i)
  | cons s rest ih =>
    cases i with
    | zero => rfl
    | succ i =>
      have hrest : i < rest.length := Nat.lt_of_succ_lt_succ hi
      have hne : rest ≠ [] := List.ne_nil_of_length_pos (Nat.zero_lt_of_lt hrest)
      have hflag : (rest ++ more).isEmpty = rest.isEmpty := by
        obtain ⟨first, others, rfl⟩ := List.exists_cons_of_ne_nil hne
        rfl
      simp only [List.cons_append, level, hflag]
      exact ih hrest

/-- **The levels of the second chain** begin with what the first stages leave. -/
theorem level_behind (hmore : more ≠ []) (texts : List String) (i : Nat) :
    level files env (stages ++ more) texts (stages.length + i) =
      level files env more (passed files env stages texts) i := by
  induction stages generalizing texts with
  | nil => rw [List.nil_append, List.length_nil, Nat.zero_add, passed]
  | cons s rest ih =>
    have hflag : (rest ++ more).isEmpty = false := by simp [hmore]
    rw [List.length_cons, Nat.add_right_comm, List.cons_append, level, hflag, ih, passed]

/-- what raises a hard error in the first stages does so without the second ones -/
theorem Raises.of_append_left (hi : i < stages.length) (h : Raises files env (stages ++ more) texts i text e) :
    Raises files env stages texts i text e := by
  obtain ⟨s, hs, hmem, hraises⟩ := h
  rw [List.getElem?_append_left hi] at hs
  rw [level_before hi] at hmem
  exact ⟨s, hs, hmem, s.raises_last hraises _⟩

/-- and what does so in the second ones does so there -/
theorem Raises.of_append_right (hmore : more ≠ [])
    (h : Raises files env (stages ++ more) texts (stages.length + i) text e) :
    Raises files env more (passed files env stages texts) i text e := by
  obtain ⟨s, hs, hmem, hraises⟩ := h
  rw [List.getElem?_append_right (Nat.le_add_right _ _), Nat.add_sub_cancel_left] at hs
  rw [level_behind hmore] at hmem
  exact ⟨s, hs, hmem, s.raises_last hraises _⟩

/-- each text leads to its candidates by itself -/
theorem mem_level : text ∈ level files env stages texts i ↔ ∃ t ∈ texts, text ∈ level files env stages [t] i := by
  induction texts with
  | nil => simp [level_nil]
  | cons t others ih =>
    rw [← List.singleton_append, level_append, List.mem_append, ih]
    simp

theorem Raises.exists_single (h : Raises files env stages texts i text e) :
    ∃ t ∈ texts, Raises files env stages [t] i text e := by
  obtain ⟨s, hs, hmem, hraises⟩ := h
  obtain ⟨t, ht, hmem⟩ := mem_level.1 hmem
  exact ⟨t, ht, s, hs, hmem, hraises⟩

end

/-! ## Chains that raise no hard error -/

/-- a chain of functions that raises no hard error -/
structure Calm (files : FileNode) (env : Environment) (c : Chain) : Prop where
  functions : ∀ s ∈ c.stages, s.IsFunction files env
  mild : ∀ text e, c.value files env text = .error e → e.isUnmatched = true

/-- the scripts of a chain that stands at its start -/
def scripts (c : Chain) (place : Place) : Option Callable := c.stages[place.stage]?.bind Stage.callable?

theorem stands_scripts {c : Chain} (hstart : c.place.stage = 0) : Stands c.scripts c.place c.stages := by
  intro i script hi
  unfold scripts
  rwa [hstart, Nat.zero_add]

section

variable {c d : Chain}

theorem value_agrees (hstart : c.place.stage = 0) (h : ∀ s ∈ c.stages, s.IsFunction files env) (hne : c.stages ≠ [])
    (text : String) :
    Agrees files env c.stages text (c.value files env text) (depthFirst files env c.stages text) :=
  (run_threads hstart (stands_scripts hstart) h World.settled_fresh text).2 hne

/-- a calm chain raises no hard error on any way through its stages -/
theorem Calm.quiet (h : c.Calm files env) (hstart : c.place.stage = 0) (text : String) (i : Nat) (t : String)
    (e : MatchError) : ¬ Raises files env c.stages [text] i t e := by
  intro hraises
  have hne : c.stages ≠ [] := by
    rintro hempty
    obtain ⟨s, hs, -⟩ := hraises
    rw [hempty] at hs
    cases hs
  obtain ⟨e', he', hhard⟩ := (value_agrees hstart h.functions hne text).fails_iff.2 ⟨i, t, e, hraises⟩
  cases hhard.symm.trans (h.mild text e' he')

theorem value_of_empty (hempty : c.stages = []) (text : String) :
    c.value files env text = .error (.unmatched "empty matcher chain") := by
  unfold value run
  rw [hempty]
  rfl

/-- a chain of functions is calm if no way through its stages raises a hard error -/
theorem calm_of_quiet (hstart : c.place.stage = 0) (h : ∀ s ∈ c.stages, s.IsFunction files env)
    (hquiet : ∀ text i t e, ¬ Raises files env c.stages [text] i t e) : c.Calm files env := by
  refine ⟨h, fun text e he => ?_⟩
  by_cases hempty : c.stages = []
  · rw [value_of_empty hempty] at he
    cases he
    rfl
  · by_contra hhard
    obtain ⟨i, t, e', hraises⟩ :=
      (value_agrees hstart h hempty text).fails_iff.1 ⟨e, he, Bool.eq_false_iff.2 hhard⟩
    exact hquiet text i t e' hraises

/-- **Chains without scripts are calm.** -/
theorem calm_of_plain (hstart : c.place.stage = 0) (h : ∀ s ∈ c.stages, s.IsPlain) : c.Calm files env := by
  refine calm_of_quiet hstart (fun s hs => ?_) fun text i t e hraises => ?_
  · have hplain := h s hs
    cases s with
    | shell script => exact hplain.elim
    | lua script => exact hplain.elim
    | _ => trivial
  · obtain ⟨s, hs, -, hraises⟩ := hraises
    exact (h s (List.mem_of_getElem? hs)).not_raises _ _ _ hraises

/-- a calm chain matches a text if something is left of it behind the last stage -/
theorem Calm.isOk_iff (h : c.Calm files env) (hstart : c.place.stage = 0) (hne : c.stages ≠ []) (text : String) :
    (c.value files env text).isOk ↔ level files env c.stages [text] c.stages.length ≠ [] := by
  have hquiet := h.quiet hstart text
  obtain ⟨found, hdeep, hmatch, hnone⟩ := (value_agrees hstart h.functions hne text).same hquiet
  have hfound : found = level files env c.stages [text] c.stages.length := by
    rcases followAll_cases files env c.stages [text] with ⟨i, t, e, hraises, -⟩ | ⟨-, hall⟩
    · exact absurd hraises (hquiet i t e)
    · rw [followAll_single, hdeep] at hall
      exact Except.ok.inj hall
  rw [← hfound]
  constructor
  · rintro hok rfl
    obtain ⟨e, he, -⟩ := hnone rfl
    rw [he] at hok
    cases hok
  · intro hleft
    rw [hmatch hleft]
    rfl

/-! ## A chain behind another -/

/-- a chain followed by the stages of another -/
def relay (c d : Chain) : Chain := { c with stages := c.stages ++ d.stages }

/-- **Two calm chains are calm behind each other.** -/
theorem Calm.relay (hc : c.Calm files env) (hd : d.Calm files env) (hcstart : c.place.stage = 0)
    (hdstart : d.place.stage = 0) : (c.relay d).Calm files env := by
  refine calm_of_quiet hcstart (fun s hs => ?_) fun text i t e hraises => ?_
  · rcases List.mem_append.1 hs with hs | hs
    · exact hc.functions s hs
    · exact hd.functions s hs
  · rcases Nat.lt_or_ge i c.stages.length with hi | hi
    · exact hc.quiet hcstart text i t e (hraises.of_append_left hi)
    · obtain ⟨j, rfl⟩ := Nat.exists_eq_add_of_le hi
      have hne : d.stages ≠ [] := by
        intro hempty
        obtain ⟨s, hs, -⟩ := hraises
        simp [Chain.relay, hempty] at hs
      obtain ⟨u, -, hraises⟩ := (hraises.of_append_right hne).exists_single
      exact hd.quiet hdstart u j t e hraises

/-- **Two chains behind each other** match a text if the second matches some text that the first stages leave of it. -/
theorem isOk_relay_iff (hc : c.Calm files env) (hd : d.Calm files env) (hcstart : c.place.stage = 0)
    (hdstart : d.place.stage = 0) (hne : d.stages ≠ []) (text : String) :
    ((c.relay d).value files env text).isOk ↔
      ∃ t ∈ passed files env c.stages [text], (d.value files env t).isOk := by
  have hall : (c.relay d).stages ≠ [] := List.append_ne_nil_of_right_ne_nil _ hne
  have hlength : (c.relay d).stages.length = c.stages.length + d.stages.length := List.length_append
  rw [(hc.relay hd hcstart hdstart).isOk_iff hcstart hall, hlength]
  change level files env (c.stages ++ d.stages) [text] _ ≠ [] ↔ _
  rw [level_behind hne]
  constructor
  · intro hleft
    obtain ⟨u, hu⟩ := List.exists_mem_of_ne_nil _ hleft
    obtain ⟨t, ht, hu⟩ := mem_level.1 hu
    exact ⟨t, ht, (hd.isOk_iff hdstart hne t).2 (List.ne_nil_of_mem hu)⟩
  · rintro ⟨t, ht, hok⟩
    obtain ⟨u, hu⟩ := List.exists_mem_of_ne_nil _ ((hd.isOk_iff hdstart hne t).1 hok)
    exact List.ne_nil_of_mem (mem_level.2 ⟨t, ht, hu⟩)

end

end Chain

end Gleaner
