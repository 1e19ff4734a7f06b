/-
Filters in chains.

Stages without scripts only sort out texts: they see nothing of the world and leave it as it was but for samples. So
some of them may stand for others in a chain if they leave the same of every text that reaches them
(`runFrom_exchange`). The stages behind them may then stand further on or less far, with their sessions
(`Exchanged`), and a failure tells that other number (`Matching`).

Texts that are blank are dropped behind every stage, but not before the first. So what reaches a stage is not blank
unless it is the first one.

Results:
- `runFrom_plain`: stages without scripts;
- `level_swap`, `level_twice`, `level_apart`: filters in another order, twice, and apart from their values;
- `filters_rearrange`: chains with other filters.
-/
import Gleaner.Proofs.Correspondence
import Gleaner.Proofs.Duties
import Gleaner.Proofs.Ignoring
import Gleaner.Proofs.Merging
import Gleaner.Proofs.Patterns
import Gleaner.Proofs.Relays
import Gleaner.Proofs.Runs

namespace Gleaner

open Act

variable {files : FileNode} {env : Environment}

/-! ## Stages without scripts -/

theorem Stage.IsPlain.apply_eq {s : Stage} (h : s.IsPlain) (place : Place) (last : Bool) (text : String) :
    s.apply place last text = pure (s.answerKept files env last text) := by
  cases s with
  | regex p constants => cases constants <;> cases last <;> rfl
  | negated p constants => cases last <;> rfl
  | template p filling => cases last <;> rfl
  | values constants => cases last <;> rfl
  | glob g => cases last <;> rfl
  | shell script => exact h.elim
  | lua script => exact h.elim

namespace Chain

variable (files env) in
/-- a stage without a script gives what is left of the texts and leaves the world as it was -/
theorem applyAll_plain {s : Stage} (h : s.IsPlain) (place : Place) (last : Bool) (texts : List String) (w : World) :
    ∃ v, World.Corresponds Eq v w ∧
      applyAll s place last texts w = (.ok (texts.flatMap fun t => s.survivors files env last t), v) := by
  have hsamples : ∀ (v : World) samples, World.Corresponds Eq v w →
      World.Corresponds Eq { v with samples := samples } w :=
    fun _ _ hv => ⟨hv.files, hv.env, hv.held⟩
  have hgives : ∀ text,
      Gives (World.Corresponds Eq · w) (s.apply place last text) (s.answerKept files env last text) := by
    intro text
    rw [h.apply_eq]
    exact Gives.pure _
  obtain ⟨hresult, hworld⟩ := applyFrom_quiet hsamples hgives (fun t _ => h.not_raises last t) [] w (.refl w)
  exact ⟨_, hworld, Prod.ext hresult rfl⟩

variable (files env) in
/-- **Stages without scripts** in front of others -/
theorem runFrom_plain {stages : List Stage} (h : ∀ s ∈ stages, s.IsPlain) (more : List Stage) (place : Place)
    {texts : List String} (htexts : texts ≠ []) (w : World) :
    ∃ v, World.Corresponds Eq v w ∧
      (level files env (stages ++ more) texts stages.length ≠ [] ∧
          runFrom place (stages ++ more) texts w = runFrom (place.at (place.stage + stages.length)) more
            (level files env (stages ++ more) texts stages.length) v ∨
        level files env (stages ++ more) texts stages.length = [] ∧
          ∃ i, runFrom place (stages ++ more) texts w = (.error (.unmatched (stageLabel i)), v)) := by
  induction stages generalizing place texts w with
  | nil => exact ⟨w, .refl w, .inl ⟨by rwa [List.length_nil, level_zero], by rw [List.length_nil, level_zero]; rfl⟩⟩
  | cons s rest ih =>
    obtain ⟨hs, hrest⟩ := List.forall_mem_cons.1 h
    obtain ⟨u, hu, hall⟩ := applyAll_plain files env hs place (rest ++ more).isEmpty texts w
    rw [List.cons_append, runFrom_cons, hall, List.length_cons, level]
    cases hleft : texts.flatMap fun t => s.survivors files env (rest ++ more).isEmpty t with
    | nil => exact ⟨u, hu, .inr ⟨level_nil _ _, place.stage, rfl⟩⟩
    | cons first others =>
      obtain ⟨v, hv, hbehind⟩ := ih hrest { place with stage := place.stage + 1 } (List.cons_ne_nil first others) u
      rw [Place.next_at] at hbehind
      exact ⟨v, hu.of_same hv, hbehind⟩

/-! ## Stages that stand for others -/

/-- the numbers of stages in two chains that are the same up to number `k`, and then again behind `m` stages in the one
and behind `m'` in the other -/
inductive Matching (k m m' : Nat) : Nat → Nat → Prop where
  | before {i : Nat} (h : i < k) : Matching k m m' i i
  | behind (d : Nat) : Matching k m m' (k + m + d) (k + m' + d)

/-- the places of such stages -/
def Exchanged (place : Place) (k m m' : Nat) (a a' : Place) : Prop :=
  ∃ i j, a = place.at i ∧ a' = place.at j ∧ Matching k m m' i j

theorem exchanged_faithful (place : Place) (k m m' : Nat) : Faithful (Exchanged place k m m') := by
  rintro _ _ _ _ ⟨i, j, rfl, rfl, hij⟩ ⟨i', j', rfl, rfl, hij'⟩
  rw [Place.at_inj, Place.at_inj]
  cases hij <;> cases hij' <;> omega

section

variable {R : Place → Place → Prop} {F : Nat → Nat → Prop} {Q : String → Prop} {place place' : Place}

/-- **The same stages in front** of others that do the same -/
theorem runFrom_behind (hR : Faithful R) (hfilled : ∀ t, Filled t → Q t) {stages more more' : List Stage}
    (hmore : more ≠ []) (hmore' : more' ≠ [])
    (hplaces : ∀ i < stages.length, R (place.at (place.stage + i)) (place'.at (place'.stage + i)))
    (hcount : ∀ i < stages.length, F (place.stage + i) (place'.stage + i))
    (h : ∀ texts, texts ≠ [] → (∀ t ∈ texts, Q t) → Act.Corresponds R (Renumbered (fun _ _ => True) F)
      (runFrom (place.at (place.stage + stages.length)) more texts)
      (runFrom (place'.at (place'.stage + stages.length)) more' texts))
    {texts : List String} (htexts : texts ≠ []) (hgood : stages = [] → ∀ t ∈ texts, Q t) :
    Act.Corresponds R (Renumbered (fun _ _ => True) F) (runFrom place (stages ++ more) texts)
      (runFrom place' (stages ++ more') texts) := by
  induction stages generalizing place place' texts with
  | nil => exact h texts htexts (hgood rfl)
  | cons s rest ih =>
    have hlast : (rest ++ more).isEmpty = false := by simp [hmore]
    have hlast' : (rest ++ more').isEmpty = false := by simp [hmore']
    have hfirst : 0 < (s :: rest).length := Nat.zero_lt_succ _
    have hall := (applyFrom_corresponds hR (hplaces 0 hfirst) s false [] texts).and_always
      (applyFrom_filled s place false texts fun _ hfound => absurd hfound List.not_mem_nil)
    unfold runFrom
    rw [List.cons_append, List.cons_append]
    simp only [hlast, hlast', applyAll]
    refine hall.bind fun r r' hr => ?_
    obtain ⟨hrenumbered, hkept⟩ := hr
    cases hrenumbered with
    | nothing hstanding => exact .pure (.nothing trivial)
    | failed hstanding hhard =>
      obtain ⟨rfl, rfl⟩ := hstanding
      exact .pure (.failed (hcount 0 hfirst) hhard)
    | ok found =>
      cases found with
      | nil => exact .pure (.nothing trivial)
      | cons first others =>
        -- what a stage leaves is not blank, so the texts are good from here on
        refine @ih { place with stage := place.stage + 1 } { place' with stage := place'.stage + 1 } (fun i hi => ?_)
          (fun i hi => ?_) (fun texts hne hq => ?_) (first :: others) (List.cons_ne_nil _ _)
          fun _ t ht => hfilled t (hkept _ rfl t ht)
        · rw [Place.next_at, Place.next_at]
          exact hplaces (i + 1) (Nat.succ_lt_succ hi)
        · have hnext := hcount (i + 1) (Nat.succ_lt_succ hi)
          simpa only [Nat.add_assoc, Nat.add_comm 1] using hnext
        · rw [Place.next_at, Place.next_at]
          exact h texts hne hq

variable (files env Q) in
/-- **Stages without scripts that stand for others**: they leave the same of all texts that may reach them. -/
theorem runFrom_exchange {before within within' behind : List Stage} {input : String} (hfilled : ∀ t, Filled t → Q t)
    (hwithin : ∀ s ∈ within, s.IsPlain) (hwithin' : ∀ s ∈ within', s.IsPlain) (hne : within ≠ []) (hne' : within' ≠ [])
    (hlevel : ∀ texts, (∀ t ∈ texts, Q t) → level files env (within ++ behind) texts within.length =
      level files env (within' ++ behind) texts within'.length) (hinput : before = [] → Q input)
    (place : Place) :
    let k := place.stage + before.length
    Act.Corresponds (Exchanged place k within.length within'.length)
      (Renumbered (fun _ _ => True) (Matching k within.length within'.length))
      (run ⟨place, before ++ (within ++ behind)⟩ input) (run ⟨place, before ++ (within' ++ behind)⟩ input) := by
  intro k
  have hR : Faithful (Exchanged place k within.length within'.length) := exchanged_faithful place k _ _
  have hmore : within ++ behind ≠ [] := by simp [hne]
  have hmore' : within' ++ behind ≠ [] := by simp [hne']
  have hstages : (before ++ (within ++ behind)).isEmpty = false := by simp [hne]
  have hstages' : (before ++ (within' ++ behind)).isEmpty = false := by simp [hne']
  unfold run
  simp only [hstages, hstages', Bool.false_eq_true, if_false]
  refine runFrom_behind hR hfilled hmore hmore' (fun i hi => ?_) (fun i hi => ?_) (fun texts htexts hgood => ?_)
    (List.cons_ne_nil _ _) fun hempty => List.forall_mem_singleton.2 (hinput hempty)
  · exact ⟨_, _, rfl, rfl, .before (Nat.add_lt_add_left hi _)⟩
  · exact .before (Nat.add_lt_add_left hi _)
  · intro w w' hw
    obtain ⟨v, hv, hrun⟩ := runFrom_plain files env hwithin behind (place.at k) htexts w
    obtain ⟨v', hv', hrun'⟩ := runFrom_plain files env hwithin' behind (place.at k) htexts w'
    rw [← hlevel texts hgood] at hrun'
    have hworlds := hw.of_both hv hv'
    -- both leave the same texts, so either the stages behind get them in both chains or there are none in either
    rcases hrun with ⟨hleft, hrun⟩ | ⟨hleft, i, hrun⟩
    · rcases hrun' with ⟨-, hrun'⟩ | ⟨hleft', -⟩
      · rw [hrun, hrun']
        have hbehind : ∀ left : List String, Act.Corresponds (Exchanged place k within.length within'.length)
            (Renumbered (Counted (place.at (k + within.length)) (place.at (k + within'.length)))
              (Counted (place.at (k + within.length)) (place.at (k + within'.length))))
            (runFrom (place.at (k + within.length)) behind left)
            (runFrom (place.at (k + within'.length)) behind left) :=
          runFrom_corresponds hR fun d => ⟨_, _, rfl, rfl, .behind d⟩
        refine (hbehind _).mono (fun r r' hr => ?_) v v' hworlds
        refine hr.mono (fun _ _ _ => trivial) ?_
        rintro _ _ ⟨d, rfl, rfl⟩
        exact .behind d
      · exact absurd hleft' hleft
    · rcases hrun' with ⟨hleft', -⟩ | ⟨-, j, hrun'⟩
      · exact absurd hleft hleft'
      · rw [hrun, hrun']
        exact ⟨.nothing trivial, hworlds⟩

end

end Chain

/-! ## Filters -/

namespace Stage

/-- **A filter leaves those of several texts** that it lets pass and that are not blank. -/
theorem IsFilter.flatMap_survivors {s : Stage} (h : s.IsFilter) {last : Bool} (hlast : last = false ∨ ¬ s.GivesMatches)
    (texts : List String) :
    (texts.flatMap fun t => s.survivors files env last t) = texts.filter fun t => s.passes t && !Text.isBlank t := by
  induction texts with
  | nil => rfl
  | cons t rest ih => rw [List.flatMap_cons, ih, h.survivors_eq hlast, ← List.filter_append, List.singleton_append]

end Stage

namespace Chain

variable {f g : Stage} {behind : List Stage}

/-- **Two filters in another order** leave the same. -/
theorem level_swap (hf : f.IsFilter) (hg : g.IsFilter) (hbehind : behind ≠ []) (texts : List String) :
    level files env (f :: g :: behind) texts 2 = level files env (g :: f :: behind) texts 2 := by
  have hlast : behind.isEmpty = false := by simp [hbehind]
  simp only [level, level_zero, List.isEmpty_cons, hlast, hf.flatMap_survivors (.inl rfl),
    hg.flatMap_survivors (.inl rfl)]
  rw [List.filter_filter, List.filter_filter]
  exact List.filter_congr fun t _ => Bool.and_comm _ _

/-- **A filter that stands twice** leaves what it leaves once. -/
theorem level_twice (hf : f.IsFilter) (hbehind : behind ≠ [] ∨ ¬ f.GivesMatches) (texts : List String) :
    level files env (f :: behind) texts 1 = level files env (f :: f :: behind) texts 2 := by
  have hlast : behind.isEmpty = false ∨ ¬ f.GivesMatches := hbehind.imp_left fun hne => by simp [hne]
  simp only [level, level_zero, List.isEmpty_cons, hf.flatMap_survivors (.inl rfl), hf.flatMap_survivors hlast]
  rw [List.filter_filter]
  exact List.filter_congr fun t _ => (Bool.and_self _).symm

/-- a stage with values, and the same stage without them -/
inductive Valued (constants : List String) : Stage → Stage → Prop where
  | regex (p : Regex.Pattern) : Valued constants (.regex p constants) (.regex p [])
  | negated (p : Regex.Pattern) : Valued constants (.negated p constants) (.negated p [])

/-- what a stage with values leaves: the values that are not blank, if the stage without them lets the text pass -/
theorem Valued.survivors {constants : List String} {s bare : Stage} (h : Valued constants s bare) (hne : constants ≠ [])
    (last : Bool) (text : String) :
    s.survivors files env last text = if bare.passes text then constants.filter fun t => !Text.isBlank t else [] := by
  obtain ⟨first, rest, rfl⟩ := List.exists_cons_of_ne_nil hne
  cases h with
  | regex p =>
    have hanswer : (Stage.regex p (first :: rest)).answer files env last text =
        Stage.whenMatched (!(p.findAll text).isEmpty) "regex" (first :: rest) := rfl
    rw [Stage.survivors_of_answer hanswer, p.findAll_isEmpty, Bool.not_not]
    rfl
  | negated p =>
    have hanswer : (Stage.negated p (first :: rest)).answer files env last text =
        Stage.whenMatched (!p.isMatch text) "not" (first :: rest) := rfl
    exact Stage.survivors_of_answer hanswer

theorem Valued.isFilter {constants : List String} {s bare : Stage} (h : Valued constants s bare) : bare.IsFilter := by
  cases h <;> trivial

/-- **A stage apart from its values** leaves the same of texts that are not blank. -/
theorem level_apart {constants : List String} {s bare : Stage} (h : Valued constants s bare) (hne : constants ≠ [])
    {texts : List String} (htexts : ∀ t ∈ texts, Filled t) :
    level files env (s :: behind) texts 1 = level files env (bare :: .values constants :: behind) texts 2 := by
  simp only [level, level_zero, List.isEmpty_cons, h.survivors hne, h.isFilter.flatMap_survivors (.inl rfl)]
  induction texts with
  | nil => rfl
  | cons t rest ih =>
    obtain ⟨ht, hrest⟩ := List.forall_mem_cons.1 htexts
    have hblank : Text.isBlank t = false := ht
    rw [List.flatMap_cons, ih hrest]
    cases hpass : bare.passes t with
    | true =>
      rw [List.filter_cons_of_pos (by simp [hpass, hblank]), List.flatMap_cons]
      rfl
    | false => rw [List.filter_cons_of_neg (by simp [hpass])]; rfl

/-- **No blank text passes a filter**, so a chain that begins with one and goes on has no match for it. -/
theorem run_blank (hf : f.IsFilter) (hbehind : behind ≠ []) (place : Place) {input : String} (h : ¬ Filled input)
    (w : World) : Unmatched ((⟨place, f :: behind⟩ : Chain).run input w).1 := by
  have hlast : behind.isEmpty = false := by simp [hbehind]
  have hblank : Text.isBlank input = true := by simpa [Filled] using h
  have hlevel : level .emptyDir ⟨[]⟩ ([f] ++ behind) [input] [f].length = [] := by
    change level _ _ (f :: behind) [input] 1 = []
    simp only [level, level_zero, hlast, hf.flatMap_survivors (.inl rfl)]
    simp [hblank]
  have hrun : (⟨place, f :: behind⟩ : Chain).run input w = runFrom place ([f] ++ behind) [input] w := rfl
  obtain ⟨v, -, ⟨hleft, -⟩ | ⟨-, i, hgives⟩⟩ := runFrom_plain .emptyDir ⟨[]⟩
    (List.forall_mem_singleton.2 hf.isPlain) behind place (List.cons_ne_nil input []) w
  · exact absurd hlevel hleft
  · rw [hrun, hgives]
    exact ⟨_, rfl, rfl⟩

/-! ## Chains with other filters -/

/-- in worlds that correspond, two chains that are the same but for some stages give the same, or have no match, or fail
with the same error at stages that match -/
abbrev Interchangeable (place : Place) (k m m' : Nat) (stages stages' : List Stage) (input : String) : Prop :=
  Act.Corresponds (Exchanged place k m m') (Renumbered (fun _ _ => True) (Matching k m m'))
    (run ⟨place, stages⟩ input) (run ⟨place, stages'⟩ input)

section

variable (place : Place) (before : List Stage) (input : String)

theorem filters_swap (hf : f.IsFilter) (hg : g.IsFilter) (hbehind : behind ≠ []) :
    Interchangeable place (place.stage + before.length) 2 2 (before ++ f :: g :: behind) (before ++ g :: f :: behind)
      input := by
  have hplain : ∀ s ∈ [f, g], s.IsPlain :=
    List.forall_mem_cons.2 ⟨hf.isPlain, List.forall_mem_singleton.2 hg.isPlain⟩
  have hplain' : ∀ s ∈ [g, f], s.IsPlain :=
    List.forall_mem_cons.2 ⟨hg.isPlain, List.forall_mem_singleton.2 hf.isPlain⟩
  exact runFrom_exchange .emptyDir ⟨[]⟩ (fun _ => True) (fun _ _ => trivial) hplain hplain' (List.cons_ne_nil _ _)
    (List.cons_ne_nil _ _) (fun texts _ => level_swap hf hg hbehind texts) (fun _ => trivial) place

theorem filters_twice (hf : f.IsFilter) (hbehind : behind ≠ [] ∨ ¬ f.GivesMatches) :
    Interchangeable place (place.stage + before.length) 1 2 (before ++ f :: behind) (before ++ f :: f :: behind)
      input := by
  have hplain : ∀ s ∈ [f], s.IsPlain := List.forall_mem_singleton.2 hf.isPlain
  have hplain' : ∀ s ∈ [f, f], s.IsPlain := List.forall_mem_cons.2 ⟨hf.isPlain, hplain⟩
  exact runFrom_exchange .emptyDir ⟨[]⟩ (fun _ => True) (fun _ _ => trivial) hplain hplain' (List.cons_ne_nil _ _)
    (List.cons_ne_nil _ _) (fun texts _ => level_twice hf hbehind texts) (fun _ => trivial) place

/-- what reaches the stage is not blank: neither are the outputs of a stage, nor is the input if it is the first -/
theorem filters_apart {constants : List String} {s bare : Stage} (h : Valued constants s bare) (hne : constants ≠ [])
    (hinput : before = [] → Filled input) :
    Interchangeable place (place.stage + before.length) 1 2 (before ++ s :: behind)
      (before ++ bare :: .values constants :: behind) input := by
  have hplain : ∀ t ∈ [s], t.IsPlain := by
    refine List.forall_mem_singleton.2 ?_
    cases h <;> trivial
  have hplain' : ∀ t ∈ [bare, .values constants], t.IsPlain :=
    List.forall_mem_cons.2 ⟨h.isFilter.isPlain, List.forall_mem_singleton.2 trivial⟩
  exact runFrom_exchange .emptyDir ⟨[]⟩ Filled (fun _ ht => ht) hplain hplain' (List.cons_ne_nil _ _)
    (List.cons_ne_nil _ _) (fun _ htexts => level_apart h hne htexts) hinput place

end

/-- an entry without values and its stage -/
inductive Entry : StageSpec → Stage → Prop where
  | regex (p : Regex.Pattern) : Entry (.ofRegex p) (.regex p [])
  | negated (p : Regex.Pattern) : Entry (.ofNegated p) (.negated p [])

theorem Entry.compile {spec : StageSpec} {bare : Stage} (h : Entry spec bare) (env : Environment) (place : Place) :
    Chain.compile env place [spec] = .ok ⟨place, [bare]⟩ := by
  cases h <;> rfl

/-- an entry with values -/
theorem Entry.compile_withValues {spec : StageSpec} {bare : Stage} (h : Entry spec bare) {constants : List String}
    (hne : constants ≠ []) (env : Environment) (place : Place) :
    ∃ s, Valued constants s bare ∧ Chain.compile env place [spec.withValues constants] = .ok ⟨place, [s]⟩ := by
  obtain ⟨first, rest, rfl⟩ := List.exists_cons_of_ne_nil hne
  cases h with
  | regex p => exact ⟨_, .regex p, rfl⟩
  | negated p => exact ⟨_, .negated p, rfl⟩

theorem compile_ofValues {constants : List String} (hne : constants ≠ []) (env : Environment) (place : Place) :
    Chain.compile env place [.ofValues constants] = .ok ⟨place, [.values constants]⟩ := by
  obtain ⟨first, rest, rfl⟩ := List.exists_cons_of_ne_nil hne
  rfl

/-- **Filters may be reordered and fused.** Two filters may change places before the last stage, and a filter may stand
twice. An entry of a pattern with values may be taken apart into the pattern and the values: where it is not the first,
this changes nothing, and neither does it for an input that is not blank; but behind a pattern that stands first nothing
comes of a blank input. -/
theorem filters_rearrange (place : Place) :
    (∀ (before behind : List Stage) (f g : Stage) (input : String), f.IsFilter → g.IsFilter → behind ≠ [] →
      Interchangeable place (place.stage + before.length) 2 2 (before ++ f :: g :: behind)
        (before ++ g :: f :: behind) input) ∧
    (∀ (before behind : List Stage) (f : Stage) (input : String), f.IsFilter → (behind ≠ [] ∨ ¬ f.GivesMatches) →
      Interchangeable place (place.stage + before.length) 1 2 (before ++ f :: behind) (before ++ f :: f :: behind)
        input) ∧
    ∀ (env : Environment) (before behind : List StageSpec) (p : Regex.Pattern) (spec : StageSpec)
      (constants : List String) (c : Chain), spec = .ofRegex p ∨ spec = .ofNegated p → constants ≠ [] →
      Chain.compile env place (before ++ spec.withValues constants :: behind) = .ok c →
      ∃ c', Chain.compile env place (before ++ spec :: .ofValues constants :: behind) = .ok c' ∧
        (∀ input, (before = [] → Filled input) →
          Interchangeable place (place.stage + before.length) 1 2 c.stages c'.stages input) ∧
        (before = [] → ∀ input w, ¬ Filled input → Unmatched (c'.run input w).1) := by
  refine ⟨fun before behind f g input hf hg hbehind => filters_swap place before input hf hg hbehind,
    fun before behind f input hf hbehind => filters_twice place before input hf hbehind,
    fun env before behind p spec constants c hspec hne hc => ?_⟩
  obtain ⟨bare, hentry⟩ : ∃ bare, Entry spec bare := by
    rcases hspec with rfl | rfl
    · exact ⟨_, .regex p⟩
    · exact ⟨_, .negated p⟩
  obtain ⟨s, hvalued, hs⟩ := hentry.compile_withValues hne env place
  -- the stage of the entry is taken out of the chain, and the stages of the two entries are put in its place
  obtain ⟨first, others, hfirst, hothers, rfl⟩ := compile_split hc
  have hentries : compile env place ([spec.withValues constants] ++ behind) = .ok ⟨place, others⟩ := hothers
  obtain ⟨one, rest, hone, hrest, heq⟩ := compile_split hentries
  cases hs.symm.trans hone
  cases heq
  have hlength : first.length = before.length := compile_length hfirst
  have happart := compile_append (hentry.compile env place) (compile_append (compile_ofValues hne env place) hrest)
  refine ⟨_, compile_append hfirst happart, fun input hinput => ?_, fun hempty input w hblank => ?_⟩
  · rw [← hlength]
    refine filters_apart place first input hvalued hne fun hnone => hinput ?_
    rw [hnone] at hlength
    exact List.length_eq_zero_iff.1 hlength.symm
  · rw [hempty] at hlength
    rw [List.length_eq_zero_iff.1 hlength]
    exact run_blank hvalued.isFilter (List.cons_ne_nil _ _) place hblank w

/-- what comes of one chain comes of the other in the same world -/
theorem Interchangeable.outputs {place : Place} {k m m' : Nat} {stages stages' : List Stage} {input : String}
    (h : Interchangeable place k m m' stages stages' input) {w : World}
    (hw : World.Corresponds (Exchanged place k m m') w w) {texts : List String}
    (hrun : ((⟨place, stages⟩ : Chain).run input w).1 = .ok texts) :
    ((⟨place, stages'⟩ : Chain).run input w).1 = .ok texts := by
  obtain ⟨hgives, -⟩ := h w w hw
  rw [hrun] at hgives
  generalize ((⟨place, stages'⟩ : Chain).run input w).1 = r at hgives ⊢
  cases hgives
  rfl

/-- behind a value, two globs in both orders and one of them twice; in front of one, a pattern with values and apart
from them, of which a blank input has no match -/
theorem filters_rearrange_globs :
    let f : Stage := .glob ⟨"a*", [.char 'a', .star]⟩
    let g : Stage := .glob ⟨"*b", [.star, .char 'b']⟩
    let apart : Chain := ⟨{}, [.regex letterPattern [], .values ["v", "w"], .values ["k"]]⟩
    ((⟨{}, [.values ["ab", "b"], g, f, .values ["k"]]⟩ : Chain).run "x" {}).1 = .ok ["k"] ∧
      ((⟨{}, [.values ["ab", "b"], f, f]⟩ : Chain).run "x" {}).1 = .ok ["ab"] ∧
      Chain.compile ⟨[]⟩ {} [.ofRegex letterPattern, .ofValues ["v", "w"], .ofValues ["k"]] = .ok apart ∧
      (apart.run "ok" {}).1 = .ok ["k", "k"] ∧ Unmatched (apart.run " " {}).1 := by
  intro f g apart
  obtain ⟨hswap, htwice, hapart⟩ := filters_rearrange {}
  have hsame : ∀ k m m', World.Corresponds (Exchanged {} k m m') {} {} := fun _ _ _ => ⟨rfl, rfl, fun _ => rfl⟩
  have hswapped := hswap [.values ["ab", "b"]] [.values ["k"]] f g "x" trivial trivial (List.cons_ne_nil _ _)
  have hdoubled := htwice [.values ["ab", "b"]] [] f "x" trivial (.inr nofun)
  obtain ⟨c, hc, hgives, hblank⟩ := hapart ⟨[]⟩ [] [.ofValues ["k"]] letterPattern _ ["v", "w"]
    ⟨{}, [.regex letterPattern ["v", "w"], .values ["k"]]⟩ (.inl rfl) (List.cons_ne_nil _ _) rfl
  obtain rfl : apart = c := Except.ok.inj hc
  have hfilled : Filled "ok" := rfl
  have hempty : ¬ Filled " " := Bool.noConfusion
  refine ⟨hswapped.outputs (hsame _ _ _) rfl, hdoubled.outputs (hsame _ _ _) rfl, hc, ?_, ?_⟩
  · exact (hgives "ok" fun _ => hfilled).outputs (hsame _ _ _) rfl
  · exact hblank rfl " " {} hempty

end Chain

end Gleaner
