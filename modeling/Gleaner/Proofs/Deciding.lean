/-
Which normalizer decides.

Normalizers are tried in order, each in the world that those before it have left (`World.behind`). The first whose chain
gives anything else than that it has no match decides (`Decides`), and what stands behind it is not tried: put anything
else there, and the same comes out and the same world is left. If none decides, the text stays as it is.

A normalizer that is put between others moves those behind it by one, and their sessions with them (`Place.Pushed`).
If it is reached, has no match and leaves the files as they were, then the same one decides as before and only its
number is another (`Renamed`).

Results:
- `normalizeFrom_behind`, `normalizeFrom_decided`: one normalizer after the other;
- `decides_or_fits`: one decides, or none has a match;
- `normalizeFrom_corresponds`, `normalizeFrom_insert`: normalizers with other numbers;
- `first_match_decides`: all of it for any list.
-/
import Gleaner.Proofs.Correspondence
import Gleaner.Proofs.Duties
import Gleaner.Proofs.Kinds
import Gleaner.Proofs.Merging
import Gleaner.Proofs.Records
import Gleaner.Proofs.Scopes

namespace Gleaner

open Act

variable {input : String}

/-! ## Trying normalizers -/

/-- the world that is left when normalizers have been tried -/
def World.behind (input : String) (rules : List Normalizer) (w : World) : World :=
  rules.foldl (fun v n => (n.run input v).2) w

/-- no normalizer of a list has a match -/
def NoneFits (input : String) : List Normalizer → World → Prop
  | [], _ => True
  | n :: rest, w => Unmatched (n.chain.run input w).1 ∧ NoneFits input rest (n.run input w).2

/-- number `i` is the first normalizer whose chain gives anything else than that it has no match -/
structure Decides (rules : List Normalizer) (input : String) (w : World) (i : Nat) (n : Normalizer) : Prop where
  here : rules[i]? = some n
  before : NoneFits input (rules.take i) w
  fits : ¬ Unmatched (n.chain.run input (w.behind input (rules.take i))).1

/-- what comes of the result of the normalizer that decides -/
def Normalizer.verdict (n : Normalizer) (i : Nat) : MatchResult → Except MatchError (List Normalized)
  | .ok found => .ok (found.map fun text => ⟨some i, n.name, text⟩)
  | .error e => .error (.context (indexed "normalizer" i) (.context (labelled "named-matcher" n.name) e))

theorem MatchError.within_eq_context {e : MatchError} (h : e.isUnmatched = false) (place : String) :
    e.within place = .context place e := by
  cases e with
  | unmatched reason => cases h
  | _ => rfl

theorem Normalizer.run_result (n : Normalizer) (w : World) :
    (n.run input w).1 = Selection.located [labelled "named-matcher" n.name] (n.chain.run input w).1 := rfl

section

variable {n : Normalizer} {w : World} {i : Nat} {rest : List Normalizer}

/-- a normalizer without a match is passed over -/
theorem normalizeFrom_passed (h : Unmatched (n.chain.run input w).1) :
    normalizeFrom input i (n :: rest) w = normalizeFrom input (i + 1) rest (n.run input w).2 := by
  obtain ⟨e, he, hunmatched⟩ := h
  have hresult : (n.run input w).1 = .error (e.within (labelled "named-matcher" n.name)) := by
    rw [n.run_result, he]
    rfl
  rw [normalizeFrom, bind_run, hresult]
  simp only [e.isUnmatched_within, hunmatched, if_true]

/-- **A normalizer that does not lack a match** decides, whatever stands behind it. -/
theorem normalizeFrom_decided (h : ¬ Unmatched (n.chain.run input w).1) :
    normalizeFrom input i (n :: rest) w = (n.verdict i (n.chain.run input w).1, (n.run input w).2) := by
  rw [normalizeFrom, bind_run, n.run_result]
  cases hr : (n.chain.run input w).1 with
  | ok found => rfl
  | error e =>
    have hhard : e.isUnmatched = false := by
      rw [Bool.eq_false_iff]
      exact fun hunmatched => h ⟨e, hr, hunmatched⟩
    have hlabelled : (MatchError.context (labelled "named-matcher" n.name) e).isUnmatched = false := hhard
    have hlocated : Selection.located [labelled "named-matcher" n.name] (.error e : MatchResult) =
        .error (.context (labelled "named-matcher" n.name) e) :=
      congrArg Except.error (MatchError.within_eq_context hhard _)
    simp only [hlocated, hlabelled, MatchError.within_eq_context hlabelled]
    rfl

/-- normalizers without a match are passed over -/
theorem normalizeFrom_behind {before : List Normalizer} (h : NoneFits input before w) :
    normalizeFrom input i (before ++ rest) w =
      normalizeFrom input (i + before.length) rest (w.behind input before) := by
  induction before generalizing i w with
  | nil => rfl
  | cons m before ih =>
    obtain ⟨hunmatched, hbefore⟩ := h
    rw [List.cons_append, normalizeFrom_passed hunmatched, ih hbefore, List.length_cons, Nat.add_right_comm,
      Nat.add_assoc]
    rfl

end

section

variable {rules : List Normalizer} {w : World} {i : Nat} {n : Normalizer}

/-- some normalizer decides unless none has a match -/
theorem decides_or_fits (rules : List Normalizer) (input : String) (w : World) :
    (∃ i n, Decides rules input w i n) ∨ NoneFits input rules w := by
  induction rules generalizing w with
  | nil => exact .inr trivial
  | cons n rest ih =>
    by_cases hunmatched : Unmatched (n.chain.run input w).1
    · rcases ih (n.run input w).2 with ⟨i, m, hdecides⟩ | hnone
      · exact .inl ⟨i + 1, m, hdecides.here, ⟨hunmatched, hdecides.before⟩, hdecides.fits⟩
      · exact .inr ⟨hunmatched, hnone⟩
    · exact .inl ⟨0, n, rfl, trivial, hunmatched⟩

theorem Decides.normalize (h : Decides rules input w i n) :
    normalize rules input w = (n.verdict i (n.chain.run input (w.behind input (rules.take i))).1,
      (n.run input (w.behind input (rules.take i))).2) := by
  obtain ⟨hlt, hget⟩ := List.getElem?_eq_some_iff.1 h.here
  -- those before it are passed over, and it stands first in what is left
  have hrules : rules = rules.take i ++ n :: rules.drop (i + 1) := by
    rw [← hget, ← List.drop_eq_getElem_cons hlt, List.take_append_drop]
  rw [hrules, Gleaner.normalize, normalizeFrom_behind h.before, normalizeFrom_decided h.fits, ← hrules, Nat.zero_add,
    List.length_take_of_le hlt.le]

/-- **What stands behind the normalizer that decides** does not matter. -/
theorem Decides.regardless (h : Decides rules input w i n) (others : List Normalizer) :
    Gleaner.normalize (rules.take (i + 1) ++ others) input w = Gleaner.normalize rules input w := by
  have hlt : i < rules.length := (List.getElem?_eq_some_iff.1 h.here).1
  have hlength : i < (rules.take (i + 1)).length := by
    rw [List.length_take_of_le hlt]
    exact Nat.lt_succ_self i
  have htake : (rules.take (i + 1) ++ others).take i = rules.take i := by
    rw [List.take_append_of_le_length hlength.le, List.take_take, Nat.min_eq_left (Nat.le_succ i)]
  -- it has the same before it in the other list, and so it decides there too
  have hothers : Decides (rules.take (i + 1) ++ others) input w i n := by
    refine ⟨?_, htake ▸ h.before, htake ▸ h.fits⟩
    rw [List.getElem?_append_left hlength, List.getElem?_take_of_lt (Nat.lt_succ_self i)]
    exact h.here
  rw [hothers.normalize, h.normalize, htake]

/-- no normalizer decides, so the text stays as it is -/
theorem normalize_unmatched (h : ∀ i n, ¬ Decides rules input w i n) :
    normalize rules input w = (.ok [.identity input], w.behind input rules) := by
  rcases decides_or_fits rules input w with ⟨i, n, hdecides⟩ | hfits
  · exact absurd hdecides (h i n)
  · have hbehind : normalizeFrom input 0 (rules ++ []) w = _ := normalizeFrom_behind hfits
    rw [List.append_nil] at hbehind
    exact hbehind

end

/-! ## Normalizers with other numbers -/

/-- what is the same in both but for the numbers of normalizers, which `f` maps -/
inductive Renamed (f : Nat → Nat) :
    Except MatchError (List Normalized) → Except MatchError (List Normalized) → Prop where
  | ok (found : List Normalized) :
      Renamed f (.ok found) (.ok (found.map fun n => { n with index := n.index.map f }))
  | failed (i : Nat) (e : MatchError) :
      Renamed f (.error (.context (indexed "normalizer" i) e)) (.error (.context (indexed "normalizer" (f i)) e))

/-- a normalizer that stands elsewhere -/
structure Normalizer.Answers (R : Place → Place → Prop) (n n' : Normalizer) : Prop where
  name : n.name = n'.name
  stages : n.chain.stages = n'.chain.stages
  start : n.chain.place.stage = n'.chain.place.stage
  places : ∀ i, R (n.chain.place.at i) (n'.chain.place.at i)

section

variable {R : Place → Place → Prop} {n n' : Normalizer} {rules rules' : List Normalizer} {f : Nat → Nat}

theorem Normalizer.verdict_renamed (hname : n.name = n'.name) (i : Nat) (r : MatchResult) :
    Renamed f (n.verdict i r) (n'.verdict (f i) r) := by
  unfold verdict
  rw [hname]
  cases r with
  | ok found =>
    have hfound := Renamed.ok (f := f) (found.map fun text => ⟨some i, n'.name, text⟩)
    rw [List.map_map] at hfound
    exact hfound
  | error e => exact .failed i _

variable {w w' : World}

/-- in worlds that correspond both have the same result, and what they leave corresponds -/
theorem Normalizer.Answers.run (hR : Faithful R) (h : n.Answers R n') (hw : World.Corresponds R w w') :
    (n.chain.run input w).1 = (n'.chain.run input w').1 ∧
      World.Corresponds R (n.run input w).2 (n'.run input w').2 := by
  have hchain := Chain.run_corresponds hR h.stages h.start h.places input
  have hrun : Act.Corresponds R Eq (n.run input) (n'.run input) := by
    unfold Normalizer.run
    rw [h.name]
    exact Act.Corresponds.measure _ _ ((hchain.measure _ _).bind_eq fun r => .pure rfl)
  exact ⟨(hchain w w' hw).1, (hrun w w' hw).2⟩

/-- **Normalizers that stand elsewhere** give the same under other numbers. -/
theorem normalizeFrom_corresponds (hR : Faithful R) (h : List.Forall₂ (Normalizer.Answers R) rules rules') {k k' : Nat}
    (hf : ∀ d, f (k + d) = k' + d) :
    Act.Corresponds R (Renamed f) (normalizeFrom input k rules) (normalizeFrom input k' rules') := by
  induction h generalizing k k' with
  | nil => exact .pure (.ok _)
  | @cons n n' rest rest' hn _ ih =>
    intro w w' hw
    obtain ⟨hresult, hworld⟩ := hn.run hR hw
    by_cases hunmatched : Unmatched (n.chain.run input w).1
    · rw [normalizeFrom_passed hunmatched, normalizeFrom_passed (hresult ▸ hunmatched)]
      exact ih (fun d => by simpa only [Nat.add_assoc] using hf (1 + d)) _ _ hworld
    · rw [normalizeFrom_decided hunmatched, normalizeFrom_decided (hresult ▸ hunmatched), ← hresult]
      have hhere : k' = f k := (hf 0).symm
      rw [hhere]
      exact ⟨Normalizer.verdict_renamed hn.name k _, hworld⟩

/-- **A normalizer between others**, which no session of theirs belongs to: if it has no match when it is reached, and
leaves the files as they were, it only changes the numbers of those behind it. -/
theorem normalizeFrom_insert (hR : Faithful R) {first first' second second' : List Normalizer} {x : Normalizer}
    (hfirst : List.Forall₂ (Normalizer.Answers R) first first')
    (hsecond : List.Forall₂ (Normalizer.Answers R) second second') {k : Nat}
    (hbefore : ∀ d < first.length, f (k + d) = k + d)
    (hbehind : ∀ d, f (k + first.length + d) = k + first.length + 1 + d)
    (hleaves : Act.Leaves (fun place' => ∃ place, R place place') (x.run input)) (hw : World.Corresponds R w w')
    (hx : NoneFits input first' w' → Unmatched (x.chain.run input (w'.behind input first')).1 ∧
      (x.run input (w'.behind input first')).2.files = (w'.behind input first').files) :
    Renamed f (normalizeFrom input k (first ++ second) w).1 (normalizeFrom input k (first' ++ x :: second') w').1 ∧
      World.Corresponds R (normalizeFrom input k (first ++ second) w).2
        (normalizeFrom input k (first' ++ x :: second') w').2 := by
  induction hfirst generalizing k w w' with
  | nil =>
    -- the new one is reached, and the worlds still correspond behind it
    obtain ⟨hunmatched : Unmatched (x.chain.run input w').1, hfiles⟩ := hx trivial
    obtain ⟨henv, hheld⟩ := hleaves w'
    have hworld : World.Corresponds R w (x.run input w').2 :=
      ⟨hw.files.trans hfiles.symm, hw.env.trans henv.symm, fun {a a'} ha => (hw.held ha).trans (hheld a' ⟨a, ha⟩).symm⟩
    rw [List.nil_append, List.nil_append, normalizeFrom_passed hunmatched]
    exact normalizeFrom_corresponds hR hsecond hbehind _ _ hworld
  | @cons n n' rest rest' hn _ ih =>
    obtain ⟨hresult, hworld⟩ := hn.run hR hw
    rw [List.cons_append, List.cons_append]
    by_cases hunmatched : Unmatched (n.chain.run input w).1
    · rw [normalizeFrom_passed hunmatched, normalizeFrom_passed (hresult ▸ hunmatched)]
      refine ih (fun d hd => ?_) (fun d => ?_) hworld fun hrest => hx ⟨hresult ▸ hunmatched, hrest⟩
      · have hnext := hbefore (1 + d) (by rw [List.length_cons]; omega)
        rwa [← Nat.add_assoc] at hnext
      · have hnext := hbehind d
        rwa [List.length_cons, Nat.add_comm rest.length 1, ← Nat.add_assoc k] at hnext
    · -- one before it decides, and that keeps its number
      rw [normalizeFrom_decided hunmatched, normalizeFrom_decided (hresult ▸ hunmatched), ← hresult]
      have hhere : k = f k := (hbefore 0 (Nat.zero_lt_succ _)).symm
      have hverdict : Renamed f (n.verdict k (n.chain.run input w).1) (n'.verdict k (n.chain.run input w).1) := by
        nth_rewrite 2 [hhere]
        exact Normalizer.verdict_renamed hn.name k _
      exact ⟨hverdict, hworld⟩

end

/-! ## Normalizers put between others -/

/-- rules of a part from number `k` on stand one further -/
def Place.pushed (part : Part) (k : Nat) (a : Place) : Place :=
  if a.part = part ∧ k ≤ a.rule then { a with rule := a.rule + 1 } else a

/-- a place and where it is when a rule has been put in front of number `k` of a part -/
def Place.Pushed (part : Part) (k : Nat) (a a' : Place) : Prop := a' = a.pushed part k

/-- the new number of a rule -/
def shifted (k i : Nat) : Nat := if i < k then i else i + 1

namespace Place

variable {part : Part} {k : Nat}

theorem pushed_inj {a b : Place} : a.pushed part k = b.pushed part k ↔ a = b := by
  refine ⟨fun h => ?_, fun h => congrArg _ h⟩
  obtain ⟨p, r, s⟩ := a
  obtain ⟨p', r', s'⟩ := b
  unfold pushed at h
  grind

theorem pushed_faithful (part : Part) (k : Nat) : Faithful (Pushed part k) := by
  rintro a _ b _ rfl rfl
  exact pushed_inj.symm

/-- no place is pushed to where the new rule stands -/
theorem pushed_ne (a : Place) (stage : Nat) : a.pushed part k ≠ ⟨part, k, stage⟩ := by
  obtain ⟨p, r, s⟩ := a
  unfold pushed
  grind

end Place

section

variable {α β : Type} {what : String} {compile : Nat → α → Except ConfigError β}

/-- a list that is compiled twice, to stand at two places -/
theorem compileRules_forall₂ {Rel : β → β → Prop} {i j : Nat} {xs : List α} {found found' : List β}
    (hrel : ∀ d < xs.length, ∀ x r r', compile (i + d) x = .ok r → compile (j + d) x = .ok r' → Rel r r')
    (h : Selection.compileRules what compile i xs = .ok found)
    (h' : Selection.compileRules what compile j xs = .ok found') : List.Forall₂ Rel found found' := by
  induction xs generalizing i j found found' with
  | nil =>
    cases h
    cases h'
    exact .nil
  | cons x xs ih =>
    obtain ⟨r, hr, h⟩ := Pipeline.bind_eq_ok h
    obtain ⟨rest, hrest, h⟩ := Pipeline.bind_eq_ok h
    cases h
    obtain ⟨r', hr', h'⟩ := Pipeline.bind_eq_ok h'
    obtain ⟨rest', hrest', h'⟩ := Pipeline.bind_eq_ok h'
    cases h'
    refine .cons ?_ (ih (fun d hd y s s' hs hs' => ?_) hrest hrest')
    · exact hrel 0 (Nat.zero_lt_succ _) x r r' (Pipeline.foundAt_eq_ok hr) (Pipeline.foundAt_eq_ok hr')
    · rw [Nat.add_assoc, Nat.add_comm 1] at hs hs'
      exact hrel (d + 1) (Nat.succ_lt_succ hd) y s s' hs hs'

end

section

variable {env : Environment} {part : Part} {rule : NormalizerRule} {n n' : Normalizer}

/-- a normalizer that is compiled twice -/
theorem Normalizer.compile_answers {R : Place → Place → Prop} {i j : Nat}
    (h : Normalizer.compile env part i rule = .ok n)
    (h' : Normalizer.compile env part j rule = .ok n') (hR : ∀ stage, R ⟨part, i, stage⟩ ⟨part, j, stage⟩) :
    n.Answers R n' := by
  have hplace := Pipeline.normalizer_place h
  have hplace' := Pipeline.normalizer_place h'
  obtain ⟨c, hc, rfl⟩ := Pipeline.map_eq_ok h
  obtain ⟨c', hc', rfl⟩ := Pipeline.map_eq_ok h'
  obtain ⟨stages, hstages, rfl⟩ := Pipeline.map_eq_ok (Pipeline.foundAt_eq_ok hc)
  obtain ⟨stages', hstages', rfl⟩ := Pipeline.map_eq_ok (Pipeline.foundAt_eq_ok hc')
  cases hstages.symm.trans hstages'
  exact ⟨rfl, rfl, rfl, hR⟩

/-- **A normalizer that is put into a list** before it is compiled: those behind it stand one further. -/
theorem compileNormalizers_insert {before after : List NormalizerRule} {rules more : List Normalizer}
    (h : compileNormalizers env part (before ++ after) = .ok rules)
    (h' : compileNormalizers env part (before ++ rule :: after) = .ok more) :
    ∃ first first' x second second', rules = first ++ second ∧ more = first' ++ x :: second' ∧
      first.length = before.length ∧ first'.length = before.length ∧ x.chain.place = ⟨part, before.length, 0⟩ ∧
      List.Forall₂ (Normalizer.Answers (Place.Pushed part before.length)) first first' ∧
      List.Forall₂ (Normalizer.Answers (Place.Pushed part before.length)) second second' := by
  obtain ⟨first, second, hfirst, hsecond, rfl⟩ := compileRules_split h
  obtain ⟨first', others, hfirst', hothers, rfl⟩ := compileRules_split h'
  obtain ⟨x, hx, hothers⟩ := Pipeline.bind_eq_ok hothers
  obtain ⟨second', hsecond', hothers⟩ := Pipeline.bind_eq_ok hothers
  cases hothers
  rw [Nat.zero_add] at hsecond hx hsecond'
  refine ⟨first, first', x, second, second', rfl, rfl, compileRules_length hfirst, compileRules_length hfirst',
    Pipeline.normalizer_place (Pipeline.foundAt_eq_ok hx), ?_, ?_⟩
  · refine compileRules_forall₂ (fun d hd spec n n' hn hn' => Normalizer.compile_answers hn hn' fun stage => ?_)
      hfirst hfirst'
    have hkept : ¬ before.length ≤ d := Nat.not_le_of_lt hd
    simp [Place.Pushed, Place.pushed, hkept]
  · refine compileRules_forall₂ (fun d hd spec n n' hn hn' => Normalizer.compile_answers hn hn' fun stage => ?_)
      hsecond hsecond'
    simp [Place.Pushed, Place.pushed, Nat.add_right_comm]

end

/-! ## What lists of normalizers give -/

/-- number `k`, if it is reached, has no match and leaves the files as they were -/
def Idles (rules : List Normalizer) (input : String) (w : World) (k : Nat) : Prop :=
  ∀ x, rules[k]? = some x → NoneFits input (rules.take k) w →
    Unmatched (x.chain.run input (w.behind input (rules.take k))).1 ∧
      (x.run input (w.behind input (rules.take k))).2.files = (w.behind input (rules.take k)).files

theorem Normalized.json_of_rule (i : Nat) (name : String) {text : String} (h : Filled text) :
    (⟨some i, name, text⟩ : Normalized).json =
      .object (("index", .ofInt i) :: (if name = "" then [] else [("name", .string name)]) ++
        [("result", .string text)]) := by
  simp [json, Selection.ruleFields, number, h.isEmpty]

theorem Normalized.json_identity (input : String) :
    (identity input).json =
      .object (("index", .ofInt (-1)) :: if input = "" then [] else [("result", .string input)]) := by
  simp [json, Selection.ruleFields, number, identity]

/-- a normalizer that is put into a list and idles changes nothing but numbers -/
theorem normalize_insert {env : Environment} {part : Part} {before after : List NormalizerRule} {rule : NormalizerRule}
    {rules more : List Normalizer} {w w' : World} (h : compileNormalizers env part (before ++ after) = .ok rules)
    (h' : compileNormalizers env part (before ++ rule :: after) = .ok more)
    (hw : World.Corresponds (Place.Pushed part before.length) w w') (hidle : Idles more input w' before.length) :
    Renamed (shifted before.length) (normalize rules input w).1 (normalize more input w').1 ∧
      World.Corresponds (Place.Pushed part before.length) (normalize rules input w).2 (normalize more input w').2 := by
  obtain ⟨first, first', x, second, second', rfl, rfl, hlength, hlength', hplace, hfirst, hsecond⟩ :=
    compileNormalizers_insert h h'
  have hx := hidle x (by rw [← hlength', List.getElem?_append_right le_rfl, Nat.sub_self]; rfl)
  rw [← hlength', List.take_left] at hx
  -- the sessions of the others are never pushed to a place of the new one, so it does not touch them
  have hleaves : Act.Leaves (fun a' => ∃ a, Place.Pushed part before.length a a') (x.run input) := by
    refine Normalizer.run_closed (Act.Closed.leaves _) trivial trivial ?_
    refine Chain.run_closed (Act.Closed.leaves _) (fun _ => trivial) ?_ input
    rintro i s - text
    refine s.outputs_leaves ?_ text
    rintro ⟨a, ha⟩
    rw [hplace] at ha
    exact a.pushed_ne _ ha.symm
  refine normalizeFrom_insert (Place.pushed_faithful _ _) hfirst hsecond (fun d hd => ?_) (fun d => ?_) hleaves hw hx
  · rw [hlength] at hd
    simp [shifted, hd]
  · rw [hlength]
    simp [shifted, Nat.add_right_comm]

/-- **The first match decides.** The normalizer that decides gives all its outputs under its number and name, none of
them blank, or its failure; nothing that stands behind it makes a difference to what comes out or to the world. If none
decides, the text stays as it is. One that is put into the list and idles changes nothing but numbers. -/
theorem first_match_decides (rules : List Normalizer) (input : String) (w : World) :
    (∀ i n, Decides rules input w i n →
      let v := w.behind input (rules.take i)
      (∀ found, (n.chain.run input v).1 = .ok found → found ≠ [] ∧ (∀ text ∈ found, Filled text) ∧
        normalize rules input w = (.ok (found.map fun text => ⟨some i, n.name, text⟩), (n.run input v).2) ∧
        ∀ text ∈ found, (⟨some i, n.name, text⟩ : Normalized).json =
          .object (("index", .ofInt i) :: (if n.name = "" then [] else [("name", .string n.name)]) ++
            [("result", .string text)])) ∧
      (∀ e, (n.chain.run input v).1 = .error e → e.isUnmatched = false ∧
        normalize rules input w =
          (.error (.context (indexed "normalizer" i) (.context (labelled "named-matcher" n.name) e)),
            (n.run input v).2)) ∧
      ∀ others, normalize (rules.take (i + 1) ++ others) input w = normalize rules input w) ∧
    ((∀ i n, ¬ Decides rules input w i n) →
      normalize rules input w = (.ok [.identity input], w.behind input rules) ∧
        (Normalized.identity input).json =
          .object (("index", .ofInt (-1)) :: if input = "" then [] else [("result", .string input)])) ∧
    ∀ (env : Environment) (part : Part) (before : List NormalizerRule) (rule : NormalizerRule)
      (after : List NormalizerRule) (more : List Normalizer),
      compileNormalizers env part (before ++ after) = .ok rules →
      compileNormalizers env part (before ++ rule :: after) = .ok more →
      ∀ w', World.Corresponds (Place.Pushed part before.length) w w' → Idles more input w' before.length →
        Renamed (shifted before.length) (normalize rules input w).1 (normalize more input w').1 ∧
          World.Corresponds (Place.Pushed part before.length) (normalize rules input w).2
            (normalize more input w').2 := by
  refine ⟨fun i n hdecides => ⟨fun found hfound => ?_, fun e he => ?_, hdecides.regardless⟩,
    fun hnone => ⟨normalize_unmatched hnone, Normalized.json_identity input⟩,
    fun env part before rule after more hrules hmore w' hw hidle => normalize_insert hrules hmore hw hidle⟩
  · obtain ⟨hne, hfilled⟩ := n.chain.run_good input _ found hfound
    refine ⟨hne, hfilled, ?_, fun text htext => Normalized.json_of_rule i n.name (hfilled text htext)⟩
    rw [hdecides.normalize, hfound]
    rfl
  · refine ⟨?_, ?_⟩
    · rw [Bool.eq_false_iff]
      exact fun hunmatched => hdecides.fits ⟨e, he, hunmatched⟩
    · rw [hdecides.normalize, he]
      rfl

/-- the second of two normalizers decides, and it is the third when another one without a match is put between them -/
theorem first_match_decides_second :
    let specs : List NormalizerRule :=
      [{ name := "a", matcher := [.ofGlob "x"] }, { name := "b", matcher := [.ofValues ["k"]] }]
    let between : NormalizerRule := { name := "c", matcher := [.ofGlob "y"] }
    ∃ rules more, compileNormalizers ⟨[]⟩ .categoryNormalizer specs = .ok rules ∧
      compileNormalizers ⟨[]⟩ .categoryNormalizer [specs[0], between, specs[1]] = .ok more ∧
      (normalize rules "q" {}).1 = .ok [⟨some 1, "b", "k"⟩] ∧ (normalize more "q" {}).1 = .ok [⟨some 2, "b", "k"⟩] := by
  intro specs between
  let a : Normalizer := ⟨"a", ⟨{ part := .categoryNormalizer }, [.glob ⟨"x", [.char 'x']⟩]⟩⟩
  let b : Normalizer := ⟨"b", ⟨{ part := .categoryNormalizer, rule := 1 }, [.values ["k"]]⟩⟩
  let c : Normalizer := ⟨"c", ⟨{ part := .categoryNormalizer, rule := 1 }, [.glob ⟨"y", [.char 'y']⟩]⟩⟩
  have hrules : compileNormalizers ⟨[]⟩ .categoryNormalizer ([specs[0]] ++ [specs[1]]) = .ok [a, b] := rfl
  have hmore : compileNormalizers ⟨[]⟩ .categoryNormalizer ([specs[0]] ++ between :: [specs[1]]) =
      .ok [a, c, b.moved 1] := rfl
  obtain ⟨hdecided, -, hinserted⟩ := first_match_decides [a, b] "q" {}
  have ha : Unmatched (a.chain.run "q" {}).1 := ⟨_, rfl, rfl⟩
  have hb : ¬ Unmatched (b.chain.run "q" (a.run "q" {}).2).1 := by
    rintro ⟨e, he, -⟩
    cases he
  obtain ⟨hok, -⟩ := hdecided 1 b ⟨rfl, ⟨ha, trivial⟩, hb⟩
  obtain ⟨-, -, hresult, -⟩ := hok ["k"] rfl
  have hidle : Idles [a, c, b.moved 1] "q" {} 1 := by
    rintro _ ⟨⟩ -
    exact ⟨⟨_, rfl, rfl⟩, rfl⟩
  have hsame : World.Corresponds (Place.Pushed .categoryNormalizer 1) {} {} := ⟨rfl, rfl, fun _ => rfl⟩
  obtain ⟨hrenamed, -⟩ := hinserted _ _ _ _ _ _ hrules hmore {} hsame hidle
  rw [hresult] at hrenamed
  refine ⟨_, _, hrules, hmore, congrArg Prod.fst hresult, ?_⟩
  generalize (normalize [a, c, b.moved 1] "q" {}).1 = r at hrenamed ⊢
  cases hrenamed
  rfl

theorem eq_ok_of_toOption {ε α : Type} {r : Except ε α} {v : α} (h : r.toOption = some v) : r = .ok v := by
  cases r with
  | ok found => exact congrArg Except.ok (Option.some.inj h)
  | error e => cases h

/-- A normalizer without a match may empty a file that one behind it looks at: without the first the text is rewritten,
and with it the text stays as it is. -/
theorem inserted_empties_file :
    let after : NormalizerRule := { name := "b", matcher := [.ofShell "test -s x && echo k"] }
    let rule : NormalizerRule := { name := "a", matcher := [.ofShell ">x>x/y"] }
    let w : World := { files := .dir [("x", .file [111, 10])], env := ⟨[("PATH", "/usr/bin")]⟩ }
    ∃ x alone moved, compileNormalizers w.env .categoryNormalizer [after] = .ok [alone] ∧
      compileNormalizers w.env .categoryNormalizer [rule, after] = .ok [x, moved] ∧
      World.Corresponds (Place.Pushed .categoryNormalizer 0) w w ∧ Unmatched (x.chain.run "q" w).1 ∧
      (normalize [alone] "q" w).1 = .ok [⟨some 0, "b", "k"⟩] ∧
      ¬ Renamed (shifted 0) (normalize [alone] "q" w).1 (normalize [x, moved] "q" w).1 := by
  intro after rule w
  let x : Normalizer := ⟨"a", ⟨{ part := .categoryNormalizer }, [.shell { body := ">x>x/y" }]⟩⟩
  let alone : Normalizer := ⟨"b", ⟨{ part := .categoryNormalizer }, [.shell { body := "test -s x && echo k" }]⟩⟩
  have hunmatched : failureKind (x.chain.run "q" w).1 = some (true, false) := by decide +kernel
  have hmoved : (normalize [x, alone.moved 1] "q" w).1.toOption = some [.identity "q"] := by decide +kernel
  have hchain : (alone.chain.run "q" w).1 = .ok ["k"] := eq_ok_of_toOption (by decide +kernel)
  have halone : (normalize [alone] "q" w).1 = .ok [⟨some 0, "b", "k"⟩] := by
    have hfits : ¬ Unmatched (alone.chain.run "q" w).1 := by
      rw [hchain]
      rintro ⟨e, he, -⟩
      cases he
    rw [normalize, normalizeFrom_decided hfits, hchain]
    rfl
  refine ⟨x, alone, alone.moved 1, rfl, rfl, ⟨rfl, rfl, fun _ => rfl⟩, ?_, halone, fun hrenamed => ?_⟩
  · obtain ⟨e, he, hkind⟩ := exists_error_of_kind hunmatched
    exact ⟨e, he, congrArg Prod.fst hkind⟩
  · rw [halone] at hrenamed
    generalize (normalize [x, alone.moved 1] "q" w).1 = r at hmoved hrenamed
    cases hrenamed
    cases hmoved

end Gleaner
