/-
Rules that are evaluated beside each other.

A list of rules is evaluated for an input in a round (`Round`): at any time any rule may do its next step, in the one
world they share, and the token may fire. When all have decided, their entries are put in the order of the rules
(`Round.entries`). Whatever turns they take, no rule is missing and each has either a failure or outputs
(`Accounted`). A rule sees of the others what they do to the files; as long as they do nothing to them, a twin of it can
come to the same by itself (`Round.Sparing`, `Round.projected`).

Results:
- `Selection.gather_accounted`: the entries of results that rules may decide;
- `Round.exists_moves`, `Round.moves_wellFounded`: a round goes on and comes to its end;
- `Round.entries_accounted`: the entries behind a round;
- `Round.exists_inOrder`: the rules may be evaluated one after the other;
- `Round.decided_alone`: what the only rule of a round decides;
- `Round.projected`: a rule among others.
-/
import Gleaner.Proofs.Courses
import Mathlib

namespace Gleaner

open Act Relation

/-! ## Entries of lists -/

/-- every rule of a list is accounted for: the entries are in the order of the rules, and those of each rule carry its
name and are one failure, or outputs none of which is blank -/
structure Accounted (names : List String) (found : List Selection) : Prop where
  rising : found.Pairwise fun a b => a.index ≤ b.index
  within : ∀ s ∈ found, s.index < names.length
  each : ∀ i name, names[i]? = some name →
    (∃ e, found.filter (·.index = i) = [⟨i, name, .error e⟩]) ∨
      ∃ texts, texts ≠ [] ∧ (∀ text ∈ texts, Filled text) ∧
        found.filter (·.index = i) = texts.map fun text => ⟨i, name, .ok text⟩

namespace Selection

theorem expand_index {i : Nat} {name : String} {r : MatchResult} : ∀ s ∈ expand i name r, s.index = i := by
  intro s hs
  cases r with
  | ok found =>
    obtain ⟨text, -, rfl⟩ := List.mem_map.1 hs
    rfl
  | error e => rw [List.mem_singleton.1 hs]

variable {α : Type} {name : α → String} {value : α → MatchResult}

theorem gather_index (k : Nat) (xs : List α) :
    ∀ s ∈ gather name value k xs, k ≤ s.index ∧ s.index < k + xs.length := by
  induction xs generalizing k with
  | nil => exact fun s hs => absurd hs List.not_mem_nil
  | cons x rest ih =>
    intro s hs
    rw [List.length_cons]
    rcases List.mem_append.1 hs with hs | hs
    · rw [expand_index s hs]
      omega
    · obtain ⟨hlow, hhigh⟩ := ih (k + 1) s hs
      omega

theorem gather_rising (k : Nat) (xs : List α) : (gather name value k xs).Pairwise fun a b => a.index ≤ b.index := by
  induction xs generalizing k with
  | nil => exact List.Pairwise.nil
  | cons x rest ih =>
    have hhere : (expand k (name x) (value x)).Pairwise fun a b => a.index ≤ b.index :=
      List.pairwise_of_forall_mem_list fun a ha b hb => by rw [expand_index a ha, expand_index b hb]
    refine List.pairwise_append.2 ⟨hhere, ih (k + 1), fun a ha b hb => ?_⟩
    rw [expand_index a ha]
    exact Nat.le_of_succ_le (gather_index (k + 1) rest b hb).1

/-- **The entries of one rule** among those of a list -/
theorem gather_filter (k : Nat) {xs : List α} {i : Nat} {x : α} (h : xs[i]? = some x) :
    (gather name value k xs).filter (·.index = k + i) = expand (k + i) (name x) (value x) := by
  induction xs generalizing k i with
  | nil => cases h
  | cons y rest ih =>
    rw [gather, List.filter_append]
    cases i with
    | zero =>
      obtain rfl : y = x := Option.some.inj h
      have hhere : (expand k (name y) (value y)).filter (·.index = k) = expand k (name y) (value y) :=
        List.filter_eq_self.2 fun s hs => by simpa using expand_index s hs
      have hrest : (gather name value (k + 1) rest).filter (·.index = k) = [] := by
        refine List.filter_eq_nil_iff.2 fun s hs => ?_
        have hlow := (gather_index (k + 1) rest s hs).1
        simp only [decide_eq_true_eq]
        omega
      rw [Nat.add_zero, hhere, hrest, List.append_nil]
    | succ i =>
      have hhere : (expand k (name y) (value y)).filter (·.index = k + (i + 1)) = [] := by
        refine List.filter_eq_nil_iff.2 fun s hs => ?_
        rw [decide_eq_true_eq, expand_index s hs]
        omega
      have hnext : k + (i + 1) = k + 1 + i := by omega
      rw [hhere, List.nil_append, hnext]
      exact ih (k + 1) h

/-- **The entries of results that rules may decide** account for every rule. -/
theorem gather_accounted {xs : List α} (h : ∀ x ∈ xs, Good (value x)) :
    Accounted (xs.map name) (gather name value 0 xs) where
  rising := gather_rising 0 xs
  within s hs := by
    have hhigh := (gather_index 0 xs s hs).2
    rwa [Nat.zero_add, ← List.length_map name] at hhigh
  each i label hlabel := by
    rw [List.getElem?_map] at hlabel
    obtain ⟨x, hx, rfl⟩ := Option.map_eq_some_iff.1 hlabel
    have hmine : (gather name value 0 xs).filter (·.index = 0 + i) = expand (0 + i) (name x) (value x) :=
      gather_filter 0 hx
    rw [Nat.zero_add] at hmine
    rw [hmine]
    have hgood := h x (List.mem_of_getElem? hx)
    cases hr : value x with
    | error e => exact .inl ⟨_, rfl⟩
    | ok found =>
      obtain ⟨hne, hfilled⟩ := hgood found hr
      exact .inr ⟨found, hne, hfilled, rfl⟩

end Selection

/-! ## Rounds -/

/-- rules that are evaluated beside each other -/
structure Round where
  /-- whether the token has fired -/
  fired : Bool
  world : World
  courses : List (Duty × Course)

namespace Round

/-- nothing has been done yet -/
def start (duties : List Duty) (w : World) (fired : Bool) : Round := ⟨fired, w, duties.map fun d => (d, .idle)⟩

/-- a step of one of the rules, or of none: then the token fires -/
inductive Step : Option Nat → Round → Round → Prop where
  | fire {m : Round} (h : m.fired = false) : Step none m { m with fired := true }
  | rule {m : Round} {i : Nat} {d : Duty} {c c' : Course} {w : World} (h : m.courses[i]? = some (d, c))
      (hstep : c.Steps d m.fired m.world c' w) :
      Step (some i) m { m with world := w, courses := m.courses.set i (d, c') }

/-- a step of any rule, or the token fires -/
def Moves (m m' : Round) : Prop := ∃ who, Step who m m'

/-- a step in which no rule but one changes the files -/
def Sparing (i : Nat) (m m' : Round) : Prop := ∃ who, Step who m m' ∧ (who = some i ∨ m'.world.files = m.world.files)

/-- all rules have decided -/
def Decided (m : Round) (found : List (Duty × MatchResult)) : Prop :=
  m.courses = found.map fun x => (x.1, .decided x.2)

/-- the entries of rules that have all decided -/
def entries (found : List (Duty × MatchResult)) : List Selection :=
  Selection.gather (fun x => x.1.name) (fun x => x.1.report x.2) 0 found

variable {duties : List Duty} {m m' : Round} {who : Option Nat} {w : World} {fired fired' : Bool} {i : Nat} {d : Duty}

/-! ### Rounds go on and come to their end -/

theorem decided_or_not (courses : List (Duty × Course)) :
    (∃ found : List (Duty × MatchResult), courses = found.map fun x => (x.1, .decided x.2)) ∨
      ∃ (i : Nat) (d : Duty) (c : Course), courses[i]? = some (d, c) ∧ c.isDecided = false := by
  induction courses with
  | nil => exact .inl ⟨[], rfl⟩
  | cons x rest ih =>
    obtain ⟨d, c⟩ := x
    cases hdecided : c.isDecided with
    | false => exact .inr ⟨0, d, c, rfl, hdecided⟩
    | true =>
      obtain ⟨r, rfl⟩ := Course.eq_decided hdecided
      rcases ih with ⟨found, rfl⟩ | ⟨i, d', c, hi, hc⟩
      · exact .inl ⟨(d, r) :: found, rfl⟩
      · exact .inr ⟨i + 1, d', c, hi, hc⟩

/-- **A round goes on until all rules have decided**, whether or not the token fires. -/
theorem exists_moves (m : Round) : (∃ found, m.Decided found) ∨ ∃ m', Moves m m' ∧ m'.fired = m.fired := by
  rcases decided_or_not m.courses with hdecided | ⟨i, d, c, hi, hc⟩
  · exact .inl hdecided
  · obtain ⟨c', w, hstep⟩ := Course.exists_steps d m.fired m.world hc
    exact .inr ⟨_, ⟨some i, .rule hi hstep⟩, rfl⟩

/-- whether the token can fire, and what is left to do for each rule -/
def rank (m : Round) : Nat × List (Nat ×ₗ Nat ×ₗ Nat ×ₗ Nat ×ₗ Nat) :=
  (if m.fired then 0 else 1, m.courses.map fun x => x.2.rank)

theorem shortlex_set {courses : List (Duty × Course)} {c c' : Course} (h : courses[i]? = some (d, c))
    (hrank : c'.rank < c.rank) :
    List.Shortlex (· < ·) ((courses.set i (d, c')).map fun x => x.2.rank) (courses.map fun x => x.2.rank) := by
  obtain ⟨hi, hget⟩ := List.getElem?_eq_some_iff.1 h
  have hsplit : courses = courses.take i ++ (d, c) :: courses.drop (i + 1) := by
    rw [← hget, List.cons_getElem_drop_succ, List.take_append_drop]
  have hset : courses.set i (d, c') = courses.take i ++ (d, c') :: courses.drop (i + 1) := by
    rw [List.set_eq_take_append_cons_drop, if_pos hi]
  have hlex : List.Lex (· < ·) ((d, c') :: courses.drop (i + 1) |>.map fun x => x.2.rank)
      ((d, c) :: courses.drop (i + 1) |>.map fun x => x.2.rank) := .rel hrank
  have hshort := (List.Shortlex.of_lex (by simp) hlex).append_left ((courses.take i).map fun x => x.2.rank)
  rw [hset]
  conv_rhs => rw [hsplit]
  rw [List.map_append, List.map_append]
  exact hshort

/-- **No round goes on forever**, whatever turns the rules take. -/
theorem moves_wellFounded : WellFounded fun m' m : Round => Moves m m' := by
  have hwf : WellFounded (Prod.Lex (· < ·) (List.Shortlex (· < ·)) :
      Nat × List (Nat ×ₗ Nat ×ₗ Nat ×ₗ Nat ×ₗ Nat) → _ → Prop) :=
    WellFounded.prod_lex wellFounded_lt (List.Shortlex.wf wellFounded_lt)
  -- the token fires once, and a step of a rule lowers its rank and no other
  refine Subrelation.wf (fun {m' m} h => ?_) (InvImage.wf rank hwf)
  obtain ⟨who, hstep⟩ := h
  cases hstep with
  | fire hdown =>
    refine Prod.Lex.left _ _ ?_
    simp [hdown]
  | rule h hstep => exact Prod.Lex.right _ (shortlex_set h hstep.rank_lt)

/-! ### What comes out -/

/-- the invariant of a round: the rules are those of the list, each on its way to something that it may decide -/
structure Sound (duties : List Duty) (m : Round) : Prop where
  duties : m.courses.map Prod.fst = duties
  proper : ∀ x ∈ m.courses, x.2.Proper x.1

theorem Sound.start (duties : List Duty) (w : World) (fired : Bool) : Sound duties (start duties w fired) where
  duties := by simp [Round.start, Function.comp_def]
  proper x hx := by
    obtain ⟨d, -, rfl⟩ := List.mem_map.1 hx
    trivial

theorem Step.sound (h : Step who m m') (hm : Sound duties m) : Sound duties m' := by
  cases h with
  | fire hdown => exact ⟨hm.duties, hm.proper⟩
  | @rule m i d c c' w hi hstep =>
    refine ⟨?_, fun x hx => ?_⟩
    · have hfst : (m.courses.map Prod.fst)[i]? = some d := by rw [List.getElem?_map, hi, Option.map_some]
      obtain ⟨hlt, hget⟩ := List.getElem?_eq_some_iff.1 hfst
      rw [← hm.duties, List.map_set, ← hget, List.set_getElem_self]
    · rcases List.mem_or_eq_of_mem_set hx with hx | rfl
      · exact hm.proper x hx
      · exact hstep.proper (hm.proper (d, c) (List.mem_of_getElem? hi))

theorem Sound.of_reachable (hm : Sound duties m) (h : ReflTransGen Moves m m') : Sound duties m' := by
  induction h with
  | refl => exact hm
  | tail _ hmove ih =>
    obtain ⟨who, hstep⟩ := hmove
    exact hstep.sound ih

theorem Sound.found {found : List (Duty × MatchResult)} (hm : Sound duties m) (hdecided : m.Decided found) :
    found.map Prod.fst = duties ∧ ∀ x ∈ found, Good x.2 := by
  constructor
  · rw [← hm.duties, hdecided, List.map_map]
    rfl
  · intro x hx
    exact hm.proper (x.1, .decided x.2) (hdecided ▸ List.mem_map.2 ⟨x, hx, rfl⟩)

/-- **Every rule is accounted for** when all have decided, whatever turns they have taken. -/
theorem entries_accounted {found : List (Duty × MatchResult)} (h : ReflTransGen Moves (start duties w fired) m)
    (hdecided : m.Decided found) : Accounted (duties.map Duty.name) (entries found) := by
  obtain ⟨hduties, hgood⟩ := ((Sound.start duties w fired).of_reachable h).found hdecided
  have hnames : duties.map Duty.name = found.map fun x => x.1.name := by
    rw [← hduties, List.map_map]
    rfl
  rw [hnames]
  exact Selection.gather_accounted fun x hx => (hgood x hx).located x.1.places

/-! ### One rule after the other -/

/-- does all duties in order -/
def inOrder : List Duty → Act (List (Duty × MatchResult))
  | [] => return []
  | d :: rest => do
    let r ← d.run
    return (d, r) :: (← inOrder rest)

/-- the steps of one rule while the others wait -/
theorem alone (front rest : List (Duty × Course)) {c c' : Course} {w' : World}
    (h : ReflTransGen (fun x y : Course × World => x.1.Steps d false x.2 y.1 y.2) (c, w) (c', w')) :
    ReflTransGen Moves ⟨false, w, front ++ (d, c) :: rest⟩ ⟨false, w', front ++ (d, c') :: rest⟩ := by
  refine ReflTransGen.lift (fun x : Course × World => (⟨false, x.2, front ++ (d, x.1) :: rest⟩ : Round)) ?_ _ _ h
  rintro ⟨c, w⟩ ⟨c', w'⟩ hstep
  have hi : (front ++ (d, c) :: rest)[front.length]? = some (d, c) := by simp
  have hset : (front ++ (d, c) :: rest).set front.length (d, c') = front ++ (d, c') :: rest := by simp
  have hmove : Step (some front.length) ⟨false, w, front ++ (d, c) :: rest⟩
      ⟨false, w', (front ++ (d, c) :: rest).set front.length (d, c')⟩ := .rule hi hstep
  rw [hset] at hmove
  exact ⟨_, hmove⟩

theorem exists_inOrder_from (front : List (Duty × Course)) (duties : List Duty) (w : World) :
    ReflTransGen Moves ⟨false, w, front ++ duties.map fun d => (d, .idle)⟩
      ⟨false, (inOrder duties w).2, front ++ (inOrder duties w).1.map fun x => (x.1, .decided x.2)⟩ := by
  induction duties generalizing front w with
  | nil => exact .refl
  | cons d rest ih =>
    have hcarries : Course.idle.Carries false [] := trivial
    obtain ⟨r, w', hsteps, hr⟩ := Course.exists_decided d hcarries w
    have hrun : d.run w = (r, w') := hr
    have hfirst := alone front (rest.map fun d => (d, .idle)) hsteps
    have hothers := ih (front ++ [(d, .decided r)]) w'
    rw [List.append_assoc, List.append_assoc] at hothers
    have hall : inOrder (d :: rest) w = ((d, r) :: (inOrder rest w').1, (inOrder rest w').2) := by
      simp only [inOrder, Act.bind_run, Act.pure_run, hrun]
    rw [hall]
    exact hfirst.trans hothers

/-- **The rules may decide one after the other**: one of the ways that a round can take. -/
theorem exists_inOrder (duties : List Duty) (w : World) :
    ∃ m, ReflTransGen Moves (start duties w false) m ∧ m.Decided (inOrder duties w).1 ∧ m.fired = false ∧
      m.world = (inOrder duties w).2 :=
  ⟨_, exists_inOrder_from [] duties w, rfl, rfl, rfl⟩

/-! ### A rule by itself -/

/-- **The only rule of a round** decides what it gives, or the token has cut it short. -/
theorem decided_alone {w' : World} {r : MatchResult}
    (h : ReflTransGen Moves (start [d] w fired) ⟨fired', w', [(d, .decided r)]⟩) :
    (r, w') = d.run w ∨ fired' = true ∧ IsCutResult r := by
  have hheads : ∀ m, ReflTransGen Moves (start [d] w fired) m →
      ∃ c, m.courses = [(d, c)] ∧ c.Heads d m.fired (d.run w) m.world := by
    intro m hreach
    induction hreach with
    | refl => exact ⟨.idle, rfl, .start d fired w⟩
    | tail _ hmove ih =>
      obtain ⟨c, hcourses, hheads⟩ := ih
      obtain ⟨who, hstep⟩ := hmove
      cases hstep with
      | fire hdown => exact ⟨c, hcourses, hheads.fire⟩
      | @rule m i e c₁ c₂ v hi hstep =>
        rw [hcourses] at hi
        cases i with
        | zero =>
          cases hi
          exact ⟨c₂, by rw [hcourses]; rfl, hheads.step hstep⟩
        | succ i => cases hi
  obtain ⟨c, hcourses, hc⟩ := hheads _ h
  cases hcourses
  exact hc.decided

/-! ### A rule among others -/

/-- the chains of different rules have different numbers -/
def Apart (duties : List Duty) : Prop :=
  ∀ (i j : Nat) (d e : Duty), i ≠ j → duties[i]? = some d → duties[j]? = some e →
    ∀ k l, d.chain.place.at k ≠ e.chain.place.at l

/-- the invariant of one rule among others: a twin of it can come as far by itself -/
structure Shadowed (duties : List Duty) (i : Nat) (d d' : Duty) (lone : Round) (m : Round) : Prop
    extends Sound duties m where
  course : ∃ c v, m.courses[i]? = some (d, c) ∧ Twins d.chain.place d'.chain.place m.world v ∧
    ReflTransGen Moves lone ⟨m.fired, v, [(d', c.beside d'.chain.place)]⟩

variable {d' : Duty} {lone : Round}

/-- **A step that leaves the files to a rule** is followed by its twin. -/
theorem Sparing.shadowed (hapart : Apart duties) (hmoved : d.Moved d') (h : Sparing i m m')
    (hm : Shadowed duties i d d' lone m) : Shadowed duties i d d' lone m' := by
  obtain ⟨who, hstep, hspare⟩ := h
  refine ⟨hstep.sound hm.toSound, ?_⟩
  obtain ⟨c, v, hi, htwins, hlone⟩ := hm.course
  cases hstep with
  | fire hdown => exact ⟨c, v, hi, htwins, hlone.tail ⟨none, .fire hdown⟩⟩
  | @rule m j e c₁ c₂ w hj hstep =>
    by_cases hij : j = i
    -- its own step is done by the twin, too
    · subst hij
      cases hi.symm.trans hj
      obtain ⟨v', htwin, htwins'⟩ := hstep.twinned hmoved (hm.proper _ (List.mem_of_getElem? hi)) htwins
      refine ⟨c₂, v', List.getElem?_set_self (List.getElem?_eq_some_iff.1 hi).1, htwins', hlone.tail ⟨some 0, ?_⟩⟩
      exact .rule rfl htwin
    -- another rule can change the files only, and leaves them: the twin waits
    · refine ⟨c, v, ?_, ?_, hlone⟩
      · simp only [List.getElem?_set_ne hij, hi]
      · have hfiles : w.files = m.world.files := hspare.resolve_left fun h => hij (Option.some.inj h)
        have hd : duties[i]? = some d := by rw [← hm.duties, List.getElem?_map, hi, Option.map_some]
        have he : duties[j]? = some e := by rw [← hm.duties, List.getElem?_map, hj, Option.map_some]
        obtain ⟨henv, hheld⟩ := hstep.away (hapart j i e d hij he hd) (hm.proper _ (List.mem_of_getElem? hj))
        exact ⟨hfiles.trans htwins.files, henv.trans htwins.env, fun k => (hheld k).trans (htwins.held k)⟩

theorem Shadowed.of_reachable (hapart : Apart duties) (hmoved : d.Moved d') (hm : Shadowed duties i d d' lone m)
    (h : ReflTransGen (Sparing i) m m') : Shadowed duties i d d' lone m' := by
  induction h with
  | refl => exact hm
  | tail _ hstep ih => exact hstep.shadowed hapart hmoved ih

/-- rules whose stages leave the files alone, which those are that run no script, leave them to a rule -/
theorem sparing_of_still (hstill : ∀ j e, j ≠ i → duties[j]? = some e → ∀ s ∈ e.chain.stages, s.Still)
    (h : ReflTransGen Moves (start duties w fired) m) : ReflTransGen (Sparing i) (start duties w fired) m := by
  induction h with
  | refl => exact .refl
  | @tail m₁ m₂ hreach hmove ih =>
    obtain ⟨who, hstep⟩ := hmove
    have hm := (Sound.start duties w fired).of_reachable hreach
    refine ih.tail ⟨who, hstep, ?_⟩
    cases hstep with
    | fire hdown => exact .inr rfl
    | @rule m j e c₁ c₂ v hj hstep =>
      by_cases hij : j = i
      · exact .inl (congrArg some hij)
      · have he : duties[j]? = some e := by rw [← hm.duties, List.getElem?_map, hj, Option.map_some]
        exact .inr (hstep.still (hstill j e hij he) (hm.proper _ (List.mem_of_getElem? hj)))

/-- **A rule among others** that do nothing to the files: its twin can come to the same result by itself, and to a world
that is the same as far as the rule can see it. -/
theorem projected {found : List (Duty × MatchResult)} {w' : World} (hapart : Apart duties) (hd : duties[i]? = some d)
    (hmoved : d.Moved d') (htwins : Twins d.chain.place d'.chain.place w w')
    (h : ReflTransGen (Sparing i) (start duties w fired) m) (hdecided : m.Decided found) :
    ∃ r v, (entries found).filter (·.index = i) = Selection.expand i d.name (d.report r) ∧
      Twins d.chain.place d'.chain.place m.world v ∧
      ReflTransGen Moves (start [d'] w' fired) ⟨m.fired, v, [(d', .decided r)]⟩ := by
  have hstart : Shadowed duties i d d' (start [d'] w' fired) (start duties w fired) := by
    refine ⟨.start duties w fired, .idle, w', ?_, htwins, .refl⟩
    rw [start, List.getElem?_map, hd, Option.map_some]
  obtain ⟨c, v, hi, hworld, hlone⟩ := (hstart.of_reachable hapart hmoved h).course
  rw [hdecided, List.getElem?_map] at hi
  obtain ⟨⟨e, r⟩, hx, hc⟩ := Option.map_eq_some_iff.1 hi
  cases hc
  have hmine : (entries found).filter (·.index = 0 + i) = Selection.expand (0 + i) e.name (e.report r) :=
    Selection.gather_filter 0 hx
  rw [Nat.zero_add] at hmine
  exact ⟨r, v, hmine, hworld, hlone⟩

end Round

end Gleaner
