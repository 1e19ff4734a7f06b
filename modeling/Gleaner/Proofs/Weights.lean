/-
What calls leave among the samples.

Rules measure their calls under names that begin in a way of their own (`Family`), and the stages of their chains are
measured within. How many calls are counted under a name is a weight of samples, and an action adds what the samples
that it takes weigh (`Act.Weighs`). Weights may be negative: two families are measured alike if the weight of the one
less that of the other stays what it was.

Results:
- `Family.calls_eq`: which calls are counted under a name;
- `countAt_table`: what a table counts is a weight;
- `Rates.selectCategories_weighs`, `Rates.selectNodes_weighs`, `Rates.normalize_weighs`: lists of rules.
-/
import Gleaner.Proofs.Selections
import Gleaner.Proofs.Tallies
import Gleaner.Proofs.Visits
import Mathlib.Algebra.BigOperators.Group.List.Basic

namespace Gleaner

/-! ## Names -/

/-- what is measured -/
inductive Family where
  | category
  | node
  | normalizer
  /-- the chains of normalizers -/
  | matcher
  | stage
  deriving DecidableEq

namespace Family

/-- what the keys of a family begin with -/
def tag : Family → String
  | category => "named-category-selector-"
  | node => "named-node-selector-"
  | normalizer => "named-normalizer-"
  | matcher => "named-matcher-"
  | stage => "matcher-"

/-- no two families share a key -/
theorem eq_of_tag {f g : Family} {x y : String} (h : f.tag ++ x = g.tag ++ y) : f = g := by
  have hchars := congrArg String.toList h
  rw [String.toList_append, String.toList_append] at hchars
  have hprefix := List.prefix_or_prefix_of_prefix ⟨_, hchars⟩ (List.prefix_append g.tag.toList y.toList)
  clear h hchars
  cases f <;> cases g <;> first | rfl | exact absurd hprefix (by decide)

theorem sanitizeKey_append (f : Family) (name : String) : sanitizeKey (f.tag ++ name) = f.tag ++ sanitizeKey name := by
  refine String.toList_inj.1 ?_
  have htag : f.tag.toList.map (fun c => if c = ' ' then '_' else c) = f.tag.toList := by cases f <;> decide
  simp only [sanitizeKey, String.toList_map, String.toList_append, List.map_append, htag]

/-- a sample counts for the calls of a family under a name -/
def calls (f : Family) (name : String) (outcome : Option CallEnd) (s : Sample) : ℤ :=
  if s.CountsFor (f.tag ++ name) outcome then 1 else 0

/-- **A call is counted** for its own family, under its own name, and as it ended. -/
theorem calls_eq (f g : Family) (name other : String) (outcome : Option CallEnd) (o : CallEnd) (micros : Nat) :
    f.calls name outcome ⟨g.tag ++ other, o, micros⟩ =
      if g = f ∧ sanitizeKey other = name ∧ (outcome = none ∨ outcome = some o) then 1 else 0 := by
  have hkey : sanitizeKey (g.tag ++ other) = f.tag ++ name ↔ g = f ∧ sanitizeKey other = name := by
    rw [sanitizeKey_append]
    constructor
    · intro h
      obtain rfl := eq_of_tag h
      exact ⟨rfl, (String.append_right_inj _).1 h⟩
    · rintro ⟨rfl, rfl⟩
      rfl
  simp only [calls, Sample.CountsFor, hkey, and_assoc]

end Family

/-! ## Weights -/

theorem sum_map_ite {α : Type} (P : α → Prop) [DecidablePred P] (xs : List α) :
    (xs.map fun x => if P x then (1 : ℤ) else 0).sum = xs.countP (fun x => P x) := by
  induction xs with
  | nil => rfl
  | cons x rest ih =>
    rw [List.map_cons, List.sum_cons, ih, List.countP_cons, Nat.cast_add, add_comm]
    by_cases hx : P x <;> simp [hx]

/-- what samples weigh together -/
def weight (φ : Sample → ℤ) (samples : List Sample) : ℤ := (samples.map φ).sum

theorem weight_cons (φ : Sample → ℤ) (s : Sample) (samples : List Sample) :
    weight φ (s :: samples) = φ s + weight φ samples := by
  rw [weight, List.map_cons, List.sum_cons, weight]

theorem weight_sub (φ ψ : Sample → ℤ) (samples : List Sample) :
    weight (fun s => φ s - ψ s) samples = weight φ samples - weight ψ samples := by
  induction samples with
  | nil => rfl
  | cons s rest ih =>
    rw [weight_cons, weight_cons, weight_cons, ih]
    ring

/-- **What a table counts** is a weight of the samples. -/
theorem countAt_table (w : World) (f : Family) (name : String) (outcome : Option CallEnd) :
    (countAt w.table (entryName (f.tag ++ name) outcome) : ℤ) = weight (f.calls name outcome) w.samples := by
  rw [World.table, countAt_tally, List.countP_reverse]
  exact (sum_map_ite _ _).symm

namespace Act

variable {α β ε : Type} {φ : Sample → ℤ} {k l : ℤ}

/-- the samples that an action takes weigh `k` together, in any world -/
def Weighs (φ : Sample → ℤ) (k : ℤ) (a : Act α) : Prop := ∀ w, weight φ (a w).2.samples = weight φ w.samples + k

theorem Weighs.bind {a : Act α} {f : α → Act β} (ha : Weighs φ k a) (hf : ∀ v, Weighs φ l (f v)) :
    Weighs φ (k + l) (a >>= f) := by
  intro w
  rw [bind_run, hf, ha, add_assoc]

/-- an action that takes no samples -/
theorem Weighs.nothing {a : Act α} (h : ∀ w, (a w).2.samples = w.samples) : Weighs φ 0 a := fun w => by
  rw [h, add_zero]

theorem Weighs.map (g : α → β) {a : Act α} (ha : Weighs φ k a) : Weighs φ k (do return g (← a)) := fun w => ha w

/-- a call that is measured, and weighs the same however it ends -/
theorem Weighs.measure {key : String} {a : Act (Except ε α)} (ha : Weighs φ 0 a) (hkey : ∀ o, φ ⟨key, o, 0⟩ = k) :
    Weighs φ k (Act.measure key a) := by
  intro w
  change weight φ (_ :: (a w).2.samples) = _
  rw [weight_cons, hkey, ha, add_zero, add_comm]

/-- nothing but what is measured weighs anything -/
theorem Seeing.weighs (φ : Sample → ℤ) : Seeing (fun key => ∀ o, φ ⟨key, o, 0⟩ = 0) (Weighs φ 0) where
  pure _ := .nothing fun _ => rfl
  bind ha hf := by simpa using ha.bind hf
  measure hkey ha := ha.measure hkey
  get _ hf w := hf w w
  warn _ := .nothing fun _ => rfl
  cancelled := .nothing fun _ => rfl
  readLines _ := .nothing fun _ => rfl

end Act

/-! ## Rules -/

open Act

/-- the stages of chains weigh nothing -/
def Stageless (φ : Sample → ℤ) : Prop := ∀ kind o, φ ⟨Family.stage.tag ++ kind, o, 0⟩ = 0

theorem Stage.outputs_weighs (s : Stage) (place : Place) (input : String) (φ : Sample → ℤ) :
    Weighs φ 0 (s.outputs place input) := by
  cases s with
  | shell script => exact .nothing fun _ => rfl
  | lua script => exact .nothing fun _ => rfl
  | _ => exact .nothing fun _ => rfl

variable {φ : Sample → ℤ} {k : ℤ}

theorem Chain.run_weighs (hφ : Stageless φ) (c : Chain) (input : String) : Weighs φ 0 (c.run input) :=
  run_closed (Seeing.weighs φ).toClosed hφ (fun _ s _ text => s.outputs_weighs _ text φ) input

theorem Walker.walk_weighs (hφ : Stageless φ) (w : Walker) : Weighs φ 0 w.walk :=
  walk_closed (.weighs φ) (w.ignore.run_weighs hφ)

/-- **A category rule** weighs what its own call weighs. -/
theorem CategorySelector.select_weighs (hφ : Stageless φ) {s : CategorySelector}
    (hkey : ∀ o, φ ⟨Family.category.tag ++ s.name, o, 0⟩ = k) (path : String) : Weighs φ k (s.select path) := by
  exact ((measured_closed (.weighs φ) (s.chain.run_weighs hφ) path).measure hkey).map _

/-- **A node rule** weighs what its own call weighs, whether or not its pattern matches. -/
theorem NodeSelector.select_weighs (hφ : Stageless φ) {s : NodeSelector}
    (hkey : ∀ o, φ ⟨Family.node.tag ++ s.name, o, 0⟩ = k) (category content : String) :
    Weighs φ k (s.select category content) := by
  refine Weighs.map _ (Weighs.measure ?_ hkey)
  split
  · exact (s.chain.run_weighs hφ content).map _
  · exact (Seeing.weighs φ).pure _

/-- **A normalizer** is measured twice, and both calls end alike. -/
theorem Normalizer.run_weighs (hφ : Stageless φ) {n : Normalizer}
    (hpair : ∀ o, φ ⟨Family.normalizer.tag ++ n.name, o, 0⟩ + φ ⟨Family.matcher.tag ++ n.name, o, 0⟩ = 0)
    (input : String) : Weighs φ 0 (n.run input) := by
  intro w
  have hrun : ∃ o, (n.run input w).2.samples = ⟨Family.normalizer.tag ++ n.name, o, 0⟩ ::
      ⟨Family.matcher.tag ++ n.name, o, 0⟩ :: (n.chain.run input w).2.samples := by
    unfold run Act.measure
    simp only [bind_run, pure_run]
    cases (n.chain.run input w).1 with
    | ok texts => exact ⟨.success, rfl⟩
    | error e => exact ⟨.failure, rfl⟩
  obtain ⟨o, hrun⟩ := hrun
  rw [hrun, weight_cons, weight_cons, ← add_assoc, hpair, zero_add]
  exact n.chain.run_weighs hφ input w

/-! ## Lists of rules -/

theorem Selection.selectAll_weighs {α : Type} {name : α → String} {select : α → Act MatchResult} {rules : List α}
    {share : α → ℤ} (h : ∀ rule ∈ rules, Weighs φ (share rule) (select rule)) (i : Nat) :
    Weighs φ (rules.map share).sum (selectAll name select i rules) := by
  induction rules generalizing i with
  | nil => exact .nothing fun _ => rfl
  | cons rule rest ih =>
    rw [List.map_cons, List.sum_cons]
    refine (h rule List.mem_cons_self).bind fun r => ?_
    exact (ih (fun rule hrule => h rule (List.mem_cons_of_mem _ hrule)) (i + 1)).map _

/-- what single calls weigh: those of category rules `c` and those of node rules `d`, by the names of the rules; the
two measurements of a normalizer cancel each other out -/
structure Rates (φ : Sample → ℤ) (c d : String → ℤ) : Prop where
  category : ∀ name o, φ ⟨Family.category.tag ++ name, o, 0⟩ = c name
  node : ∀ name o, φ ⟨Family.node.tag ++ name, o, 0⟩ = d name
  normalizer : ∀ name o, φ ⟨Family.normalizer.tag ++ name, o, 0⟩ + φ ⟨Family.matcher.tag ++ name, o, 0⟩ = 0
  stageless : Stageless φ

/-- what a call of a rule weighs if calls under a name are counted -/
def named (n : String) (name : String) : ℤ := if sanitizeKey name = n then 1 else 0

namespace Rates

/-- **Calls of category rules** under a name -/
theorem categories (n : String) : Rates (Family.category.calls n none) (named n) (fun _ => 0) where
  category name o := by simp [Family.calls_eq, named]
  node name o := by simp [Family.calls_eq]
  normalizer name o := by simp [Family.calls_eq]
  stageless name o := by simp [Family.calls_eq]

/-- **Calls of node rules** under a name -/
theorem nodes (n : String) : Rates (Family.node.calls n none) (fun _ => 0) (named n) where
  category name o := by simp [Family.calls_eq]
  node name o := by simp [Family.calls_eq, named]
  normalizer name o := by simp [Family.calls_eq]
  stageless name o := by simp [Family.calls_eq]

/-- **Calls of normalizers** under a name, less those of their chains -/
theorem normalizers (n : String) (outcome : Option CallEnd) :
    Rates (fun s => Family.normalizer.calls n outcome s - Family.matcher.calls n outcome s) (fun _ => 0)
      (fun _ => 0) where
  category name o := by simp [Family.calls_eq]
  node name o := by simp [Family.calls_eq]
  normalizer name o := by simp [Family.calls_eq]
  stageless name o := by simp [Family.calls_eq]

variable {c d : String → ℤ}

theorem selectCategories_weighs (h : Rates φ c d) (rules : List CategorySelector) (path : String) :
    Weighs φ (rules.map fun s => c s.name).sum (selectCategories rules path) :=
  Selection.selectAll_weighs (fun s _ => s.select_weighs h.stageless (h.category s.name) path) 0

theorem selectNodes_weighs (h : Rates φ c d) (rules : List NodeSelector) (category content : String) :
    Weighs φ (rules.map fun s => d s.name).sum (selectNodes rules category content) :=
  Selection.selectAll_weighs (fun s _ => s.select_weighs h.stageless (h.node s.name) category content) 0

theorem normalize_weighs (h : Rates φ c d) (rules : List Normalizer) (input : String) :
    Weighs φ 0 (normalize rules input) :=
  normalizeFrom_closed (Seeing.weighs φ).toClosed
    (fun n _ => n.run_weighs h.stageless (h.normalizer n.name) input) 0

end Rates

end Gleaner
