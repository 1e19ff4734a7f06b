/-
What one rule sees of a world.

The stages of a chain stand beside each other, under the number of their rule. They see the files and the variables,
and the sessions that are kept at their places, and nothing else. So a stage of one and the same chain that stands at
two places does the same in two worlds that are twins to it (`Twins`): their files and variables are the same, and what
the one keeps for a stage at the first place the other keeps for it at the second (`Act.Twinned`). A stage with another
number changes nothing of this but the files (`Act.Away`).

Results:
- `Stage.apply_twinned`: a stage at two places;
- `Stage.outputs_away`: a stage of another rule.
-/
import Gleaner.Proofs.Correspondence
import Gleaner.Proofs.Scopes

namespace Gleaner

/-! ## Twin worlds -/

/-- two worlds are the same to a rule that stands at `p` in the one and at `p'` in the other -/
structure Twins (p p' : Place) (w w' : World) : Prop where
  files : w.files = w'.files
  env : w.env = w'.env
  held : ∀ i, w.held (p.at i) = w'.held (p'.at i)

variable {p p' : Place} {w w' : World}

/-- no session is kept in a fresh world -/
theorem Twins.fresh (p p' : Place) (files : FileNode) (env : Environment) :
    Twins p p' (World.fresh files env) (World.fresh files env) := ⟨rfl, rfl, fun _ => rfl⟩

/-- twins correspond, the stages beside `p` answering to those beside `p'` -/
theorem twins_iff : Twins p p' w w' ↔ World.Corresponds (p.Beside p') w w' := by
  constructor
  · intro h
    refine ⟨h.files, h.env, ?_⟩
    rintro _ _ ⟨i, rfl, rfl⟩
    exact h.held i
  · intro h
    exact ⟨h.files, h.env, fun i => h.held ⟨i, rfl, rfl⟩⟩

/-! ## Actions -/

namespace Act

variable {α β ε : Type}

/-- an action does in a world what another one does in its twin -/
def Twinned (p p' : Place) (a a' : Act α) : Prop :=
  ∀ w w', Twins p p' w w' → (a w).1 = (a' w').1 ∧ Twins p p' (a w).2 (a' w').2

/-- an action changes nothing for the stages that stand beside a place but the files -/
def Away (p : Place) (a : Act α) : Prop := ∀ w, (a w).2.env = w.env ∧ ∀ i, (a w).2.held (p.at i) = w.held (p.at i)

theorem Corresponds.twinned {a a' : Act α} (h : Corresponds (p.Beside p') Eq a a') : Twinned p p' a a' := by
  intro w w' hw
  obtain ⟨hresult, hworld⟩ := h w w' (twins_iff.1 hw)
  exact ⟨hresult, twins_iff.2 hworld⟩

/-- samples are not seen -/
theorem Twinned.measure (key : String) {a a' : Act (Except ε α)} (ha : Twinned p p' a a') :
    Twinned p p' (Act.measure key a) (Act.measure key a') := by
  intro w w' hw
  obtain ⟨hresult, hworld⟩ := ha w w' hw
  exact ⟨hresult, hworld.files, hworld.env, hworld.held⟩

theorem away_iff {a : Act α} : Away p a ↔ Leaves (fun place => ∃ i, place = p.at i) a := by
  constructor
  · rintro h w
    refine ⟨(h w).1, ?_⟩
    rintro _ ⟨i, rfl⟩
    exact (h w).2 i
  · intro h w
    exact ⟨(h w).1, fun i => (h w).2 _ ⟨i, rfl⟩⟩

theorem Closed.away (p : Place) : Closed (fun _ => True) (Away p) where
  pure v := away_iff.2 (.pure v)
  bind ha hf := away_iff.2 ((away_iff.1 ha).bind fun v => away_iff.1 (hf v))
  measure _ ha := away_iff.2 ((away_iff.1 ha).measure _)

end Act

open Act

/-! ## Stages -/

namespace Stage

variable (s : Stage)

theorem apply_twinned (i : Nat) (last : Bool) (input : String) :
    Twinned p p' (s.apply (p.at i) last input) (s.apply (p'.at i) last input) :=
  (s.apply_corresponds (p.beside_faithful p') ⟨i, rfl, rfl⟩ last input).twinned

theorem outputs_away {place : Place} (h : ∀ i, place ≠ p.at i) (input : String) : Away p (s.outputs place input) :=
  away_iff.2 (s.outputs_leaves (fun ⟨i, hplace⟩ => h i hplace) input)

end Stage

end Gleaner
