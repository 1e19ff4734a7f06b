/-
Matches of patterns.

A program keeps two positions for each group of its pattern, in an array whose size no step of a search changes
(`Program.search_size`). So every match has a text for each group of its pattern, and the first of them is the whole
match (`Match.length_texts`, `Match.head?_texts`).

A pattern is asked in two ways, for one match and for all of them. A text has some just if it has one
(`Pattern.findAll_isEmpty`).
-/
import Gleaner.Regex.Pattern
import Mathlib.Tactic

namespace Gleaner.Regex

/-! ## Positions of groups -/

/-- the positions of every thread fill an array of one size -/
def Sized (n : Nat) (threads : List Thread) : Prop := ∀ t ∈ threads, t.slots.size = n

theorem Sized.nil (n : Nat) : Sized n [] := List.forall_mem_nil _

theorem sized_cons {n : Nat} {t : Thread} {rest : List Thread} :
    Sized n (t :: rest) ↔ t.slots.size = n ∧ Sized n rest := List.forall_mem_cons

theorem follow_sized {insts : Array Inst} {text : Array Char} {pos n fuel : Nat} {stack : List Thread} {f : Frontier}
    (hstack : Sized n stack) (hf : Sized n f.threads.toList) :
    Sized n (follow insts text pos fuel stack f).threads.toList := by
  fun_induction follow insts text pos fuel stack f with
  | case1 => exact hf
  | case2 => exact hf
  | case3 fuel t stack f hseen ih => exact ih (sized_cons.1 hstack).2 hf
  | case4 fuel t stack threads seen marked a b hinst hseen ih =>
    obtain ⟨ht, hrest⟩ := sized_cons.1 hstack
    exact ih (sized_cons.2 ⟨ht, sized_cons.2 ⟨ht, hrest⟩⟩) hf
  | case5 fuel t stack threads seen marked look next hinst hholds hseen ih =>
    obtain ⟨ht, hrest⟩ := sized_cons.1 hstack
    exact ih (sized_cons.2 ⟨ht, hrest⟩) hf
  | case6 fuel t stack threads seen marked look next hinst hholds hseen ih => exact ih (sized_cons.1 hstack).2 hf
  | case7 fuel t stack threads seen marked slot next hinst hseen ih =>
    obtain ⟨ht, hrest⟩ := sized_cons.1 hstack
    have hset : (t.slots.setIfInBounds slot (some pos)).size = n := by rw [Array.size_setIfInBounds, ht]
    exact ih (sized_cons.2 ⟨hset, hrest⟩) hf
  | case8 fuel t stack threads seen marked hsplit hlook hsave hseen ih =>
    obtain ⟨ht, hrest⟩ := sized_cons.1 hstack
    refine ih hrest ?_
    intro u hu
    rw [Array.toList_push, List.mem_append, List.mem_singleton] at hu
    rcases hu with hu | rfl
    · exact hf u hu
    · exact ht

namespace Program

variable (p : Program) {text : Array Char} {n : Nat}

theorem enter_sized {pos : Nat} {t : Thread} {f : Frontier} (ht : t.slots.size = n) (hf : Sized n f.threads.toList) :
    Sized n (p.enter text pos t f).threads.toList :=
  follow_sized (sized_cons.2 ⟨ht, .nil n⟩) hf

/-- after one character the threads that wait are sized, and so is a match that was completed -/
theorem advance_sized (text : Array Char) (pos : Nat) (threads : List Thread) (next : Frontier)
    (hthreads : Sized n threads) (hnext : Sized n next.threads.toList) :
    Sized n (p.advance text pos threads next).1.threads.toList ∧
      ∀ found, (p.advance text pos threads next).2 = some found → found.size = n := by
  fun_induction advance p text pos threads next with
  | case1 next => exact ⟨hnext, nofun⟩
  | case2 t rest next hinst =>
    refine ⟨hnext, ?_⟩
    rintro found ⟨⟩
    exact (sized_cons.1 hthreads).1
  | case3 t rest next c target hinst hchar ih =>
    obtain ⟨ht, hrest⟩ := sized_cons.1 hthreads
    exact ih hrest (p.enter_sized ht hnext)
  | case4 t rest next c target hinst hchar ih => exact ih (sized_cons.1 hthreads).2 hnext
  | case5 t rest next s target hinst c hchar hset ih =>
    obtain ⟨ht, hrest⟩ := sized_cons.1 hthreads
    exact ih hrest (p.enter_sized ht hnext)
  | case6 t rest next s target hinst c hchar hset ih => exact ih (sized_cons.1 hthreads).2 hnext
  | case7 t rest next s target hinst hend ih => exact ih (sized_cons.1 hthreads).2 hnext
  | case8 t rest next haccept hchar hset ih => exact ih (sized_cons.1 hthreads).2 hnext

theorem searchFrom_sized {fuel pos : Nat} {f : Frontier} {best : Option Slots} (hf : Sized p.slots f.threads.toList)
    (hbest : ∀ found, best = some found → found.size = p.slots) :
    ∀ found, p.searchFrom text fuel pos f best = some found → found.size = p.slots := by
  induction fuel generalizing pos f best with
  | zero => exact hbest
  | succ fuel ih =>
    -- the rest of a round, whether or not a thread has been let in at its start
    have hround : ∀ entered : Frontier, Sized p.slots entered.threads.toList → ∀ found,
        (if entered.threads.isEmpty && best.isSome then best
          else
            p.searchFrom text fuel (pos + 1) (p.advance text pos entered.threads.toList ⟨#[], entered.seen⟩).1
              ((p.advance text pos entered.threads.toList ⟨#[], entered.seen⟩).2 <|> best)) = some found →
        found.size = p.slots := by
      intro entered hentered
      split
      · exact hbest
      · obtain ⟨hnext, hfound⟩ := p.advance_sized text pos _ ⟨#[], entered.seen⟩ hentered (.nil _)
        refine ih hnext fun found heq => ?_
        rcases (Option.orElse_eq_some _ _ _).1 heq with hnew | ⟨-, hold⟩
        · exact hfound found hnew
        · exact hbest found hold
    refine hround (if best.isNone then p.enter text pos ⟨p.start, Array.replicate p.slots none⟩ f else f) ?_
    split
    · exact p.enter_sized Array.size_replicate hf
    · exact hf

/-- **A match has all the positions** that the program provides for. -/
theorem search_size {start : Nat} {found : Slots} (h : p.search text start = some found) : found.size = p.slots := by
  refine p.searchFrom_sized (.nil _) ?_ found h
  rintro found ⟨⟩

theorem findFrom_size {fuel start : Nat} {last : Option Nat} :
    ∀ found ∈ p.findFrom text fuel start last, found.size = p.slots := by
  fun_induction findFrom p text fuel start last with
  | case1 => exact nofun
  | case2 => exact nofun
  | case3 => exact nofun
  | case4 fuel start last found hfound hempty again hagain ih =>
    exact List.forall_mem_cons.2 ⟨p.search_size hagain, ih⟩
  | case5 fuel start last found hfound hempty ih => exact List.forall_mem_cons.2 ⟨p.search_size hfound, ih⟩

/-- there are matches if there is one: nothing comes before the first, so it is kept even if it is empty -/
theorem findAll_isEmpty : (p.findAll text).isEmpty = (p.search text 0).isNone := by
  unfold findAll findFrom
  cases p.search text 0 with
  | none => rfl
  | some found => simp

end Program

/-! ## Groups -/

/-- there is a slot for the start and one for the end of each group, and group 0 is always there -/
theorem Expr.groupNames_pos (e : Expr) : 0 < e.groupNames.size := by
  have hset : ∀ (found : List (Nat × Option String)) (names : Array (Option String)),
      (found.foldl (fun names entry => names.set! entry.1 entry.2) names).size = names.size := by
    intro found
    induction found with
    | nil => exact fun _ => rfl
    | cons entry rest ih => exact fun names => (ih _).trans (by simp)
  have hcount : ∀ (found : List (Nat × Option String)) (n : Nat),
      n ≤ found.foldl (fun n entry => max n (entry.1 + 1)) n := by
    intro found
    induction found with
    | nil => exact fun _ => le_rfl
    | cons entry rest ih => exact fun n => (le_max_left _ _).trans (ih _)
  unfold groupNames
  simp only
  rw [hset, Array.size_replicate]
  exact hcount _ 1

namespace Pattern

variable {p : Pattern}

/-- what a compiled pattern is made from -/
theorem compile_eq_ok {source : String} (h : compile source = .ok p) :
    ∃ e : Expr, p = { source := source, program := e.program, groupNames := e.groupNames } := by
  unfold compile at h
  cases hparse : parse source with
  | error e => simp [hparse, bind, Except.bind] at h
  | ok ast =>
    cases htranslate : translate {} ast with
    | error e => simp [hparse, htranslate, bind, Except.bind] at h
    | ok translated =>
      obtain ⟨e, flags⟩ := translated
      simp only [hparse, htranslate, bind, Except.bind] at h
      split at h
      · cases h
      · exact ⟨e, (Except.ok.inj h).symm⟩

theorem length_groupTexts (text : Array Char) (slots : Slots) : (groupTexts text slots).length = slots.size / 2 := by
  simp [groupTexts]

/-- **Every match has a text for each group** of its pattern. -/
theorem length_groups {source text : String} {m : Match} (h : compile source = .ok p) (hm : m ∈ p.findAll text) :
    m.groups.length = p.groupNames.size := by
  obtain ⟨e, rfl⟩ := compile_eq_ok h
  obtain ⟨slots, hslots, rfl⟩ := List.mem_map.1 hm
  have hsize : slots.size = 2 * e.groupNames.size := e.program.findFrom_size slots hslots
  rw [length_groupTexts, hsize, Nat.mul_div_cancel_left _ (by decide)]

theorem groupNames_pos {source : String} (h : compile source = .ok p) : 0 < p.groupNames.size := by
  obtain ⟨e, rfl⟩ := compile_eq_ok h
  exact e.groupNames_pos

/-- **There are matches just if there is one.** -/
theorem findAll_isEmpty (p : Pattern) (text : String) : (p.findAll text).isEmpty = !p.isMatch text := by
  unfold findAll isMatch
  rw [List.isEmpty_map, Program.findAll_isEmpty]
  simp

end Pattern

namespace Match

theorem length_texts (m : Match) : m.texts.length = m.groups.length := List.length_map _

/-- the whole match is the first of the groups -/
theorem head?_texts {m : Match} (h : 0 < m.groups.length) : m.texts.head? = some m.whole := by
  obtain ⟨groups, names⟩ := m
  cases groups with
  | nil => exact absurd h (lt_irrefl 0)
  | cons first rest => rfl

end Match

end Gleaner.Regex
