/-
Texts that are read back from blocks of lines.

A text of several lines is written line by line, each line but the empty ones indented; the header of the block says
how deep if the text begins with a blank or a line break, and how many of the line breaks at its end count. The reader
keeps a line, the break behind it and the empty lines behind that apart (`readBlockLines_lines`); put together they are
what has been read so far.

Results:
- `readBlock_blockLines`: a block and the start of the next line.
-/
import Gleaner.Proofs.QuotedTexts

namespace Gleaner.Yaml

/-! ## Headers -/

/-- how a header says what becomes of the line breaks at the end -/
def Chomp.hint : Chomp → List Char
  | .strip => ['-']
  | .clip => []
  | .keep => ['+']

section

variable {fuel indent n : Nat} {rest : List Char} {c : Cursor}

theorem readBlockHeader_hints (hinted : Bool) (chomp : Chomp)
    (hc : c.rest = (if hinted then ['2'] else []) ++ chomp.hint ++ '\n' :: rest) :
    ∃ c', readBlockHeader c = .ok (chomp, if hinted then some 2 else none, c') ∧ c'.rest = rest ∧ c'.column = 0 ∧
      c'.line = c.line + 1 ∧ c.index < c'.index := by
  obtain ⟨cs, index, line, column⟩ := c
  cases hc
  refine ⟨⟨rest, index + (if hinted then 1 else 0) + chomp.hint.length + 1, line + 1, 0⟩, ?_, rfl, rfl, rfl, ?_⟩
  · cases hinted <;> cases chomp <;> rfl
  · simp only
    omega

/-! ## Lines -/

theorem length_blanks {k : Nat} (h : ∀ x ∈ rest.head?, x ≠ ' ') :
    ((List.replicate k ' ' ++ rest).takeWhile (· = ' ')).length = k := by
  have hnone : rest.takeWhile (· = ' ') = [] := by
    cases rest with
    | nil => rfl
    | cons x rest => simp [h x rfl]
  rw [List.takeWhile_append_of_pos (fun x hx => decide_eq_true (List.eq_of_mem_replicate hx)), hnone, List.append_nil,
    List.length_replicate]

/-- the indentation of a line of a block, or of a line that is indented less -/
theorem readBlockBreaks_line {k : Nat} (least : Nat) (c : Cursor) (breaks : List Char) (deepest : Nat)
    (hc : c.rest = List.replicate k ' ' ++ rest) (hcolumn : c.column = 0) (hindent : 0 < indent) (hk : k ≤ indent)
    (hless : k < indent → Inked rest) (hline : ∀ x ∈ rest.head?, isBreak x = false) :
    readBlockBreaks least indent (fuel + 1) deepest breaks c = .ok (indent, breaks, c.skip k) := by
  have hzero : ¬ indent = 0 := Nat.ne_of_gt hindent
  have hblanks : min (c.rest.takeWhile (· = ' ')).length (indent - c.column) = k := by
    rw [hc, hcolumn, Nat.sub_zero]
    rcases Nat.lt_or_eq_of_le hk with hlt | rfl
    · rw [length_blanks fun x hx => ?_, Nat.min_eq_left hk]
      rintro rfl
      cases hless hlt ' ' hx
    · rw [List.takeWhile_append_of_pos (fun x hx => decide_eq_true (List.eq_of_mem_replicate hx)), List.length_append,
        List.length_replicate]
      omega
  have hafter : (c.skip k).rest = rest := Cursor.skip_blanks hc
  have htab : (decide (indent = 0) || decide ((c.skip k).column < indent)) = true → ¬ (c.skip k).is '\t' = true := by
    intro hlt his
    rw [Cursor.skip, hcolumn, Nat.zero_add] at hlt
    simp only [hzero, decide_false, Bool.false_or, decide_eq_true_eq] at hlt
    have hhead : '\t' ∈ rest.head? := by
      rw [← hafter]
      exact beq_iff_eq.1 his
    cases hless hlt '\t' hhead
  have hbreak : (c.skip k).lineBreak? = none := Cursor.lineBreak?_none (by rwa [hafter])
  rw [readBlockBreaks]
  simp only [if_neg hzero, hblanks, Bool.and_eq_true, hbreak]
  rw [if_neg fun h => htab h.1 h.2]
  rfl

/-- the empty lines before a line of a block, or before a line that is indented less -/
theorem readBlockBreaks_breaks {k : Nat} {bs : List Char} (least : Nat) (c : Cursor)
    (hbs : ∀ b ∈ bs, isOwnBreak b = true) (breaks : List Char) (deepest : Nat)
    (hc : c.rest = bs ++ (List.replicate k ' ' ++ rest)) (hcolumn : c.column = 0) (hindent : 0 < indent)
    (hk : k ≤ indent) (hless : k < indent → Inked rest) (hline : ∀ x ∈ rest.head?, isBreak x = false)
    (hfuel : bs.length < fuel) :
    ∃ c', readBlockBreaks least indent fuel deepest breaks c = .ok (indent, bs.reverse ++ breaks, c') ∧ c'.rest = rest ∧
      c'.column = k ∧ c.line ≤ c'.line ∧ c.index ≤ c'.index := by
  induction bs generalizing fuel c breaks deepest with
  | nil =>
    obtain ⟨fuel, rfl⟩ : ∃ n, fuel = n + 1 := Nat.exists_eq_add_one.2 hfuel
    refine ⟨c.skip k, readBlockBreaks_line least c breaks deepest hc hcolumn hindent hk hless hline,
      Cursor.skip_blanks hc, ?_, Nat.le_refl _, Nat.le_add_right _ _⟩
    rw [Cursor.skip, hcolumn, Nat.zero_add]
  | cons b bs ih =>
    obtain ⟨fuel, rfl⟩ : ∃ n, fuel = n + 1 := ⟨fuel - 1, by omega⟩
    rw [List.cons_append] at hc
    have hb := hbs b List.mem_cons_self
    have hblanks : (c.rest.takeWhile (· = ' ')).length = 0 := by
      have hspace : b ≠ ' ' := by
        rintro rfl
        cases hb
      simp [hc, hspace]
    have htab : c.is '\t' = false := by
      rw [Cursor.is_eq hc]
      refine beq_eq_false_iff_ne.2 ?_
      rintro rfl
      cases hb
    obtain ⟨c', hread, hafter, hend, hlines, hindex⟩ :=
      ih (c.newLine (bs ++ (List.replicate k ' ' ++ rest))) (fun x hx => hbs x (List.mem_cons_of_mem _ hx))
        (b :: breaks) (max deepest c.column) rfl rfl (Nat.lt_of_succ_lt_succ hfuel)
    simp only [Cursor.newLine] at hlines hindex
    refine ⟨c', ?_, hafter, hend, by omega, by omega⟩
    rw [readBlockBreaks]
    have hskip : c.skip 0 = c := rfl
    simp only [if_neg (Nat.ne_of_gt hindent), hblanks, Nat.zero_min, hskip, htab, Bool.and_false, Bool.false_eq_true,
      if_false, Cursor.lineBreak?_own hc hb]
    rw [List.reverse_cons, List.append_assoc]
    exact hread

/-- a line of a block, and the empty lines behind it -/
theorem readBlockLines_line {k : Nat} {line bs : List Char} {b : Char} (fuel : Nat) (acc last breaks : List Char)
    (lastBlank : Bool) (hne : line ≠ []) (hline : ∀ x ∈ line, isBreak x = false) (hbs : ∀ x ∈ b :: bs, isOwnBreak x = true)
    (hc : c.rest = line ++ b :: (bs ++ (List.replicate k ' ' ++ rest))) (hcolumn : c.column = indent)
    (hindent : 0 < indent) (hk : k ≤ indent) (hless : k < indent → Inked rest)
    (hrest : ∀ x ∈ rest.head?, isBreak x = false) :
    ∃ startsBlank c', readBlockLines false indent (fuel + 1) acc last breaks lastBlank c =
        readBlockLines false indent fuel (line.reverse ++ (breaks ++ (last ++ acc))) [b] bs.reverse startsBlank c' ∧
      c'.rest = rest ∧ c'.column = k ∧ c.line < c'.line ∧ c.index < c'.index := by
  have hown := hbs b List.mem_cons_self
  have hbreak : isBreak b = true := by
    have hink := isInk_of_own hown
    simpa [isInk, isBlank_of_own hown] using hink
  have htake : c.takeWhile (!isBreak ·) = (line, c.skip line.length) :=
    Cursor.takeWhile_eq hc (fun x hx => by rw [hline x hx]; rfl) (fun x hx => by cases hx; rw [hbreak]; rfl)
  have hafter := Cursor.skip_rest hc
  let after := (c.skip line.length).newLine (bs ++ (List.replicate k ' ' ++ rest))
  have hlength : bs.length < after.rest.length + 1 := by
    simp only [after, Cursor.newLine, List.length_append]
    omega
  obtain ⟨c', hread, hrest', hend, hlines, hindex⟩ := readBlockBreaks_breaks 0 after
    (fun x hx => hbs x (List.mem_cons_of_mem _ hx)) [] 0 rfl rfl hindent hk hless hrest hlength
  simp only [after, Cursor.newLine, Cursor.skip] at hlines hindex
  refine ⟨c.peek.any isBlank, c', ?_, hrest', hend, by omega, by omega⟩
  have hstop : ¬ (decide (c.column ≠ indent) || c.rest.isEmpty) = true := by
    rw [hc]
    simp [hcolumn, hne]
  rw [readBlockLines, if_neg hstop]
  simp only [after] at hread
  simp only [htake, Cursor.lineBreak?_own hafter hown, Bool.false_and, Bool.false_eq_true, if_false, bind, Except.bind,
    hread, List.append_nil]

theorem indentLines_line {line q : List Char} (hline : ∀ x ∈ line, isBreak x = false) :
    indentLines indent false (line ++ q) = line ++ indentLines indent false q := by
  induction line with
  | nil => rfl
  | cons x line ih =>
    rw [List.cons_append, indentLines, hline x List.mem_cons_self]
    simp [ih fun y hy => hline y (List.mem_cons_of_mem _ hy)]

theorem indentLines_breaks (indent : Nat) {bs : List Char} (hbs : ∀ x ∈ bs, isBreak x = true) (q : List Char) :
    indentLines indent true (bs ++ q) = bs ++ indentLines indent true q := by
  induction bs with
  | nil => rfl
  | cons b bs ih =>
    rw [List.cons_append, indentLines, if_pos (hbs b List.mem_cons_self),
      ih fun y hy => hbs y (List.mem_cons_of_mem _ hy)]
    rfl

theorem length_le_indentLines (indent : Nat) (fresh : Bool) (q : List Char) :
    q.length ≤ (indentLines indent fresh q).length := by
  induction q generalizing fresh with
  | nil => exact Nat.le_refl _
  | cons x q ih =>
    rw [indentLines]
    split
    · exact Nat.succ_le_succ (ih true)
    · rw [List.length_append, List.length_cons, List.length_cons]
      have hmore := ih false
      omega

/-- a line that is not empty is indented -/
theorem indentLines_fresh {q : List Char} (hne : q ≠ []) (h : ∀ x ∈ q.head?, isBreak x = false) :
    indentLines indent true q = List.replicate indent ' ' ++ indentLines indent false q := by
  obtain ⟨x, q, rfl⟩ := List.exists_cons_of_ne_nil hne
  simp [indentLines, h x rfl, indentation]

/-- what stands behind a line is indented on the next one that is not empty -/
theorem indentLines_next {b : Char} {bs q : List Char} (hbs : ∀ x ∈ b :: bs, isBreak x = true) (hne : q ≠ [])
    (h : ∀ x ∈ q.head?, isBreak x = false) :
    indentLines indent false (b :: (bs ++ q)) = b :: (bs ++ (List.replicate indent ' ' ++ indentLines indent false q)) := by
  rw [indentLines, if_pos (hbs b List.mem_cons_self),
    indentLines_breaks indent fun x hx => hbs x (List.mem_cons_of_mem _ hx), indentLines_fresh hne h]

theorem indentLines_end {b : Char} {bs : List Char} (hbs : ∀ x ∈ b :: bs, isBreak x = true) :
    indentLines indent false (b :: bs) = b :: bs := by
  have hbreaks := indentLines_breaks indent (fun x hx => hbs x (List.mem_cons_of_mem _ hx)) []
  rw [List.append_nil] at hbreaks
  rw [indentLines, if_pos (hbs b List.mem_cons_self), hbreaks, indentLines, List.append_nil]

theorem head?_indentLines {q : List Char} (hne : q ≠ []) : (indentLines indent false q ++ rest).head? = q.head? := by
  obtain ⟨x, q, rfl⟩ := List.exists_cons_of_ne_nil hne
  rw [indentLines]
  split <;> rfl

/-- the last line of a block that is not empty, and the line breaks behind it -/
theorem readBlockLines_last {line bs : List Char} {b : Char} (acc last breaks : List Char) (lastBlank : Bool)
    (hne : line ≠ []) (hline : ∀ x ∈ line, isBreak x = false) (hbs : ∀ x ∈ b :: bs, isOwnBreak x = true)
    (hc : c.rest = line ++ b :: (bs ++ (List.replicate n ' ' ++ rest))) (hrest : Inked rest) (hn : n < indent)
    (hcolumn : c.column = indent) (hfuel : 1 < fuel) :
    ∃ c', readBlockLines false indent fuel acc last breaks lastBlank c =
        .ok (line.reverse ++ (breaks ++ (last ++ acc)), [b], bs.reverse, c') ∧
      c'.rest = rest ∧ c'.column = n ∧ c.line < c'.line ∧ c.index < c'.index := by
  obtain ⟨fuel, rfl⟩ : ∃ k, fuel = k + 1 + 1 := ⟨fuel - 2, by omega⟩
  obtain ⟨startsBlank, c', hread, hafter, hend, hlines, hindex⟩ := readBlockLines_line (fuel + 1) acc last breaks lastBlank
    hne hline hbs hc hcolumn (by omega) (Nat.le_of_lt hn) (fun _ => hrest) hrest.unbroken
  refine ⟨c', ?_, hafter, hend, hlines, hindex⟩
  have hstop : (decide (c'.column ≠ indent) || c'.rest.isEmpty) = true := by
    rw [hend]
    simp [Nat.ne_of_lt hn]
  rw [hread, readBlockLines, if_pos hstop]
  rfl

/-- a line, what stands between it and the next one that is not empty, and the rest of the text -/
theorem exists_line {q : List Char} (hne : q ≠ []) (hfirst : ∀ x ∈ q.head?, isBreak x = false)
    (hlast : ∀ x ∈ q.getLast?, isBreak x = false) :
    ∃ line, line ≠ [] ∧ (∀ x ∈ line, isBreak x = false) ∧
      (q = line ∨ ∃ b bs more, q = line ++ b :: (bs ++ more) ∧ (∀ x ∈ b :: bs, isBreak x = true) ∧ more ≠ [] ∧
        ∀ x ∈ more.head?, isBreak x = false) := by
  obtain ⟨line, more, rfl, hline, hmore⟩ := exists_run (!isBreak ·) q
  simp only [Bool.not_eq_true', Bool.not_eq_false'] at hline hmore
  have hlineNe : line ≠ [] := by
    rintro rfl
    obtain ⟨x, more, rfl⟩ := List.exists_cons_of_ne_nil hne
    have hx := hfirst x rfl
    rw [hmore x rfl] at hx
    cases hx
  refine ⟨line, hlineNe, hline, ?_⟩
  cases more with
  | nil => exact .inl (List.append_nil line)
  | cons b more =>
    obtain ⟨bs, more, rfl, hbs, hnext⟩ := exists_run isBreak more
    have hbreak : ∀ x ∈ b :: bs, isBreak x = true := List.forall_mem_cons.2 ⟨hmore b rfl, hbs⟩
    refine .inr ⟨b, bs, more, rfl, hbreak, ?_, hnext⟩
    rintro rfl
    rw [List.append_nil, List.getLast?_append_of_ne_nil _ (List.cons_ne_nil _ _),
      List.getLast?_eq_getLast_of_ne_nil (List.cons_ne_nil b bs)] at hlast
    have hx := hlast _ rfl
    rw [hbreak _ (List.getLast_mem _)] at hx
    cases hx

/-- **The lines of a block.** What has been read of them stands in three parts: the text up to the last line that is
not empty, the break behind it, and the breaks behind that. -/
theorem readBlockLines_lines {q bs : List Char} {b : Char} (acc last breaks : List Char) (lastBlank : Bool)
    (hne : q ≠ []) (hbreaks : ∀ x ∈ q, isBreak x = true → isOwnBreak x = true)
    (hfirst : ∀ x ∈ q.head?, isBreak x = false) (hlast : ∀ x ∈ q.getLast?, isBreak x = false)
    (hbs : ∀ x ∈ b :: bs, isBreak x = true ∧ isOwnBreak x = true)
    (hc : c.rest = indentLines indent false (q ++ b :: bs) ++ (List.replicate n ' ' ++ rest)) (hrest : Inked rest)
    (hn : n < indent) (hcolumn : c.column = indent) (hfuel : q.length < fuel) :
    ∃ c', readBlockLines false indent fuel acc last breaks lastBlank c =
        .ok (q.reverse ++ (breaks ++ (last ++ acc)), [b], bs.reverse, c') ∧
      c'.rest = rest ∧ c'.column = n ∧ c.line < c'.line ∧ c.index < c'.index := by
  -- on the length of the text: a line and the breaks behind it are read in one round
  induction hlength : q.length using Nat.strong_induction_on generalizing q acc last breaks lastBlank c fuel with
  | _ length ih =>
  obtain ⟨line, hlineNe, hline, rfl | ⟨b', bs', more, rfl, hbs', hmoreNe, hmore⟩⟩ := exists_line hne hfirst hlast
  · rw [indentLines_line hline, indentLines_end fun x hx => (hbs x hx).1, List.append_assoc, List.cons_append] at hc
    have hpositive := List.length_pos_iff.2 hlineNe
    exact readBlockLines_last acc last breaks lastBlank hlineNe hline (fun x hx => (hbs x hx).2) hc hrest hn hcolumn
      (by omega)
  · obtain ⟨fuel, rfl⟩ : ∃ k, fuel = k + 1 := ⟨fuel - 1, by omega⟩
    have hown : ∀ x ∈ b' :: bs', isOwnBreak x = true := fun x hx =>
      hbreaks x (List.mem_append_right _ (List.mem_append_left more hx)) (hbs' x hx)
    have hnext : ∀ x ∈ (more ++ b :: bs).head?, isBreak x = false := by
      rwa [List.head?_append_of_ne_nil _ hmoreNe]
    have hnextNe : more ++ b :: bs ≠ [] := by simp [hmoreNe]
    have hindented : indentLines indent false (line ++ b' :: (bs' ++ more) ++ b :: bs) =
        line ++ b' :: (bs' ++ (List.replicate indent ' ' ++ indentLines indent false (more ++ b :: bs))) := by
      rw [List.append_assoc, indentLines_line hline, List.cons_append, List.append_assoc bs',
        indentLines_next hbs' hnextNe hnext]
    rw [hindented] at hc
    simp only [List.cons_append, List.append_assoc] at hc
    obtain ⟨startsBlank, c₁, hread₁, hafter, hend, hlines₁, hindex₁⟩ := readBlockLines_line fuel acc last breaks lastBlank
      hlineNe hline hown hc hcolumn (by omega) (Nat.le_refl _) (fun h => absurd h (Nat.lt_irrefl _))
      (by rwa [head?_indentLines hnextNe])
    have hshorter : more.length < (line ++ b' :: (bs' ++ more)).length := by
      rw [List.length_append, List.length_cons, List.length_append]
      omega
    have hlast' : ∀ x ∈ more.getLast?, isBreak x = false := fun x hx => hlast x (by
      rw [← List.cons_append, ← List.append_assoc, List.getLast?_append_of_ne_nil _ hmoreNe]
      exact hx)
    obtain ⟨c', hread, hrest', hend', hlines, hindex⟩ := @ih more.length (hlength ▸ hshorter) fuel c₁ more
      (line.reverse ++ (breaks ++ (last ++ acc))) [b'] bs'.reverse startsBlank hmoreNe
      (fun x hx => hbreaks x (List.mem_append_right _ (List.mem_cons_of_mem _ (List.mem_append_right _ hx))))
      hmore hlast' hafter hend (Nat.lt_of_lt_of_le hshorter (Nat.le_of_lt_succ hfuel)) rfl
    refine ⟨c', ?_, hrest', hend', Nat.lt_trans hlines₁ hlines, Nat.lt_trans hindex₁ hindex⟩
    rw [hread₁, hread]
    simp

/-! ## Texts -/

/-- the indentation that is found on the first line -/
theorem readBlockBreaks_found {k least : Nat} (hc : c.rest = List.replicate k ' ' ++ rest) (hrest : Inked rest)
    (hcolumn : c.column = 0) :
    readBlockBreaks least 0 (fuel + 1) 0 [] c = .ok (max 1 (max k least), [], c.skip k) := by
  have hafter : (c.skip k).rest = rest := Cursor.skip_blanks hc
  have hblanks : (c.rest.takeWhile (· = ' ')).length = k := by
    rw [hc]
    refine length_blanks fun x hx => ?_
    rintro rfl
    cases hrest ' ' hx
  have htab : ¬ (c.skip k).is '\t' = true := by
    intro his
    have hhead : '\t' ∈ rest.head? := by
      rw [← hafter]
      exact beq_iff_eq.1 his
    cases hrest '\t' hhead
  have hbreak : (c.skip k).lineBreak? = none := by
    refine Cursor.lineBreak?_none ?_
    rw [hafter]
    exact hrest.unbroken
  rw [readBlockBreaks]
  simp only [hblanks, if_true, htab, Bool.and_false, Bool.false_eq_true, if_false, hbreak]
  simp [Cursor.skip, hcolumn, pure, Except.pure]

end

/-- what a block is made of that is not made of line breaks only: its header, the line breaks before its text, the text
from its first to its last line that is not empty, and the line breaks behind it, one at least -/
structure Block where
  hinted : Bool
  chomp : Chomp
  before : List Char
  inner : List Char
  b : Char
  bs : List Char

namespace Block

/-- the line breaks at the end that count -/
def kept (p : Block) : List Char :=
  match p.chomp with
  | .strip => []
  | .clip => [p.b]
  | .keep => p.b :: p.bs

/-- the text a block stands for -/
def text (p : Block) : List Char := p.before ++ (p.inner ++ p.kept)

/-- a block with its lines -/
def written (p : Block) (indent : Nat) : List Char :=
  '|' :: ((if p.hinted then ['2'] else []) ++ p.chomp.hint ++
    '\n' :: (p.before ++ (List.replicate indent ' ' ++ indentLines indent false (p.inner ++ p.b :: p.bs))))

/-- no block without the indentation in its header begins with a blank or a line break, and only a single line break is
clipped -/
structure Valid (p : Block) : Prop where
  unhinted : p.hinted = false → p.before = [] ∧ ∀ x ∈ p.inner.head?, isInk x = true
  before_own : ∀ x ∈ p.before, isOwnBreak x = true
  bs_own : ∀ x ∈ p.b :: p.bs, isBreak x = true ∧ isOwnBreak x = true
  inner_ne_nil : p.inner ≠ []
  inner_own : ∀ x ∈ p.inner, isBreak x = true → isOwnBreak x = true
  first : ∀ x ∈ p.inner.head?, isBreak x = false
  last : ∀ x ∈ p.inner.getLast?, isBreak x = false

/-- the empty lines before the text, and how deep the text is indented -/
theorem Valid.found {p : Block} (h : p.Valid) {m : Nat} {tail : List Char} {c : Cursor}
    (hc : c.rest = p.before ++
      (List.replicate (m + 2) ' ' ++ (indentLines (m + 2) false (p.inner ++ p.b :: p.bs) ++ tail)))
    (hcolumn : c.column = 0) :
    ∃ c', readBlockBreaks (m + 1) (if p.hinted then m + 2 else 0) (c.rest.length + 1) 0 [] c =
        .ok (m + 2, p.before.reverse, c') ∧
      c'.rest = indentLines (m + 2) false (p.inner ++ p.b :: p.bs) ++ tail ∧ c'.column = m + 2 ∧ c.line ≤ c'.line ∧
      c.index ≤ c'.index := by
  have hhead : (indentLines (m + 2) false (p.inner ++ p.b :: p.bs) ++ tail).head? = p.inner.head? := by
    rw [head?_indentLines (by simp), List.head?_append_of_ne_nil _ h.inner_ne_nil]
  cases hhinted : p.hinted with
  | true =>
    have hlength : p.before.length < c.rest.length + 1 := by
      rw [hc, List.length_append]
      omega
    obtain ⟨c', hread, hafter⟩ := readBlockBreaks_breaks (m + 1) c h.before_own [] 0 hc hcolumn (Nat.succ_pos _)
      (Nat.le_refl (m + 2)) (fun hlt => absurd hlt (Nat.lt_irrefl _)) (hhead ▸ h.first) hlength
    refine ⟨c', ?_, hafter⟩
    rw [if_pos rfl, hread, List.append_nil]
  | false =>
    obtain ⟨hbefore, hink⟩ := h.unhinted hhinted
    rw [hbefore, List.nil_append] at hc
    refine ⟨c.skip (m + 2), ?_, Cursor.skip_blanks hc, ?_, Nat.le_refl _, Nat.le_add_right _ _⟩
    · have hmax : max 1 (max (m + 2) (m + 1)) = m + 2 := by omega
      rw [if_neg Bool.false_ne_true, readBlockBreaks_found hc (by rwa [Inked, hhead]) hcolumn, hbefore, hmax]
      rfl
    · rw [Cursor.skip, hcolumn, Nat.zero_add]

/-- **A block is read back**, and the reader stands at the next line. -/
theorem Valid.read {p : Block} (h : p.Valid) {m n : Nat} {rest : List Char} {c : Cursor}
    (hc : c.rest = p.written (m + 2) ++ (List.replicate n ' ' ++ rest)) (hrest : Inked rest) (hn : n ≤ m) :
    ∃ c', readBlock (m + 1) c = .ok (String.ofList p.text, c') ∧ c'.rest = rest ∧ c'.column = n ∧
      c.line < c'.line ∧ c.index < c'.index := by
  let lines := indentLines (m + 2) false (p.inner ++ p.b :: p.bs) ++ (List.replicate n ' ' ++ rest)
  have hc : c.rest = '|' :: ((if p.hinted then ['2'] else []) ++ p.chomp.hint ++
      '\n' :: (p.before ++ (List.replicate (m + 2) ' ' ++ lines))) := by
    rw [hc, written]
    simp [lines]
  obtain ⟨c₁, hheader, hrest₁, hcolumn₁, hline₁, hindex₁⟩ := readBlockHeader_hints p.hinted p.chomp (Cursor.skip_one hc)
  obtain ⟨c₂, hbefore, hrest₂, hcolumn₂, hline₂, hindex₂⟩ := h.found hrest₁ hcolumn₁
  have hlength : p.inner.length < c₂.rest.length + 1 := by
    have hinside := length_le_indentLines (m + 2) false (p.inner ++ p.b :: p.bs)
    rw [hrest₂]
    simp only [List.length_append] at hinside ⊢
    omega
  obtain ⟨c', hlines, hrest', hcolumn', hline', hindex'⟩ := readBlockLines_lines [] [] p.before.reverse false
    h.inner_ne_nil h.inner_own h.first h.last h.bs_own hrest₂ hrest (by omega) hcolumn₂ hlength
  refine ⟨c', ?_, hrest', hcolumn', ?_, ?_⟩
  · have hbar : c.is '>' = false := by
      rw [Cursor.is_eq hc]
      rfl
    rw [readBlock, hbar, hheader, text, kept]
    cases hhinted : p.hinted <;>
    · rw [hhinted] at hbefore
      simp only [if_true, if_false, Bool.false_eq_true] at hbefore
      simp only [bind, Except.bind, if_true, if_false, Bool.false_eq_true, Nat.add_sub_cancel, hbefore, hlines]
      cases p.chomp <;> simp [pure, Except.pure]
  · simp only [Cursor.skip] at hline₁
    omega
  · simp only [Cursor.skip] at hindex₁
    omega

end Block

theorem indentLines_append_break (indent : Nat) {b : Char} (hb : isBreak b = true) (fresh : Bool) (q : List Char) :
    indentLines indent fresh (q ++ [b]) = indentLines indent fresh q ++ [b] := by
  induction q generalizing fresh with
  | nil => simp [indentLines, hb]
  | cons x q ih =>
    rw [List.cons_append, indentLines, indentLines, ih, ih]
    split
    · rfl
    · rw [List.append_assoc, List.cons_append]

/-- a run of characters at the end of a text -/
theorem exists_run_end (p : Char → Bool) (q : List Char) :
    ∃ before run, q = before ++ run ∧ (∀ x ∈ run, p x = true) ∧ ∀ x ∈ before.getLast?, p x = false := by
  obtain ⟨run, before, hq, hrun, hbefore⟩ := exists_run p q.reverse
  refine ⟨before.reverse, run.reverse, ?_, fun x hx => hrun x (List.mem_reverse.1 hx), fun x hx => ?_⟩
  · rw [← List.reverse_append, ← hq, List.reverse_reverse]
  · rw [List.getLast?_reverse] at hx
    exact hbefore x hx

/-- how the end of a text is written in the header -/
def chompOf : List Char → Chomp
  | [] => .strip
  | [_] => .clip
  | _ => .keep

/-- the parts of a text of several lines -/
def blockOf (before inner run : List Char) : Block where
  hinted := (before ++ inner).head?.any fun c => c = ' ' || isBreak c
  chomp := chompOf run
  before := before
  inner := inner
  b := run.head?.getD '\n'
  bs := run.tail

section

variable {before inner run : List Char}

theorem text_blockOf : (blockOf before inner run).text = before ++ (inner ++ run) := by
  cases run with
  | nil => rfl
  | cons b run => cases run <;> rfl

/-- the hint about the line breaks at the end of a text, which is given in reverse -/
def chompHint : List Char → List Char
  | [] => ['-']
  | [c] => if isBreak c then ['+'] else ['-']
  | c :: d :: _ => if !isBreak c then ['-'] else if isBreak d then ['+'] else []

theorem blockLines_eq (indent : Nat) (cs : List Char) :
    blockLines indent cs = '|' :: (if cs.head?.any fun c => c = ' ' || isBreak c then ['2'] else []) ++
      chompHint cs.reverse ++ '\n' :: indentLines indent true cs ++
      (if cs.getLast?.any isBreak then [] else ['\n']) := rfl

theorem chompHint_reverse {z : Char} (init : List Char) (hz : isBreak z = false) (hrun : ∀ x ∈ run, isBreak x = true) :
    chompHint (init ++ z :: run).reverse = (chompOf run).hint := by
  rw [List.reverse_append, List.reverse_cons, List.append_assoc]
  cases hreverse : run.reverse with
  | nil =>
    rw [List.reverse_eq_nil_iff.1 hreverse]
    cases init.reverse <;> simp [hz, chompOf, chompHint, Chomp.hint]
  | cons y more =>
    have hall : ∀ x ∈ y :: more, isBreak x = true := fun x hx => hrun x (List.mem_reverse.1 (hreverse ▸ hx))
    have hy := hall y List.mem_cons_self
    have hrun' : run = more.reverse ++ [y] := by
      rw [← List.reverse_reverse run, hreverse, List.reverse_cons]
    cases more with
    | nil => simp [hrun', hy, hz, chompOf, chompHint, Chomp.hint]
    | cons x more =>
      have hx := hall x (List.mem_cons_of_mem _ List.mem_cons_self)
      have hkeep : chompOf run = .keep := by
        obtain ⟨b, b', bs, hbs⟩ : ∃ b b' bs, run = b :: b' :: bs := by
          cases run with
          | nil => cases hreverse
          | cons b run =>
            cases run with
            | nil => cases hreverse
            | cons b' bs => exact ⟨b, b', bs, rfl⟩
        rw [hbs]
        rfl
      simp [hx, hy, hkeep, chompHint, Chomp.hint]

/-- **How a text of several lines is written** -/
theorem written_blockOf (indent : Nat) (hne : inner ≠ []) (hbefore : ∀ x ∈ before, isBreak x = true)
    (hfirst : ∀ x ∈ inner.head?, isBreak x = false) (hlast : ∀ x ∈ inner.getLast?, isBreak x = false)
    (hrun : ∀ x ∈ run, isBreak x = true) :
    blockLines indent (before ++ (inner ++ run)) = (blockOf before inner run).written indent := by
  obtain ⟨init, z, rfl⟩ : ∃ init z, inner = init ++ [z] := ⟨_, _, (List.dropLast_append_getLast hne).symm⟩
  have hz : isBreak z = false := hlast z (by simp)
  have hhead : (before ++ (init ++ [z] ++ run)).head? = (before ++ (init ++ [z])).head? := by
    rw [← List.append_assoc, List.head?_append_of_ne_nil]
    simp
  have hchomp := chompHint_reverse (before ++ init) hz hrun
  have hwhole : before ++ init ++ z :: run = before ++ (init ++ [z] ++ run) := by simp
  rw [hwhole] at hchomp
  have hlines : indentLines indent true (before ++ (init ++ [z] ++ run)) =
      before ++ (List.replicate indent ' ' ++ indentLines indent false (init ++ [z] ++ run)) := by
    rw [indentLines_breaks indent hbefore, indentLines_fresh (by simp)]
    intro x hx
    rw [List.head?_append_of_ne_nil _ hne] at hx
    exact hfirst x hx
  rw [blockLines_eq, Block.written]
  simp only [hhead, hlines, hchomp, blockOf]
  cases run with
  | nil =>
    have hbreak := indentLines_append_break indent (show isBreak '\n' = true from rfl) false (init ++ [z])
    simp only [List.append_nil, List.head?_nil, Option.getD_none, List.tail_nil, hbreak]
    simp [hz]
  | cons b bs =>
    have hend : (before ++ (init ++ [z] ++ b :: bs)).getLast?.any isBreak = true := by
      rw [← List.append_assoc, List.getLast?_append_of_ne_nil _ (List.cons_ne_nil _ _),
        List.getLast?_eq_getLast_of_ne_nil (List.cons_ne_nil _ _), Option.any_some]
      exact hrun _ (List.getLast_mem _)
    simp only [hend, if_true, List.head?_cons, Option.getD_some, List.tail_cons]
    simp

/-- the parts of a text of several lines make a block that is read back -/
theorem valid_blockOf (hne : inner ≠ []) (hbefore : ∀ x ∈ before, isBreak x = true)
    (hfirst : ∀ x ∈ inner.head?, isBreak x = false) (hlast : ∀ x ∈ inner.getLast?, isBreak x = false)
    (hrun : ∀ x ∈ run, isBreak x = true) (htab : ∀ x ∈ inner, x ≠ '\t')
    (hown : ∀ x ∈ before ++ (inner ++ run), isBreak x = true → isOwnBreak x = true) :
    (blockOf before inner run).Valid where
  unhinted := by
    intro hhinted
    have hnil : before = [] := by
      cases before with
      | nil => rfl
      | cons b before =>
        simp only [blockOf, List.cons_append, List.head?_cons, Option.any_some, hbefore b List.mem_cons_self,
          Bool.or_true] at hhinted
        cases hhinted
    subst hnil
    refine ⟨rfl, fun x hx => ?_⟩
    simp only [blockOf, List.nil_append] at hhinted
    rw [show inner.head? = some x from hx, Option.any_some, Bool.or_eq_false_iff, decide_eq_false_iff_not] at hhinted
    simp [isInk, isBlank, hhinted, htab x (List.mem_of_mem_head? hx)]
  before_own x hx := hown x (List.mem_append_left _ hx) (hbefore x hx)
  bs_own := by
    intro x hx
    cases run with
    | nil =>
      simp only [blockOf, List.head?_nil, Option.getD_none, List.tail_nil, List.mem_singleton] at hx
      rw [hx]
      exact ⟨rfl, rfl⟩
    | cons b bs => exact ⟨hrun x hx, hown x (List.mem_append_right _ (List.mem_append_right _ hx)) (hrun x hx)⟩
  inner_ne_nil := hne
  inner_own x hx := hown x (List.mem_append_right _ (List.mem_append_left _ hx))
  first := hfirst
  last := hlast

end

theorem ne_nil_of_block {s : String} (h : style s = .block) : s.toList ≠ [] := by
  intro hnil
  unfold style at h
  simp only [hnil, List.contains_nil, Bool.false_eq_true, if_false] at h
  split at h
  · cases h
  · split at h <;> cases h

theorem own_of_printable {x : Char} (hprintable : isPrintable x = true) (hbreak : isBreak x = true) :
    isOwnBreak x = true := by
  by_cases hx : x = '\n'
  · rw [hx]
    rfl
  · rw [separator_of_break hprintable hx] at hbreak
    exact (own_of_separator hbreak).1

/-- a block of line breaks only, all of which count -/
theorem readBlock_breaks {bs : List Char} (hne : bs ≠ []) (hbs : ∀ x ∈ bs, isBreak x = true ∧ isOwnBreak x = true)
    {m n : Nat} {rest : List Char} {c : Cursor}
    (hc : c.rest = blockLines (m + 2) bs ++ (List.replicate n ' ' ++ rest)) (hrest : Inked rest) (hn : n ≤ m) :
    ∃ c', readBlock (m + 1) c = .ok (String.ofList bs, c') ∧ c'.rest = rest ∧ c'.column = n ∧ c.line < c'.line ∧
      c.index < c'.index := by
  have hwritten : blockLines (m + 2) bs = '|' :: (['2'] ++ Chomp.keep.hint ++ '\n' :: bs) := by
    have hlines : indentLines (m + 2) true bs = bs := by
      have hbreaks := indentLines_breaks (m + 2) (fun x hx => (hbs x hx).1) []
      rwa [List.append_nil, indentLines, List.append_nil] at hbreaks
    have hchomp : chompHint bs.reverse = Chomp.keep.hint := by
      have hall : ∀ x ∈ bs.reverse, isBreak x = true := fun x hx => (hbs x (List.mem_reverse.1 hx)).1
      cases hreverse : bs.reverse with
      | nil => exact absurd (List.reverse_eq_nil_iff.1 hreverse) hne
      | cons x more =>
        rw [hreverse] at hall
        have hx := hall x List.mem_cons_self
        cases more with
        | nil => simp [chompHint, hx, Chomp.hint]
        | cons y more =>
          simp [chompHint, hx, hall y (List.mem_cons_of_mem _ List.mem_cons_self), Chomp.hint]
    have hend : bs.getLast?.any isBreak = true := by
      rw [List.getLast?_eq_getLast_of_ne_nil hne, Option.any_some]
      exact (hbs _ (List.getLast_mem hne)).1
    obtain ⟨b, more, rfl⟩ := List.exists_cons_of_ne_nil hne
    rw [blockLines_eq, hlines, hchomp, if_pos hend]
    simp [(hbs b List.mem_cons_self).1]
  rw [hwritten] at hc
  simp only [List.cons_append, List.append_assoc, List.nil_append] at hc
  obtain ⟨c₁, hheader, hrest₁, hcolumn₁, hline₁, hindex₁⟩ := readBlockHeader_hints true .keep (Cursor.skip_one hc)
  have hlength : bs.length < c₁.rest.length + 1 := by
    rw [hrest₁, List.length_append]
    omega
  obtain ⟨c', hbreaks, hrest', hcolumn', hline', hindex'⟩ := readBlockBreaks_breaks (m + 1) c₁
    (fun x hx => (hbs x hx).2) [] 0 hrest₁ hcolumn₁ (Nat.succ_pos _) (by omega : n ≤ m + 2) (fun _ => hrest)
    hrest.unbroken hlength
  simp only [Cursor.skip] at hline₁ hindex₁
  refine ⟨c', ?_, hrest', hcolumn', by omega, by omega⟩
  have hbar : c.is '>' = false := by
    rw [Cursor.is_eq hc]
    rfl
  have hstop : (decide (c'.column ≠ m + 2) || c'.rest.isEmpty) = true := by
    rw [hcolumn']
    simp only [ne_eq, Bool.or_eq_true, decide_eq_true_eq]
    omega
  rw [readBlock, hbar, hheader]
  simp only [bind, Except.bind, if_true, Nat.add_sub_cancel, hbreaks]
  rw [readBlockLines, if_pos hstop]
  simp [pure, Except.pure]

/-- **A text that is written as a block is read back**, and the reader stands at the next line. -/
theorem readBlock_blockLines {s : String} (h : style s = .block) {m n : Nat} {rest : List Char} {c : Cursor}
    (hc : c.rest = blockLines (m + 2) s.toList ++ (List.replicate n ' ' ++ rest)) (hrest : Inked rest) (hn : n ≤ m) :
    ∃ c', readBlock (m + 1) c = .ok (s, c') ∧ c'.rest = rest ∧ c'.column = n ∧ c.line < c'.line ∧
      c.index < c'.index := by
  have hne := ne_nil_of_block h
  have hprintable := printable_of_style (s := s) (by rw [h]; exact nofun)
  obtain ⟨before, q, hs, hbefore, hq⟩ := exists_run isBreak s.toList
  obtain ⟨inner, run, rfl, hrun, hinner⟩ := exists_run_end isBreak q
  have hbreakOwn : ∀ x ∈ s.toList, isBreak x = true → isOwnBreak x = true := fun x hx =>
    own_of_printable (hprintable x hx)
  rw [hs] at hbreakOwn hprintable
  by_cases hinnerNe : inner = []
  · -- nothing but line breaks
    subst hinnerNe
    have hrunNil : run = [] := by
      cases run with
      | nil => rfl
      | cons b run =>
        have hb := hq b rfl
        rw [hrun b List.mem_cons_self] at hb
        cases hb
    subst hrunNil
    simp only [List.append_nil] at hs hbreakOwn
    rw [hs] at hc
    obtain ⟨c', hread, hafter⟩ := readBlock_breaks (hs ▸ hne)
      (fun x hx => ⟨hbefore x hx, hbreakOwn x hx (hbefore x hx)⟩) hc hrest hn
    exact ⟨c', by rw [hread, ← hs, String.ofList_toList], hafter⟩
  · have hfirst : ∀ x ∈ inner.head?, isBreak x = false := fun x hx => hq x (by
      rw [List.head?_append_of_ne_nil _ hinnerNe]
      exact hx)
    have htab : ∀ x ∈ inner, x ≠ '\t' := by
      rintro x hx rfl
      cases hprintable _ (List.mem_append_right _ (List.mem_append_left _ hx))
    have hvalid := valid_blockOf hinnerNe hbefore hfirst hinner hrun htab hbreakOwn
    rw [hs, written_blockOf (m + 2) hinnerNe hbefore hfirst hinner hrun] at hc
    obtain ⟨c', hread, hafter⟩ := hvalid.read hc hrest hn
    refine ⟨c', ?_, hafter⟩
    rw [hread, text_blockOf, ← hs, String.ofList_toList]

end Gleaner.Yaml
