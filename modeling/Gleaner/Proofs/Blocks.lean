/-
Values that are read back from their lines.

A value stands behind a dash or behind a key, on the same line or, indented, on the next ones. Whatever it is, the
layout goes from where it begins to the line behind it, and adds the value's tokens (`Lays`). Two relations say so: one
layout leads to another in some steps (`Leads`), and a layout is about to go on at a line, in a block that is open
(`Resumes`): what stands before that line, and the blocks that end there, are settled by the next step.

A line that begins at a column opens a block there, unless one is open (`opened`, `around`). So the items of a list and
the fields of a table are laid out one after another, the first of them opening the block.

Results:
- `plain_value`, `quoted_value`, `block_value`, `empty_value`: a value of each style;
- `Resumes.items`, `Resumes.fields`: the items of a list and the fields of a table, if their values are laid out;
- `lays_of_written`: any tree of texts, lists and tables.
-/
import Gleaner.Proofs.Layouts
import Gleaner.Proofs.Nodes
import Gleaner.Proofs.PlainTexts
import Gleaner.Proofs.BlockTexts

namespace Gleaner.Yaml.Layout

/-! ## Layouts outside all brackets -/

/-- a layout outside all brackets -/
def block (c : Cursor) (ts : List Token) (level : Nat) (outer : List Nat) (keyAllowed : Bool)
    (key : Option KeyPlace) : Layout :=
  { cursor := c, tokens := ts.toArray, level := level, outer := outer, keyAllowed := keyAllowed, key := key }

section

variable {l : Layout} {c : Cursor} {ts : List Token} {level m n k target : Nat} {outer : List Nat} {keyAllowed : Bool}
  {key : Option KeyPlace} {rest : List Char}

theorem block_push (t : Token) : (block c ts level outer keyAllowed key).push t =
    block c (ts ++ [t]) level outer keyAllowed key := by
  simp [push, block]

theorem dropKey_block : (block c ts level outer keyAllowed none).dropKey = .ok (block c ts level outer keyAllowed none) :=
  rfl

theorem free_block (h : ∀ place ∈ key, place.required = false) : (block c ts level outer keyAllowed key).Free := by
  intro key' hkey'
  rw [List.mem_singleton.1 hkey']
  exact h

theorem settled_block (h : AtToken c.rest) (hlevel : level ≤ c.column + 1) :
    (block c ts level outer keyAllowed none).Settled :=
  .of_token h (fun key hkey => by rw [List.mem_singleton.1 hkey]; rfl) (closeTo_low hlevel)

/-- the layout goes on at a line, once the blocks above a level have ended -/
def Resumes (l : Layout) (target n : Nat) (rest : List Char) (ts : List Token) (level : Nat) (outer : List Nat) : Prop :=
  ∃ c l₁, l.settle = .ok l₁ ∧ l₁.closeTo target = block c ts level outer true none ∧ c.rest = rest ∧ c.column = n ∧
    c.rest.length ≤ l.cursor.rest.length

/-- the next line, with what has been remembered of this one given up -/
theorem resumes_line (hrest : AtToken rest) (hc : c.rest = '\n' :: (List.replicate k ' ' ++ rest))
    (hkey : ∀ place ∈ key, place.required = false ∧ place.line ≤ c.line) (hlevel : level ≤ target) :
    Resumes (block c ts level outer keyAllowed key) target k rest ts level outer := by
  let c' := (c.newLine (List.replicate k ' ' ++ rest)).skip k
  have hrest' : c'.rest = rest := Cursor.skip_blanks rfl
  have hstale : freshKey c' key = none := by
    cases key with
    | none => rfl
    | some place =>
      have hlt : place.line < c'.line := Nat.lt_succ_of_le (hkey place rfl).2
      simp [freshKey, isStale, hlt]
  have hsettle : (block c ts level outer keyAllowed key).settle = .ok (block c' ts level outer true none) := by
    rw [settle_line (free_block fun place h => (hkey place h).1) hrest hc]
    simp only [block, inFlow, List.isEmpty_nil, Bool.not_true, Bool.not_false, Bool.or_true, List.map_nil]
    rw [← hstale]
  refine ⟨c', _, hsettle, closeTo_low hlevel, hrest', Nat.zero_add k, ?_⟩
  rw [hrest']
  change rest.length ≤ c.rest.length
  rw [hc, List.length_cons, List.length_append]
  omega

/-- the line whose indentation has been read -/
theorem resumes_here (hrest : AtToken c.rest) (hkey : ∀ place ∈ key, place.required = false ∧ place.line < c.line)
    (hlevel : level ≤ target) :
    Resumes (block c ts level outer true key) target c.column c.rest ts level outer := by
  have hstale : freshKey (c.skip 0) key = none := by
    cases key with
    | none => rfl
    | some place => simp [freshKey, isStale, Cursor.skip, (hkey place rfl).2]
  have hsettle : (block c ts level outer true key).settle = .ok (block c ts level outer true none) := by
    rw [settle_blanks (k := 0) (free_block fun place h => (hkey place h).1) hrest rfl, ← hstale]
    rfl
  exact ⟨c, _, hsettle, closeTo_low hlevel, rfl, rfl, Nat.le_refl _⟩

/-- what stands behind a blank -/
theorem settle_blank (hrest : AtToken rest) (hc : c.rest = ' ' :: rest) :
    (block c ts level outer keyAllowed none).settle = .ok (block (c.skip 1) ts level outer keyAllowed none) :=
  settle_blanks (k := 1) (free_block nofun) hrest hc

theorem resumes_blank (hrest : AtToken rest) (hc : c.rest = ' ' :: rest) (hlevel : level ≤ target) :
    Resumes (block c ts level outer true none) target (c.column + 1) rest ts level outer := by
  refine ⟨c.skip 1, _, settle_blank hrest hc, closeTo_low hlevel, Cursor.skip_one hc, rfl, ?_⟩
  change (c.skip 1).rest.length ≤ c.rest.length
  rw [Cursor.skip_one hc, hc]
  exact Nat.le_succ _

theorem Resumes.close {ts' : List Token} {target' level' : Nat} {outer' : List Nat}
    (h : Resumes l target n rest ts level outer) (htarget : target' ≤ target)
    (hclose : ∀ c, (block c ts level outer true none).closeTo target' = block c ts' level' outer' true none) :
    Resumes l target' n rest ts' level' outer' := by
  obtain ⟨c, l₁, hsettle, hblock, hafter⟩ := h
  refine ⟨c, l₁, hsettle, ?_, hafter⟩
  rw [← closeTo_closeTo htarget, hblock, hclose]

/-- the end of one block -/
theorem closeTo_block (hlevel : target < level) {next : Nat} (hnext : next ≤ target) :
    (block c ts level (next :: outer) keyAllowed key).closeTo target =
      block c (ts ++ [.blockEnd]) next outer keyAllowed key := by
  have hopen : ¬ ((block c ts level (next :: outer) keyAllowed key).inFlow || decide (level ≤ target)) = true := by
    simp [block, inFlow, hlevel]
  rw [closeTo, block, closeBlocks]
  refine (if_neg hopen).trans ?_
  refine Eq.trans (b := (block c (ts ++ [.blockEnd]) next outer keyAllowed key).closeTo target) ?_ (closeTo_low hnext)
  rw [← block_push]
  rfl

/-- a step at the beginning of a line -/
theorem Resumes.step (h : Resumes l (n + 1) n rest ts level outer) (hrest : AtToken rest) (hlevel : level ≤ n + 1) :
    ∃ c, c.rest = rest ∧ c.column = n ∧ c.rest.length ≤ l.cursor.rest.length ∧
      (block c ts level outer true none).Settled ∧ l.step = (block c ts level outer true none).step := by
  obtain ⟨c, l₁, hsettle, hclose, hc, hcolumn, hlength⟩ := h
  have hcursor : l₁.cursor = c := by
    rw [← (closeTo_frame (n + 1)).1, hclose]
    rfl
  have hsettled : (block c ts level outer true none).Settled := settled_block (hc ▸ hrest) (hcolumn ▸ hlevel)
  exact ⟨c, hc, hcolumn, hlength, hsettled, step_of_settle hsettle (by rw [hcursor, hcolumn, hclose]) hsettled⟩

end

/-! ## Keys and dashes -/

section

variable {l : Layout} {c : Cursor} {ts : List Token} {level m n : Nat} {outer : List Nat} {rest : List Char}

/-- the token of a block that begins at a column, unless one is open there -/
def opened (start : Token) (column level : Nat) : List Token := if level ≤ column then [start] else []

/-- the levels around a block at a column -/
def around (column level : Nat) (outer : List Nat) : List Nat := if level ≤ column then level :: outer else outer

theorem opened_same (start : Token) : opened start m (m + 1) = [] := if_neg (Nat.not_succ_le_self m)

theorem around_same : around m (m + 1) outer = outer := if_neg (Nat.not_succ_le_self m)

theorem opened_inner (start : Token) : opened start (m + 2) (m + 1) = [start] := if_pos (Nat.le_succ _)

theorem around_inner : around (m + 2) (m + 1) outer = (m + 1) :: outer := if_pos (Nat.le_succ _)

theorem openBlock_end {keyAllowed : Bool} {key : Option KeyPlace} (start : Token) (hlevel : level ≤ m + 1) :
    (block c ts level outer keyAllowed key).openBlock m none start =
      block c (ts ++ opened start m level) (m + 1) (around m level outer) keyAllowed key := by
  unfold openBlock
  by_cases hdeep : level ≤ m
  · have hopen : ¬ ((block c ts level outer keyAllowed key).inFlow || decide (level > m)) = true := by
      simp [block, inFlow, hdeep]
    refine (if_neg hopen).trans ?_
    rw [opened, around, if_pos hdeep, if_pos hdeep, ← block_push]
    simp [block, push]
  · have hopen : ((block c ts level outer keyAllowed key).inFlow || decide (level > m)) = true := by
      simp only [Bool.or_eq_true, decide_eq_true_eq]
      exact .inr (by omega)
    refine (if_pos hopen).trans ?_
    have heq : level = m + 1 := by omega
    rw [opened, around, if_neg hdeep, if_neg hdeep, List.append_nil, heq]

/-- the token of a block that begins before tokens that have been read -/
theorem openBlock_before {us : List Token} {keyAllowed : Bool} {key : Option KeyPlace} (start : Token)
    (hlevel : level ≤ m + 1) :
    (block c (ts ++ us) level outer keyAllowed key).openBlock m (some ts.length) start =
      block c (ts ++ opened start m level ++ us) (m + 1) (around m level outer) keyAllowed key := by
  unfold openBlock
  by_cases hdeep : level ≤ m
  · have hopen : ¬ ((block c (ts ++ us) level outer keyAllowed key).inFlow || decide (level > m)) = true := by
      simp [block, inFlow, hdeep]
    refine (if_neg hopen).trans ?_
    rw [opened, around, if_pos hdeep, if_pos hdeep]
    simp only [block, List.insertIdxIfInBounds_toArray, insertIdx_behind, List.append_assoc, List.singleton_append]
  · have hopen : ((block c (ts ++ us) level outer keyAllowed key).inFlow || decide (level > m)) = true := by
      simp only [Bool.or_eq_true, decide_eq_true_eq]
      exact .inr (by omega)
    refine (if_pos hopen).trans ?_
    have heq : level = m + 1 := by omega
    rw [opened, around, if_neg hdeep, if_neg hdeep, List.append_nil, heq]

/-- **The dash of an item** -/
theorem Resumes.dash (h : Resumes l (m + 1) m ('-' :: rest) ts level outer) (hgap : isGap rest.head? = true)
    (hlevel : level ≤ m + 1) :
    ∃ c, c.rest = rest ∧ c.column = m + 1 ∧
      Leads l (block c (ts ++ opened .blockListStart m level ++ [.listEntry]) (m + 1) (around m level outer) true
        none) := by
  have hrest : AtToken ('-' :: rest) := fun x hx => by cases hx; exact ⟨rfl, by decide, by decide⟩
  obtain ⟨c, hc, hcolumn, hlength, hsettled, hstep⟩ := h.step hrest hlevel
  refine ⟨c.skip 1, Cursor.skip_one hc, by rw [Cursor.skip, hcolumn], .of_step ?_ ?_⟩
  · have hentry : (block c ts level outer true none).listEntry =
        .ok (block (c.skip 1) (ts ++ opened .blockListStart m level ++ [.listEntry]) (m + 1) (around m level outer) true
          none) := by
      rw [listEntry]
      change (do
        let l ← ((block c ts level outer true none).openBlock c.column none .blockListStart).dropKey
        pure ({ l with keyAllowed := true }.take 1 .listEntry)) = _
      rw [hcolumn, openBlock_end _ hlevel, dropKey_block]
      change Except.ok _ = _
      rw [← block_push]
      rfl
    rw [hstep, step_dash hsettled hc hgap, hentry]
    rfl
  · change (c.skip 1).rest.length < _
    rw [Cursor.skip_one hc]
    rw [hc, List.length_cons] at hlength
    exact hlength

theorem not_indicator_of_alpha {x : Char} (hx : x.isAlpha = true) (b : Bool) : isIndicatorAt true true b x = false := by
  have hne : ∀ y : Char, y.isAlpha = false → x ≠ y := by
    rintro y hy rfl
    rw [hy] at hx
    cases hx
  simp [isIndicatorAt, hne]

theorem atToken_of_alpha {x : Char} {cs : List Char} (hx : x.isAlpha = true) : AtToken (x :: cs) := by
  intro y hy
  cases hy
  refine ⟨isInk_of_alpha hx, ?_, ?_⟩
  · rintro rfl
    cases hx
  · rintro rfl
    cases hx

/-- the place of a key at the cursor -/
def placeAt (c : Cursor) (tokens level : Nat) : KeyPlace where
  token := tokens
  index := c.index
  line := c.line
  column := c.column
  required := level = c.column + 1

theorem noteKey_block : (block c ts level outer true none).noteKey =
    .ok (block c ts level outer true (some (placeAt c ts.length level))) :=
  rfl

/-- a word that may be a key -/
theorem plainText_word {s : String} (hs : isWord s = true) (hc : c.rest = s.toList ++ ':' :: rest)
    (hgap : isGap rest.head? = true) :
    (block c ts level outer true none).plainText =
      .ok (block (c.skip s.toList.length) (ts ++ [.text s true]) level outer false
        (some (placeAt c ts.length level))) := by
  obtain ⟨x, xs, hcs, halpha, -⟩ := exists_letters hs
  have hread : readPlain false level c = .ok (s, false, c.skip s.toList.length) := by
    rw [readPlain_word (List.cons_ne_nil x xs) halpha (hcs ▸ hc) hgap, ← hcs, String.ofList_toList]
  rw [plainText_eq_map noteKey_block, ← block_push]
  exact congrArg (Except.map _) hread

/-- a colon behind a possible key -/
theorem value_block {us : List Token} {keyAllowed : Bool} {place : KeyPlace} (htoken : place.token = ts.length)
    (hlevel : level ≤ place.column + 1) :
    (block c (ts ++ us) level outer keyAllowed (some place)).value =
      .ok (block (c.skip 1) (ts ++ opened .blockTableStart place.column level ++ .key :: us ++ [.value])
        (place.column + 1) (around place.column level outer) false none) := by
  have hkey : { block c (ts ++ us) level outer keyAllowed (some place) with
      tokens := (ts ++ us).toArray.insertIdxIfInBounds place.token .key, key := none, keyAllowed := false } =
      block c (ts ++ .key :: us) level outer false none := by
    simp only [block, htoken, List.insertIdxIfInBounds_toArray, insertIdx_behind]
  rw [value]
  change Except.ok ((openBlock { block c (ts ++ us) level outer keyAllowed (some place) with
    tokens := (ts ++ us).toArray.insertIdxIfInBounds place.token .key, key := none, keyAllowed := false }
    place.column (some place.token) .blockTableStart).take 1 .value) = _
  rw [hkey, htoken, openBlock_before _ hlevel, ← block_push]
  rfl

/-- **The key of a field** -/
theorem Resumes.key {s : String} (hs : isWord s = true) (h : Resumes l (m + 1) m (s.toList ++ ':' :: rest) ts level outer)
    (hgap : isGap rest.head? = true) (hlevel : level ≤ m + 1) :
    ∃ c, c.rest = rest ∧ m + 1 ≤ c.column ∧
      Leads l (block c (ts ++ opened .blockTableStart m level ++ [.key, .text s true, .value]) (m + 1)
        (around m level outer) false none) := by
  obtain ⟨x, xs, hcs, halpha, hshort⟩ := exists_letters hs
  have hx := halpha x List.mem_cons_self
  have hstart : AtToken (s.toList ++ ':' :: rest) := by
    rw [hcs]
    exact atToken_of_alpha hx
  obtain ⟨c, hc, hcolumn, hlength, hsettled, hstep⟩ := h.step hstart hlevel
  have hfirst : c.rest = x :: (xs ++ ':' :: rest) := by rw [hc, hcs]; rfl
  have hmark : c.atAnyDocumentMark = false :=
    not_mark_of_head hfirst (by rintro rfl; cases hx) (by rintro rfl; cases hx)
  rw [step_plain hsettled hfirst hmark rfl (not_indicator_of_alpha hx _), plainText_word hs hc hgap] at hstep
  -- the colon
  have hafter : (c.skip s.toList.length).rest = ':' :: rest := Cursor.skip_rest hc
  have hletters : s.toList.length ≤ 1000 := hcs ▸ hshort
  have hpos : 0 < s.toList.length := by rw [hcs]; exact Nat.succ_pos _
  let place := placeAt c ts.length level
  let behind := block (c.skip s.toList.length) (ts ++ [.text s true]) level outer false (some place)
  have hsettled' : behind.Settled := by
    refine .of_token ?_ (fun key hkey => ?_) (closeTo_low ?_)
    · change AtToken (c.skip s.toList.length).rest
      rw [hafter]
      exact fun y hy => by cases hy; exact ⟨rfl, by decide, by decide⟩
    · rw [List.mem_singleton.1 hkey]
      change isStale (c.skip s.toList.length) place = false
      simp only [isStale, place, placeAt, Cursor.skip, Nat.lt_irrefl, decide_false, Bool.false_or,
        decide_eq_false_iff_not]
      omega
    · change level ≤ c.column + s.toList.length + 1
      omega
  have hvalue : behind.value =
      .ok (block ((c.skip s.toList.length).skip 1)
        (ts ++ opened .blockTableStart m level ++ [.key, .text s true, .value]) (m + 1) (around m level outer) false
        none) := by
    have hvalue : behind.value = _ := value_block rfl (hcolumn.symm ▸ hlevel : level ≤ c.column + 1)
    rw [hvalue, ← hcolumn]
    simp [place, placeAt]
  refine ⟨(c.skip s.toList.length).skip 1, Cursor.skip_one hafter, ?_, ?_⟩
  · simp only [Cursor.skip]
    omega
  · have hfirst : Leads l behind := .of_step hstep ?_
    have hsecond : Leads behind _ := .of_step (by rw [step_colon hsettled' hafter hgap, hvalue]; rfl) ?_
    · exact hfirst.trans hsecond
    · change ((c.skip s.toList.length).skip 1).rest.length < (c.skip s.toList.length).rest.length
      rw [Cursor.skip_one hafter, hafter]
      exact Nat.lt_succ_self _
    · refine Nat.lt_of_lt_of_le ?_ hlength
      change (c.skip s.toList.length).rest.length < c.rest.length
      rw [hafter, hc, List.length_append]
      omega

end

/-! ## Texts -/

section

variable {c : Cursor} {ts : List Token} {level m n : Nat} {outer : List Nat} {keyAllowed : Bool} {rest : List Char}
  {s : String}

/-- a value is no key, and what is remembered of it is given up on the next line -/
theorem noteKey_value (ts : List Token) (outer : List Nat) (keyAllowed : Bool) (hdeep : m < c.column) :
    ∃ key, (block c ts (m + 1) outer keyAllowed none).noteKey = .ok (block c ts (m + 1) outer keyAllowed key) ∧
      ∀ place ∈ key, place.required = false ∧ place.line = c.line ∧ place.index = c.index := by
  cases keyAllowed with
  | false => exact ⟨none, rfl, nofun⟩
  | true =>
    refine ⟨_, noteKey_block, fun place hplace => ?_⟩
    cases hplace
    refine ⟨decide_eq_false ?_, rfl, rfl⟩
    omega

/-- a step begins behind a blank -/
theorem step_blank (ts : List Token) (level : Nat) (outer : List Nat) (keyAllowed : Bool) (hrest : AtToken rest)
    (hc : c.rest = ' ' :: rest) (hlevel : level ≤ c.column + 2) :
    (block (c.skip 1) ts level outer keyAllowed none).Settled ∧
      (block c ts level outer keyAllowed none).step = (block (c.skip 1) ts level outer keyAllowed none).step := by
  have hsettled : (block (c.skip 1) ts level outer keyAllowed none).Settled :=
    settled_block (by rwa [Cursor.skip_one hc]) hlevel
  exact ⟨hsettled, step_of_settle (settle_blank hrest hc) hsettled.close hsettled⟩

theorem plain_value (h : style s = .plain) (hc : c.rest = ' ' :: (s.toList ++ '\n' :: (List.replicate n ' ' ++ rest)))
    (hrest : AtToken rest) (hn : n ≤ m) (hdeep : m < c.column) :
    ∃ l', Leads (block c ts (m + 1) outer keyAllowed none) l' ∧
      Resumes l' (m + 1) n rest (ts ++ [.text s true]) (m + 1) outer := by
  have hs := PlainText.of_style h
  obtain ⟨x, xs, hcs⟩ := List.exists_cons_of_ne_nil hs.ne_nil
  have hind : isIndicatorAt true true (isGap (xs ++ '\n' :: (List.replicate n ' ' ++ rest)).head?) x = false := by
    have hfirst := hs.indicators
    rw [hcs, hasIndicator, Bool.or_eq_false_iff] at hfirst
    cases xs with
    | nil => exact hfirst.1
    | cons y ys => exact hfirst.1
  have hstart : AtToken (s.toList ++ '\n' :: (List.replicate n ' ' ++ rest)) := by
    have hink := hs.first_ink
    have hprintable := hs.printable x (by rw [hcs]; exact List.mem_cons_self)
    rw [hcs] at hink ⊢
    intro y hy
    cases hy
    refine ⟨hink x rfl, ?_, ?_⟩
    · rintro rfl
      simp [isIndicatorAt] at hind
    · rintro rfl
      cases hprintable
  obtain ⟨hsettled, hstep⟩ := step_blank ts (m + 1) outer keyAllowed hstart hc (by omega)
  have hafter : (c.skip 1).rest = s.toList ++ '\n' :: (List.replicate n ' ' ++ rest) := Cursor.skip_one hc
  have hmark : (c.skip 1).atAnyDocumentMark = false := not_mark_of_column (Nat.succ_pos _)
  have hfirst : (c.skip 1).rest = x :: (xs ++ '\n' :: (List.replicate n ' ' ++ rest)) := by rw [hafter, hcs]; rfl
  obtain ⟨c', hread, hrest', hcolumn', hline, -⟩ := readPlain_text h hafter hrest.inked (Nat.lt_succ_of_le hn)
    (Nat.le_succ_of_le hdeep : m + 1 ≤ (c.skip 1).column)
  obtain ⟨key, hnote, hkey⟩ := noteKey_value (c := c.skip 1) ts outer keyAllowed (Nat.lt_succ_of_lt hdeep)
  have hplain : (block (c.skip 1) ts (m + 1) outer keyAllowed none).plainText =
      .ok (block c' (ts ++ [.text s true]) (m + 1) outer true key) := by
    rw [plainText_eq_map hnote, ← block_push]
    exact congrArg (Except.map _) hread
  refine ⟨_, .of_step (by rw [hstep, step_plain hsettled hfirst hmark rfl hind, hplain]; rfl) ?_, ?_⟩
  · change c'.rest.length < c.rest.length
    rw [hrest', hc, List.length_cons, List.length_append, List.length_cons, List.length_append]
    omega
  · rw [← hrest', ← hcolumn']
    exact resumes_here (hrest' ▸ hrest)
      (fun place hplace => ⟨(hkey place hplace).1, (hkey place hplace).2.1 ▸ hline⟩) (Nat.le_refl (m + 1))

theorem quoted_value {single : Bool} {indent : Nat} {w : List Char} (h : Quoted single indent s.toList w)
    (hindent : 0 < indent)
    (hc : c.rest = ' ' :: quoteMark single ::
      (w ++ quoteMark single :: '\n' :: (List.replicate n ' ' ++ rest)))
    (hrest : AtToken rest) (hdeep : m < c.column) :
    ∃ l', Leads (block c ts (m + 1) outer keyAllowed none) l' ∧
      Resumes l' (m + 1) n rest (ts ++ [.text s false]) (m + 1) outer := by
  have hstart : AtToken (quoteMark single :: (w ++ quoteMark single :: '\n' :: (List.replicate n ' ' ++ rest))) := by
    intro x hx
    cases hx
    cases single <;> exact ⟨rfl, by decide, by decide⟩
  obtain ⟨hsettled, hstep⟩ := step_blank ts (m + 1) outer keyAllowed hstart hc (by omega)
  have hafter := Cursor.skip_one hc
  obtain ⟨key, hnote, hkey⟩ := noteKey_value (c := c.skip 1) ts outer keyAllowed (Nat.lt_succ_of_lt hdeep)
  rcases readQuoted_quoted h hafter (fun _ => by simp) with ⟨hzero, -⟩ | ⟨c', hread, hrest', hline, -⟩
  · exact absurd hzero (Nat.ne_of_gt hindent)
  · rw [String.ofList_toList] at hread
    have hquoted : (block (c.skip 1) ts (m + 1) outer keyAllowed none).step =
        .ok (some (block c' (ts ++ [.text s false]) (m + 1) outer false key)) := by
      rw [step_quote_eq_map hsettled hafter hnote, ← block_push]
      exact congrArg (Except.map _) hread
    refine ⟨_, .of_step (hstep.trans hquoted) ?_, ?_⟩
    · change c'.rest.length < c.rest.length
      simp only [hrest', hc, List.length_cons, List.length_append]
      omega
    · exact resumes_line hrest hrest'
        (fun place hplace => ⟨(hkey place hplace).1, (hkey place hplace).2.1.le.trans hline⟩) (Nat.le_refl _)

theorem block_value (h : style s = .block)
    (hc : c.rest = ' ' :: (blockLines (m + 2) s.toList ++ (List.replicate n ' ' ++ rest)))
    (hrest : AtToken rest) (hn : n ≤ m) (hdeep : m < c.column) :
    ∃ l', Leads (block c ts (m + 1) outer keyAllowed none) l' ∧
      Resumes l' (m + 1) n rest (ts ++ [.text s false]) (m + 1) outer := by
  obtain ⟨more, hbar⟩ : ∃ more, blockLines (m + 2) s.toList ++ (List.replicate n ' ' ++ rest) = '|' :: more := ⟨_, rfl⟩
  have hstart : AtToken (blockLines (m + 2) s.toList ++ (List.replicate n ' ' ++ rest)) := by
    rw [hbar]
    intro x hx
    cases hx
    exact ⟨rfl, by decide, by decide⟩
  obtain ⟨hsettled, hstep⟩ := step_blank ts (m + 1) outer keyAllowed hstart hc (by omega)
  have hafter : (c.skip 1).rest = '|' :: more := by rw [← hbar, Cursor.skip_one hc]
  obtain ⟨c', hread, hrest', hcolumn', -, -⟩ := readBlock_blockLines h (Cursor.skip_one hc) hrest.inked hn
  refine ⟨block c' (ts ++ [.text s false]) (m + 1) outer true none, .of_step ?_ ?_, ?_⟩
  · rw [hstep, step_bar_eq_map hsettled hafter rfl dropKey_block, ← block_push]
    exact congrArg (Except.map _) hread
  · change c'.rest.length < c.rest.length
    simp only [hrest', hc, List.length_cons, List.length_append]
    omega
  · rw [← hrest', ← hcolumn']
    exact resumes_here (hrest' ▸ hrest) (by simp) (Nat.le_refl (m + 1))

/-- **A text behind its key or dash** -/
theorem text_value (s : String) (hc : c.rest = ' ' :: ((scalar (m + 2) s).toList ++ (List.replicate n ' ' ++ rest)))
    (hrest : AtToken rest) (hn : n ≤ m) (hdeep : m < c.column) :
    ∃ l', Leads (block c ts (m + 1) outer keyAllowed none) l' ∧
      Resumes l' (m + 1) n rest (ts ++ [.text s (style s = .plain)]) (m + 1) outer := by
  rw [scalar, String.toList_ofList] at hc
  cases h : style s with
  | plain =>
    simp only [h, List.append_assoc, List.singleton_append] at hc
    exact plain_value h hc hrest hn hdeep
  | singleQuoted =>
    obtain ⟨w, hwritten, hquoted⟩ := quoted_of_style h (m + 2)
    simp only [h, hwritten, List.append_assoc, List.cons_append, List.nil_append] at hc
    exact quoted_value hquoted (Nat.succ_pos _) hc hrest hdeep
  | doubleQuoted =>
    obtain ⟨w, hwritten, hquoted⟩ := quoted_doubleQuoted s.toList (m + 2)
    simp only [h, hwritten, List.append_assoc, List.cons_append, List.nil_append] at hc
    exact quoted_value hquoted (Nat.succ_pos _) hc hrest hdeep
  | block =>
    simp only [h] at hc
    exact block_value h hc hrest hn hdeep

/-- an empty list or table behind its key or dash -/
theorem empty_value (table : Bool)
    (hc : c.rest = ' ' :: openMark table :: closeMark table :: '\n' :: (List.replicate n ' ' ++ rest))
    (hrest : AtToken rest) (hdeep : m < c.column) :
    ∃ l', Leads (block c ts (m + 1) outer keyAllowed none) l' ∧
      Resumes l' (m + 1) n rest (ts ++ [startToken table, endToken table]) (m + 1) outer := by
  have hstart : AtToken (openMark table :: closeMark table :: '\n' :: (List.replicate n ' ' ++ rest)) := by
    intro x hx
    cases hx
    cases table <;> exact ⟨rfl, by decide, by decide⟩
  obtain ⟨hsettled, hstep⟩ := step_blank ts (m + 1) outer keyAllowed hstart hc (by omega)
  have hafter := Cursor.skip_one hc
  obtain ⟨key, hnote, hkey⟩ := noteKey_value (c := c.skip 1) ts outer keyAllowed (Nat.lt_succ_of_lt hdeep)
  -- the opening bracket
  let inside : Layout := { block ((c.skip 1).skip 1) (ts ++ [startToken table]) (m + 1) outer true none with
    outerKeys := [key] }
  have hopen : (block (c.skip 1) ts (m + 1) outer keyAllowed none).openFlow (startToken table) = .ok inside := by
    rw [openFlow, hnote]
    simp only [inside, ← block_push]
    rfl
  -- the closing bracket
  have hinside : inside.cursor.rest = closeMark table :: '\n' :: (List.replicate n ' ' ++ rest) := Cursor.skip_one hafter
  have hsettled' : inside.Settled := by
    refine .of_token ?_ (fun key' hkey' => ?_) (closeTo_flow _ rfl)
    · rw [hinside]
      intro x hx
      cases hx
      cases table <;> exact ⟨rfl, by decide, by decide⟩
    · rcases List.mem_cons.1 hkey' with rfl | hkey'
      · rfl
      · rw [List.mem_singleton.1 hkey']
        cases key with
        | none => rfl
        | some place =>
          obtain ⟨-, hline, hindex⟩ := hkey place rfl
          simp [isStale, inside, block, Cursor.skip, hline, hindex]
  have hclose : inside.closeFlow (endToken table) =
      .ok (block (((c.skip 1).skip 1).skip 1) (ts ++ [startToken table] ++ [endToken table]) (m + 1) outer false key) := by
    rw [← block_push]
    rfl
  have hend : (((c.skip 1).skip 1).skip 1).rest = '\n' :: (List.replicate n ' ' ++ rest) := Cursor.skip_one hinside
  have hfirst : Leads (block c ts (m + 1) outer keyAllowed none) inside := by
    refine .of_step (by rw [hstep, step_open hsettled hafter, hopen]; rfl) ?_
    change inside.cursor.rest.length < c.rest.length
    rw [hinside, hc]
    exact Nat.lt_succ_of_lt (Nat.lt_succ_self _)
  have hsecond : Leads inside (block (((c.skip 1).skip 1).skip 1) (ts ++ [startToken table] ++ [endToken table]) (m + 1)
      outer false key) := by
    refine .of_step (by rw [step_close hsettled' hinside, hclose]; rfl) ?_
    change (((c.skip 1).skip 1).skip 1).rest.length < inside.cursor.rest.length
    rw [hend, hinside]
    exact Nat.lt_succ_self _
  refine ⟨_, hfirst.trans hsecond, ?_⟩
  rw [List.append_assoc, List.singleton_append]
  exact resumes_line hrest hend (fun place hplace => ⟨(hkey place hplace).1, (hkey place hplace).2.1.le⟩)
    (Nat.le_refl (m + 1))

end

/-! ## Trees -/

/-- what stands behind a dash or behind a key -/
def valueText (inList : Bool) (m : Nat) (t : Tree) : List Char :=
  (if inList then itemValue m t else fieldValue m t).toList

/-- the tokens of a value are those of its text, wherever it stands -/
def Lays (t : Tree) : Prop :=
  ∀ (inList : Bool) (m n : Nat) (c : Cursor) (ts : List Token) (outer : List Nat) (rest : List Char),
    c.rest = valueText inList m t ++ (List.replicate n ' ' ++ rest) → AtToken rest → n ≤ m → m < c.column →
    (inList = true → c.column = m + 1) →
    ∃ l', Leads (block c ts (m + 1) outer inList none) l' ∧
      Resumes l' (m + 1) n rest (ts ++ blockTokens inList t) (m + 1) outer

section

variable {l : Layout} {ts : List Token} {level m n : Nat} {outer : List Nat} {rest : List Char}

theorem fieldValue_gap (m : Nat) (t : Tree) (cs : List Char) : isGap ((fieldValue m t).toList ++ cs).head? = true := by
  cases t with
  | list use items => cases items <;> simp [fieldValue, isGap, isBlank, isBreak]
  | table fields => cases fields <;> simp [fieldValue, isGap, isBlank, isBreak]
  | _ => simp [fieldValue, isGap, isBlank]

theorem lays_text (s : String) : Lays (.text s) := by
  intro inList m n c ts outer rest hc hrest hn hdeep _
  have htext : valueText inList m (.text s) = ' ' :: (scalar (m + 2) s).toList := by
    cases inList <;> simp [valueText, itemValue, fieldValue]
  rw [htext] at hc
  rw [blockTokens]
  exact text_value s hc hrest hn hdeep

theorem tableFields_cons (m : Nat) (f : String × Tree) (fields : List (String × Tree)) :
    (tableFields m (f :: fields)).toList = f.1.toList ++ ':' :: ((fieldValue m f.2).toList ++
      if fields.isEmpty then [] else List.replicate m ' ' ++ (tableFields m fields).toList) := by
  cases fields <;> simp [tableFields, indent, indentation]

/-- **The fields of a table** -/
theorem Resumes.fields {fields : List (String × Tree)} (hne : fields ≠ [])
    (h : ∀ f ∈ fields, isWord f.1 = true ∧ Lays f.2)
    (hl : Resumes l (m + 1) m ((tableFields m fields).toList ++ (List.replicate n ' ' ++ rest)) ts level outer)
    (hrest : AtToken rest) (hn : n ≤ m) (hlevel : level ≤ m + 1) :
    ∃ l', Leads l l' ∧
      Resumes l' (m + 1) n rest (ts ++ opened .blockTableStart m level ++ fieldTokens fields) (m + 1)
        (around m level outer) := by
  induction fields generalizing l ts level outer with
  | nil => exact absurd rfl hne
  | cons f fields ih =>
    obtain ⟨hword, hvalue⟩ := h f List.mem_cons_self
    rw [tableFields_cons] at hl
    simp only [List.append_assoc, List.cons_append] at hl
    obtain ⟨c, hc, hdeep, hkey⟩ := hl.key hword (fieldValue_gap _ _ _) hlevel
    let before := ts ++ opened .blockTableStart m level ++ [.key, .text f.1 true, .value]
    by_cases hlast : fields = []
    · subst hlast
      obtain ⟨l', hleads, hresumes⟩ := hvalue false m n c before (around m level outer) rest hc hrest hn hdeep nofun
      refine ⟨l', hkey.trans hleads, ?_⟩
      simpa [before, fieldTokens] using hresumes
    · have hnext : AtToken ((tableFields m fields).toList ++ (List.replicate n ' ' ++ rest)) := by
        obtain ⟨f', fields', rfl⟩ := List.exists_cons_of_ne_nil hlast
        obtain ⟨x, xs, hcs, halpha, -⟩ := exists_letters (h f' (List.mem_cons_of_mem _ List.mem_cons_self)).1
        rw [tableFields_cons, hcs]
        exact atToken_of_alpha (halpha x List.mem_cons_self)
      rw [if_neg (by rwa [List.isEmpty_iff]), List.append_assoc] at hc
      obtain ⟨l₁, hleads, hresumes⟩ := hvalue false m m c before (around m level outer) _ hc hnext (Nat.le_refl m) hdeep
        nofun
      obtain ⟨l', hleads', hresumes'⟩ := ih hlast (fun f hf => h f (List.mem_cons_of_mem _ hf)) hresumes
        (Nat.le_refl (m + 1))
      refine ⟨l', (hkey.trans hleads).trans hleads', ?_⟩
      rw [opened_same, around_same] at hresumes'
      simpa [before, fieldTokens] using hresumes'

theorem itemValue_gap (m : Nat) (t : Tree) (cs : List Char) : isGap ((itemValue m t).toList ++ cs).head? = true := by
  cases t with
  | list use items => cases items <;> simp [itemValue, isGap, isBlank, isBreak]
  | table fields => cases fields <;> simp [itemValue, isGap, isBlank]
  | _ => simp [itemValue, isGap, isBlank]

theorem listItems_cons (m : Nat) (t : Tree) (items : List Tree) :
    (listItems m (t :: items)).toList =
      List.replicate m ' ' ++ '-' :: ((itemValue m t).toList ++ (listItems m items).toList) := by
  simp [listItems, indent, indentation]

/-- **The items of a list**, the first of which begins here -/
theorem Resumes.items {t : Tree} {items : List Tree} (h : ∀ t' ∈ t :: items, Lays t')
    (hl : Resumes l (m + 1) m
      ('-' :: ((itemValue m t).toList ++ ((listItems m items).toList ++ (List.replicate n ' ' ++ rest)))) ts level outer)
    (hrest : AtToken rest) (hn : n ≤ m) (hlevel : level ≤ m + 1) :
    ∃ l', Leads l l' ∧
      Resumes l' (m + 1) n rest (ts ++ opened .blockListStart m level ++ itemTokens (t :: items)) (m + 1)
        (around m level outer) := by
  induction items generalizing l ts level outer t with
  | nil =>
    obtain ⟨c, hc, hcolumn, hdash⟩ := hl.dash (itemValue_gap _ _ _) hlevel
    let before := ts ++ opened .blockListStart m level ++ [.listEntry]
    obtain ⟨l', hleads, hresumes⟩ := h t List.mem_cons_self true m n c before (around m level outer) rest hc hrest hn
      (by omega) (fun _ => hcolumn)
    refine ⟨l', hdash.trans hleads, ?_⟩
    simpa [before, itemTokens] using hresumes
  | cons t' items ih =>
    obtain ⟨c, hc, hcolumn, hdash⟩ := hl.dash (itemValue_gap _ _ _) hlevel
    let before := ts ++ opened .blockListStart m level ++ [.listEntry]
    rw [listItems_cons] at hc
    simp only [List.append_assoc, List.cons_append] at hc
    have hnext : AtToken
        ('-' :: ((itemValue m t').toList ++ ((listItems m items).toList ++ (List.replicate n ' ' ++ rest)))) :=
      fun x hx => by cases hx; exact ⟨rfl, by decide, by decide⟩
    obtain ⟨l₁, hleads, hresumes⟩ := h t List.mem_cons_self true m m c before (around m level outer) _ hc hnext
      (Nat.le_refl m) (by omega) (fun _ => hcolumn)
    obtain ⟨l', hleads', hresumes'⟩ := ih (fun t ht => h t (List.mem_cons_of_mem _ ht)) hresumes (Nat.le_refl (m + 1))
    refine ⟨l', (hdash.trans hleads).trans hleads', ?_⟩
    rw [opened_same, around_same] at hresumes'
    simpa [before, itemTokens] using hresumes'

/-- the end of a value that is a block of its own -/
theorem Resumes.end_ {inside : List Token} (h : Resumes l (m + 3) n rest (ts ++ inside) (m + 3) ((m + 1) :: outer)) :
    Resumes l (m + 1) n rest (ts ++ (inside ++ [.blockEnd])) (m + 1) outer := by
  refine h.close (by omega) fun c => ?_
  rw [closeTo_block (by omega) (Nat.le_refl _), List.append_assoc]

theorem lays_list {items : List Tree} (h : ∀ t ∈ items, Lays t) : Lays (.list .items items) := by
  intro inList m n c ts outer rest hc hrest hn hdeep hcolumn
  rw [blockTokens]
  cases items with
  | nil =>
    have htext : valueText inList m (.list .items []) = [' ', '[', ']', '\n'] := by
      cases inList <;> simp [valueText, itemValue, fieldValue]
    rw [htext] at hc
    exact empty_value false hc hrest hdeep
  | cons t items =>
    have hdash : ∀ more, AtToken ('-' :: more) := fun more x hx => by cases hx; exact ⟨rfl, by decide, by decide⟩
    cases inList with
    | false =>
      have htext : valueText false m (.list .items (t :: items)) = '\n' :: (listItems m (t :: items)).toList := by
        simp [valueText, fieldValue]
      rw [htext, listItems_cons] at hc
      simp only [List.append_assoc, List.cons_append] at hc
      have hline : Resumes (block c ts (m + 1) outer false none) (m + 1) m _ ts (m + 1) outer :=
        resumes_line (hdash _) hc (by simp) (Nat.le_refl _)
      obtain ⟨l', hleads, hresumes⟩ := hline.items h hrest hn (Nat.le_refl _)
      rw [opened_same, around_same, List.append_nil] at hresumes
      exact ⟨l', hleads, hresumes⟩
    | true =>
      have htext : valueText true m (.list .items (t :: items)) = '\n' :: (listItems (m + 2) (t :: items)).toList := by
        simp [valueText, itemValue]
      rw [htext, listItems_cons] at hc
      simp only [List.append_assoc, List.cons_append] at hc
      have hline : Resumes (block c ts (m + 1) outer true none) (m + 3) (m + 2) _ ts (m + 1) outer :=
        resumes_line (hdash _) hc (by simp) (Nat.le_add_right (m + 1) 2)
      obtain ⟨l', hleads, hresumes⟩ := hline.items h hrest (Nat.le_trans hn (Nat.le_add_right m 2))
        (Nat.le_add_right (m + 1) 2)
      rw [opened_inner, around_inner, List.append_assoc] at hresumes
      exact ⟨l', hleads, hresumes.end_⟩

theorem lays_table {fields : List (String × Tree)} (h : ∀ f ∈ fields, isWord f.1 = true ∧ Lays f.2) :
    Lays (.table fields) := by
  intro inList m n c ts outer rest hc hrest hn hdeep hcolumn
  rw [blockTokens]
  cases fields with
  | nil =>
    have htext : valueText inList m (.table []) = [' ', '\x7b', '\x7d', '\n'] := by
      cases inList <;> simp [valueText, itemValue, fieldValue]
    rw [htext] at hc
    exact empty_value true hc hrest hdeep
  | cons f fields =>
    have hstart : AtToken ((tableFields (m + 2) (f :: fields)).toList ++ (List.replicate n ' ' ++ rest)) := by
      obtain ⟨x, xs, hcs, halpha, -⟩ := exists_letters (h f List.mem_cons_self).1
      rw [tableFields_cons, hcs]
      exact atToken_of_alpha (halpha x List.mem_cons_self)
    have hfirst : Resumes (block c ts (m + 1) outer inList none) (m + 3) (m + 2)
        ((tableFields (m + 2) (f :: fields)).toList ++ (List.replicate n ' ' ++ rest)) ts (m + 1) outer := by
      cases inList with
      | false =>
        have htext : valueText false m (.table (f :: fields)) =
            '\n' :: (List.replicate (m + 2) ' ' ++ (tableFields (m + 2) (f :: fields)).toList) := by
          simp [valueText, fieldValue, indent, indentation]
        rw [htext] at hc
        simp only [List.append_assoc, List.cons_append] at hc
        exact resumes_line hstart hc (by simp) (Nat.le_add_right (m + 1) 2)
      | true =>
        have htext : valueText true m (.table (f :: fields)) = ' ' :: (tableFields (m + 2) (f :: fields)).toList := by
          simp [valueText, itemValue]
        rw [htext] at hc
        have hblank : Resumes (block c ts (m + 1) outer true none) (m + 3) (c.column + 1) _ ts (m + 1) outer :=
          resumes_blank hstart hc (Nat.le_add_right (m + 1) 2)
        rwa [hcolumn rfl] at hblank
    obtain ⟨l', hleads, hresumes⟩ := hfirst.fields (List.cons_ne_nil _ _) h hrest (Nat.le_trans hn (Nat.le_add_right m 2))
      (Nat.le_add_right (m + 1) 2)
    rw [opened_inner, around_inner, List.append_assoc] at hresumes
    exact ⟨l', hleads, hresumes.end_⟩

/-- **The lines of a tree** have its tokens, wherever they stand. -/
theorem lays_of_written {P : String → Prop} {t : Tree} (h : t.Written P) : Lays t := by
  induction h with
  | text _ => exact lays_text _
  | list _ ih => exact lays_list ih
  | table hkeys _ ih => exact lays_table fun f hf => ⟨hkeys f hf, ih f hf⟩

end

end Gleaner.Yaml.Layout
