/-
How a text is cut into tokens, step by step.

A step goes to the next token, ends the blocks that are indented deeper than it, and reads it. `Settled` layouts have
the first two behind them, so that what a step does is told by the character they stand at (`step_quote`, `step_colon`,
`step_dash` and so on). `Leads` joins steps: a layout leads to another if its tokens are those of the other whenever
there is one unit of fuel for each character.

Results:
- `settle_blanks`, `settle_line`: the place of the next token on the same line and on the next one;
- `closeTo_closeTo`: blocks are ended in one go or one by one;
- `run_of_leads`: the tokens of a layout that leads to the end of the text.
-/
import Gleaner.Proofs.Quotes
import Gleaner.Yaml.Printer
import Gleaner.Yaml.Token

namespace Gleaner.Yaml

/-- what stands at the beginning of a token -/
def AtToken (cs : List Char) : Prop := ∀ x ∈ cs.head?, isInk x = true ∧ x ≠ '#' ∧ x ≠ '\ufeff'

theorem AtToken.inked {cs : List Char} (h : AtToken cs) : Inked cs := fun x hx => (h x hx).1

namespace Layout

variable {l l' : Layout} {fuel k : Nat} {rest : List Char}

/-! ## The next token -/

theorem skipWhile_blanks {c : Cursor} {p : Char → Bool} (hp : p ' ' = true) (hrest : ∀ x ∈ rest.head?, p x = false)
    (hc : c.rest = List.replicate k ' ' ++ rest) : c.skipWhile p = c.skip k := by
  have htake := Cursor.takeWhile_eq hc (fun x hx => by rw [List.eq_of_mem_replicate hx, hp]) hrest
  rw [Cursor.skipWhile, htake, List.length_replicate]

theorem skipToToken_blanks (h : AtToken rest) (hc : l.cursor.rest = List.replicate k ' ' ++ rest) :
    skipToToken (fuel + 1) l = { l with cursor := l.cursor.skip k } := by
  have hbom : l.cursor.is '\ufeff' = false := by
    cases k with
    | zero =>
      rw [List.replicate_zero, List.nil_append] at hc
      cases rest with
      | nil => simp [Cursor.is, Cursor.peek, hc]
      | cons x rest =>
        rw [Cursor.is_eq hc]
        exact beq_eq_false_iff_ne.2 (h x rfl).2.2
    | succ k =>
      rw [List.replicate_succ, List.cons_append] at hc
      rw [Cursor.is_eq hc]
      rfl
  have hskip : l.cursor.skipWhile (fun x => decide (x = ' ') || ((l.inFlow || !l.keyAllowed) && decide (x = '\t'))) =
      l.cursor.skip k := by
    refine skipWhile_blanks rfl (fun x hx => ?_) hc
    have hink := (h x hx).1
    simp only [isInk, isBlank, Bool.not_or, Bool.and_eq_true, Bool.not_eq_true', decide_eq_false_iff_not] at hink
    simp [hink.1]
  have hafter : (l.cursor.skip k).rest = rest := Cursor.skip_blanks hc
  have hsign : (l.cursor.skip k).is '#' = false := by
    cases rest with
    | nil => simp [Cursor.is, Cursor.peek, hafter]
    | cons x rest =>
      rw [Cursor.is_eq hafter]
      exact beq_eq_false_iff_ne.2 (h x rfl).2.1
  have hbreak : (l.cursor.skip k).lineBreak? = none := by
    refine Cursor.lineBreak?_none fun x hx => ?_
    rw [hafter] at hx
    exact Inked.unbroken (fun y hy => (h y hy).1) x hx
  rw [skipToToken]
  simp only [hbom, Bool.and_false, Bool.false_eq_true, if_false, hskip, hsign, hbreak]

theorem skipToToken_line (h : AtToken rest) (hc : l.cursor.rest = '\n' :: (List.replicate k ' ' ++ rest)) :
    skipToToken (fuel + 2) l =
      { l with cursor := (l.cursor.newLine (List.replicate k ' ' ++ rest)).skip k,
               keyAllowed := l.keyAllowed || !l.inFlow } := by
  have hbom : l.cursor.is '\ufeff' = false := by
    rw [Cursor.is_eq hc]
    rfl
  have hsign : l.cursor.is '#' = false := by
    rw [Cursor.is_eq hc]
    rfl
  have hskip : l.cursor.skipWhile (fun x => decide (x = ' ') || ((l.inFlow || !l.keyAllowed) && decide (x = '\t'))) =
      l.cursor :=
    skipWhile_blanks (k := 0) rfl (fun x hx => by cases hx; simp) hc
  rw [skipToToken]
  simp only [hbom, Bool.and_false, Bool.false_eq_true, if_false, hskip, hsign, Cursor.lineBreak?_own hc rfl]
  exact skipToToken_blanks h rfl

/-! ## Possible keys -/

/-- no place is one where only a key can stand -/
def Free (l : Layout) : Prop := ∀ key ∈ l.key :: l.outerKeys, ∀ place ∈ key, place.required = false

/-- a possible key, unless its colon would come too late -/
def freshKey (c : Cursor) (key : Option KeyPlace) : Option KeyPlace := if key.any (isStale c) then none else key

theorem dropStale_free (h : l.Free) :
    l.dropStale = .ok { l with key := freshKey l.cursor l.key, outerKeys := l.outerKeys.map (freshKey l.cursor) } := by
  have hnone : ((l.key :: l.outerKeys).any fun k => k.any (isStale l.cursor) && k.any (·.required)) = false := by
    rw [List.any_eq_false]
    intro key hkey
    cases key with
    | none => exact Bool.false_ne_true
    | some place => simp [h _ hkey place rfl]
  rw [dropStale]
  simp only [hnone, Bool.false_eq_true, if_false]
  rfl

/-- nothing is given up as long as no colon comes too late -/
theorem dropStale_fresh (h : ∀ key ∈ l.key :: l.outerKeys, key.any (isStale l.cursor) = false) : l.dropStale = .ok l := by
  have hnone : ((l.key :: l.outerKeys).any fun k => k.any (isStale l.cursor) && k.any (·.required)) = false := by
    rw [List.any_eq_false]
    intro key hkey
    rw [h key hkey]
    exact Bool.false_ne_true
  have houter : (l.outerKeys.map fun k => if k.any (isStale l.cursor) then none else k) = l.outerKeys := by
    conv_rhs => rw [← List.map_id l.outerKeys]
    refine List.map_congr_left fun key hkey => ?_
    rw [h key (List.mem_cons_of_mem _ hkey)]
    rfl
  rw [dropStale]
  simp only [hnone, Bool.false_eq_true, if_false, h l.key List.mem_cons_self, houter]

theorem dropKey_free (h : ∀ place ∈ l.key, place.required = false) : l.dropKey = .ok { l with key := none } := by
  have hnone : l.key.any (·.required) = false := by
    cases hkey : l.key with
    | none => rfl
    | some place => exact h place hkey
  rw [dropKey, hnone, if_neg Bool.false_ne_true]

/-! ## Blocks that end -/

theorem closeTo_low {target : Nat} (h : l.level ≤ target) : l.closeTo target = l := by
  unfold closeTo closeBlocks
  rw [if_pos (by simp [h])]

theorem closeTo_flow (target : Nat) (h : l.inFlow = true) : l.closeTo target = l := by
  unfold closeTo closeBlocks
  rw [if_pos (by simp [h])]

/-- no block begins between brackets -/
theorem openBlock_flow {column : Nat} {at? : Option Nat} {t : Token} (h : l.inFlow = true) :
    l.openBlock column at? t = l := by
  unfold openBlock
  rw [h, Bool.true_or, if_pos rfl]

theorem closeBlocks_closeTo {target target' : Nat} (h : target' ≤ target) (outer : List Nat) (houter : l.outer = outer) :
    (closeBlocks target outer l).closeTo target' = closeBlocks target' outer l := by
  induction outer generalizing l with
  | nil =>
    rw [closeBlocks]
    split
    · rw [closeTo, houter]
    · next hopen =>
      have hopen' : ¬ (l.inFlow || decide (l.level ≤ target')) = true := by
        simp only [Bool.or_eq_true, decide_eq_true_eq, not_or, Bool.not_eq_true] at hopen ⊢
        exact ⟨hopen.1, by omega⟩
      rw [closeTo_low (Nat.zero_le _), closeBlocks, if_neg hopen']
  | cons level outer ih =>
    rw [closeBlocks]
    split
    · rw [closeTo, houter]
    · next hopen =>
      have hopen' : ¬ (l.inFlow || decide (l.level ≤ target')) = true := by
        simp only [Bool.or_eq_true, decide_eq_true_eq, not_or, Bool.not_eq_true] at hopen ⊢
        exact ⟨hopen.1, by omega⟩
      rw [closeBlocks, if_neg hopen']
      exact ih rfl

/-- blocks are ended in one go or one by one -/
theorem closeTo_closeTo {target target' : Nat} (h : target' ≤ target) :
    (l.closeTo target).closeTo target' = l.closeTo target' :=
  closeBlocks_closeTo h l.outer rfl

/-- the end of a block changes neither the place nor the possible keys -/
theorem closeTo_frame (target : Nat) :
    (l.closeTo target).cursor = l.cursor ∧ (l.closeTo target).keyAllowed = l.keyAllowed ∧
      (l.closeTo target).key = l.key ∧ (l.closeTo target).outerKeys = l.outerKeys := by
  have hframe : ∀ outer (l : Layout), (closeBlocks target outer l).cursor = l.cursor ∧
      (closeBlocks target outer l).keyAllowed = l.keyAllowed ∧ (closeBlocks target outer l).key = l.key ∧
      (closeBlocks target outer l).outerKeys = l.outerKeys := by
    intro outer
    induction outer with
    | nil =>
      intro l
      rw [closeBlocks]
      split <;> exact ⟨rfl, rfl, rfl, rfl⟩
    | cons level outer ih =>
      intro l
      rw [closeBlocks]
      split
      · exact ⟨rfl, rfl, rfl, rfl⟩
      · exact ih _
  exact hframe l.outer l

/-! ## Steps -/

/-- layouts that stand at the next token, all deeper blocks having ended -/
structure Settled (l : Layout) : Prop where
  skip : skipToToken (l.cursor.rest.length + 1) l = l
  stale : l.dropStale = .ok l
  close : l.closeTo (l.cursor.column + 1) = l

section

variable {x : Char}

/-- goes to the next token -/
def settle (l : Layout) : Except YamlError Layout := (skipToToken (l.cursor.rest.length + 1) l).dropStale

theorem Settled.of_token (h : AtToken l.cursor.rest)
    (hfresh : ∀ key ∈ l.key :: l.outerKeys, key.any (isStale l.cursor) = false)
    (hclose : l.closeTo (l.cursor.column + 1) = l) : l.Settled :=
  ⟨skipToToken_blanks (k := 0) h rfl, dropStale_fresh hfresh, hclose⟩

/-- the next token on the same line -/
theorem settle_blanks (hfree : l.Free) (h : AtToken rest) (hc : l.cursor.rest = List.replicate k ' ' ++ rest) :
    l.settle = .ok { l with cursor := l.cursor.skip k, key := freshKey (l.cursor.skip k) l.key,
                            outerKeys := l.outerKeys.map (freshKey (l.cursor.skip k)) } := by
  rw [settle, skipToToken_blanks h hc]
  exact dropStale_free hfree

/-- the next token on the next line -/
theorem settle_line (hfree : l.Free) (h : AtToken rest)
    (hc : l.cursor.rest = '\n' :: (List.replicate k ' ' ++ rest)) :
    l.settle =
      (let c := (l.cursor.newLine (List.replicate k ' ' ++ rest)).skip k
       .ok { l with cursor := c, keyAllowed := l.keyAllowed || !l.inFlow, key := freshKey c l.key,
                    outerKeys := l.outerKeys.map (freshKey c) }) := by
  have hlength : l.cursor.rest.length + 1 = (List.replicate k ' ' ++ rest).length + 2 := by rw [hc]; rfl
  rw [settle, hlength, skipToToken_line h hc]
  exact dropStale_free hfree

/-- a step begins at the next token -/
theorem step_of_settle {l₁ l₂ : Layout} (hsettle : l.settle = .ok l₁)
    (hclose : l₁.closeTo (l₁.cursor.column + 1) = l₂) (h : l₂.Settled) : l.step = l₂.step := by
  have hcursor : l₂.cursor = l₁.cursor := by rw [← hclose, (closeTo_frame _).1]
  have hclose₂ := h.close
  have hskip₂ := h.skip
  rw [hcursor] at hclose₂ hskip₂
  rw [settle] at hsettle
  rw [step, step]
  simp only [hsettle, hskip₂, h.stale, hcursor, bind, Except.bind, hclose, hclose₂]

theorem peekAt_one (hc : l.cursor.rest = x :: rest) : l.cursor.peekAt 1 = rest.head? := by
  rw [Cursor.peekAt, hc]
  cases rest <;> rfl

theorem marks_of_any (h : l.cursor.atAnyDocumentMark = false) :
    l.cursor.atDocumentMark '-' = false ∧ l.cursor.atDocumentMark '.' = false :=
  Bool.or_eq_false_iff.1 h

theorem step_colon (h : l.Settled) (hc : l.cursor.rest = ':' :: rest) (hnext : (l.inFlow || isGap rest.head?) = true) :
    l.step = l.value.map some := by
  have hmarks := marks_of_any (not_mark_of_head hc (by decide) (by decide))
  rw [step]
  simp only [h.skip, h.stale, h.close, bind, Except.bind, Cursor.peek_eq hc, peekAt_one hc, hmarks, hnext]
  simp
  cases l.value <;> rfl

theorem step_dash (h : l.Settled) (hc : l.cursor.rest = '-' :: rest) (hnext : isGap rest.head? = true) :
    l.step = l.listEntry.map some := by
  have hmark : l.cursor.atAnyDocumentMark = false := by
    have hthree : rest.take 2 ≠ ['-', '-'] := by
      intro htake
      cases rest with
      | nil => cases htake
      | cons y rest =>
        obtain ⟨rfl, -⟩ := List.cons.inj htake
        cases hnext
    simp [Cursor.atAnyDocumentMark, Cursor.atDocumentMark, hc, hthree]
  have hmarks := marks_of_any hmark
  rw [step]
  simp only [h.skip, h.stale, h.close, bind, Except.bind, Cursor.peek_eq hc, peekAt_one hc, hmarks, hnext]
  simp
  cases l.listEntry <;> rfl

theorem step_bar (h : l.Settled) (hc : l.cursor.rest = '|' :: rest) (hflow : l.inFlow = false) :
    l.step = (do
      let l ← l.dropKey
      let (s, c) ← readBlock l.level l.cursor
      return some { l.push (.text s false) with cursor := c, keyAllowed := true }) := by
  have hmarks := marks_of_any (not_mark_of_head hc (by decide) (by decide))
  rw [step]
  simp only [h.skip, h.stale, h.close, bind, Except.bind, Cursor.peek_eq hc, peekAt_one hc, hmarks, hflow]
  simp

/-- a step at a block of text, by what is read there -/
theorem step_bar_eq_map {l' : Layout} (h : l.Settled) (hc : l.cursor.rest = '|' :: rest) (hflow : l.inFlow = false)
    (hdrop : l.dropKey = .ok l') :
    l.step = (readBlock l'.level l'.cursor).map fun found =>
      some { l'.push (.text found.1 false) with cursor := found.2, keyAllowed := true } := by
  rw [step_bar h hc hflow, hdrop]
  simp only [bind, Except.bind]
  cases readBlock l'.level l'.cursor <;> rfl

theorem step_quote {single : Bool} (h : l.Settled) (hc : l.cursor.rest = quoteMark single :: rest) :
    l.step = (l.keyLike fun c => do let (s, c) ← readQuoted c; return (.text s false, c)).map some := by
  have hmarks := marks_of_any
    (not_mark_of_head hc (by cases single <;> decide) (by cases single <;> decide))
  rw [step]
  simp only [h.skip, h.stale, h.close, bind, Except.bind, Cursor.peek_eq hc, peekAt_one hc, hmarks]
  cases single <;>
  · simp [quoteMark]
    split <;> simp [*] <;> rfl

/-- a step at a quoted text, by what is read there -/
theorem step_quote_eq_map {single : Bool} {l' : Layout} (h : l.Settled)
    (hc : l.cursor.rest = quoteMark single :: rest) (hnote : l.noteKey = .ok l') :
    l.step = (readQuoted l'.cursor).map fun found =>
      some { l'.push (.text found.1 false) with cursor := found.2, keyAllowed := false } := by
  rw [step_quote h hc, keyLike, hnote]
  simp only [bind, Except.bind, pure, Except.pure]
  cases readQuoted l'.cursor <;> rfl

theorem plainText_eq_map {l' : Layout} (hnote : l.noteKey = .ok l') :
    l.plainText = (readPlain l'.inFlow l'.level l'.cursor).map fun found =>
      { l'.push (.text found.1 true) with cursor := found.2.2, keyAllowed := found.2.1 } := by
  rw [plainText, hnote]
  simp only [bind, Except.bind]
  cases readPlain l'.inFlow l'.level l'.cursor <;> rfl

/-- a character that begins a plain text -/
theorem startsPlain_of_first (hc : l.cursor.rest = x :: rest) (hflow : l.inFlow = false)
    (hx : isIndicatorAt true true (isGap rest.head?) x = false) : l.startsPlain = true := by
  simp only [isIndicatorAt, if_true, Bool.or_eq_false_iff] at hx
  simp at hx
  obtain ⟨hother, hgap⟩ := hx
  have hblank : isGap rest.head? = false → rest.head?.any isBlank = false := by
    intro hnext
    cases hrest : rest.head? with
    | none => rfl
    | some y =>
      simp only [hrest, isGap, Option.all_some, Bool.or_eq_false_iff] at hnext
      exact hnext.1
  rw [startsPlain, Cursor.peek_eq hc, peekAt_one hc, hflow]
  by_cases hspecial : x = '?' ∨ x = ':' ∨ x = '-'
  · have hnext := hgap hspecial
    rcases hspecial with rfl | rfl | rfl <;> simp [hnext, hblank hnext]
  · simp only [not_or] at hspecial
    have hplain : isIndicator x = false := by
      simp [isIndicator, hother, hspecial]
    simp [hplain]

theorem step_plain (h : l.Settled) (hc : l.cursor.rest = x :: rest) (hmark : l.cursor.atAnyDocumentMark = false)
    (hflow : l.inFlow = false) (hx : isIndicatorAt true true (isGap rest.head?) x = false) :
    l.step = l.plainText.map some := by
  have hmarks := marks_of_any hmark
  have hstarts := startsPlain_of_first hc hflow hx
  simp only [isIndicatorAt, if_true, Bool.or_eq_false_iff] at hx
  simp at hx
  obtain ⟨hother, hgap⟩ := hx
  have hdash : (decide (x = '-') && isGap rest.head?) = false := by
    rw [Bool.and_eq_false_iff, decide_eq_false_iff_not]
    by_cases heq : x = '-'
    · exact .inr (hgap (.inr (.inr heq)))
    · exact .inl heq
  have hquestion : (decide (x = '?') && isGap rest.head?) = false := by
    rw [Bool.and_eq_false_iff, decide_eq_false_iff_not]
    by_cases heq : x = '?'
    · exact .inr (hgap (.inl heq))
    · exact .inl heq
  have hcolon : (decide (x = ':') && isGap rest.head?) = false := by
    rw [Bool.and_eq_false_iff, decide_eq_false_iff_not]
    by_cases heq : x = ':'
    · exact .inr (hgap (.inr (.inl heq)))
    · exact .inl heq
  rw [step]
  simp only [h.skip, h.stale, h.close, bind, Except.bind, Cursor.peek_eq hc, peekAt_one hc, hmarks, hflow, Bool.false_or,
    hdash, hquestion, hcolon, hother, hstarts, Bool.false_eq_true, if_false, if_true, decide_false, Bool.and_false]
  cases l.plainText <;> rfl

/-! ### Brackets -/

def openMark (table : Bool) : Char := if table then '\x7b' else '['

def closeMark (table : Bool) : Char := if table then '\x7d' else ']'

def startToken (table : Bool) : Token := if table then .flowTableStart else .flowListStart

def endToken (table : Bool) : Token := if table then .flowTableEnd else .flowListEnd

theorem step_open {table : Bool} (h : l.Settled) (hc : l.cursor.rest = openMark table :: rest) :
    l.step = (l.openFlow (startToken table)).map some := by
  have hmarks := marks_of_any (not_mark_of_head hc (by cases table <;> decide) (by cases table <;> decide))
  rw [step]
  simp only [h.skip, h.stale, h.close, bind, Except.bind, Cursor.peek_eq hc, peekAt_one hc, hmarks]
  cases table <;>
  · simp [openMark, startToken]
    split <;> simp [*] <;> rfl

theorem step_close {table : Bool} (h : l.Settled) (hc : l.cursor.rest = closeMark table :: rest) :
    l.step = (l.closeFlow (endToken table)).map some := by
  have hmarks := marks_of_any (not_mark_of_head hc (by cases table <;> decide) (by cases table <;> decide))
  rw [step]
  simp only [h.skip, h.stale, h.close, bind, Except.bind, Cursor.peek_eq hc, peekAt_one hc, hmarks]
  cases table <;>
  · simp [closeMark, endToken]
    split <;> simp [*] <;> rfl

theorem step_comma (h : l.Settled) (hc : l.cursor.rest = ',' :: rest) :
    l.step = l.dropKey.map fun l => some ({ l with keyAllowed := true }.take 1 .flowEntry) := by
  have hmarks := marks_of_any (not_mark_of_head hc (by decide) (by decide))
  rw [step]
  simp only [h.skip, h.stale, h.close, bind, Except.bind, Cursor.peek_eq hc, peekAt_one hc, hmarks]
  simp
  cases l.dropKey <;> rfl

end

theorem insertIdx_behind (ts us : List Token) (t : Token) : (ts ++ us).insertIdx ts.length t = ts ++ t :: us := by
  induction ts with
  | nil => rfl
  | cons t' ts ih => rw [List.cons_append, List.length_cons, List.insertIdx_succ_cons, ih, List.cons_append]

/-! ## Runs -/

/-- one layout comes from another by steps, each of which reads a character at least -/
def Leads (l l' : Layout) : Prop :=
  ∃ k, k + l'.cursor.rest.length ≤ l.cursor.rest.length ∧ ∀ fuel, run (fuel + k) l = run fuel l'

/-- the text is refused -/
def Fails (l : Layout) : Prop := ∀ fuel, l.cursor.rest.length < fuel → ∃ e, run fuel l = .error e

theorem Leads.refl (l : Layout) : Leads l l := ⟨0, by omega, fun _ => rfl⟩

theorem Leads.trans {l₁ l₂ l₃ : Layout} (h : Leads l₁ l₂) (h' : Leads l₂ l₃) : Leads l₁ l₃ := by
  obtain ⟨k, hlength, hrun⟩ := h
  obtain ⟨k', hlength', hrun'⟩ := h'
  refine ⟨k' + k, by omega, fun fuel => ?_⟩
  rw [← Nat.add_assoc, hrun, hrun']

theorem Leads.of_step (h : l.step = .ok (some l')) (hlength : l'.cursor.rest.length < l.cursor.rest.length) :
    Leads l l' := by
  refine ⟨1, by omega, fun fuel => ?_⟩
  rw [run, h]
  rfl

theorem Fails.of_step {e : YamlError} (h : l.step = .error e) : Fails l := by
  intro fuel hfuel
  obtain ⟨fuel, rfl⟩ : ∃ n, fuel = n + 1 := ⟨fuel - 1, by omega⟩
  exact ⟨e, by rw [run, h]; rfl⟩

theorem Leads.fails (h : Leads l l') (h' : Fails l') : Fails l := by
  obtain ⟨k, hlength, hrun⟩ := h
  intro fuel hfuel
  obtain ⟨n, rfl⟩ : ∃ n, fuel = n + k := ⟨fuel - k, by omega⟩
  rw [hrun]
  exact h' n (by omega)

/-- **The end of a text**: all blocks end, and no key may be waited for. -/
theorem run_of_leads {l₁ : Layout} (h : Leads l l') (hsettle : l'.settle = .ok l₁) (hrest : l₁.cursor.rest = [])
    (hfuel : l.cursor.rest.length < fuel) : run fuel l = (l₁.closeTo 0).dropKey := by
  obtain ⟨k, hlength, hrun⟩ := h
  obtain ⟨n, rfl⟩ : ∃ n, fuel = n + 1 + k := ⟨fuel - k - 1, by omega⟩
  have hpeek : l₁.cursor.peek = none := by rw [Cursor.peek, hrest]; rfl
  have hstep : l'.step = .ok none := by
    rw [settle] at hsettle
    rw [step]
    simp only [hsettle, bind, Except.bind, (closeTo_frame _).1, hpeek]
    rfl
  rw [settle] at hsettle
  rw [hrun, run, hstep]
  simp only [bind, Except.bind, hsettle]

end Layout

end Gleaner.Yaml
