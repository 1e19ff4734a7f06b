/-
Texts that are read back from between quotes.

What stands between the quotes is made of characters that end nothing (`Solid`), of blanks, and of line separators with
the indentation behind them (`Quoted`). A reader gets the text back that way, since blanks and separators never touch:
what lies between two words is either blanks or separators (`readGap_blanks`, `readGap_breaks`). Where a separator has
no indentation behind it, the line behind it may look like the end of a document; then the text is refused.

Results:
- `readQuoted_quoted`: what is read is the text, or nothing at all;
- `readQuoted_word`: words, and the place behind them.
-/
import Gleaner.Yaml.Scalar
import Mathlib

namespace Gleaner.Yaml

/-! ## Characters -/

/-- a line break that counts as itself -/
def isOwnBreak (c : Char) : Bool := c = '\n' || c.toNat = 0x2028 || c.toNat = 0x2029

/-- a character that is no blank and no line break -/
def isInk (c : Char) : Bool := !isBlank c && !isBreak c

theorem range_of_alpha {x : Char} (h : x.isAlpha = true) : 65 ≤ x.toNat ∧ x.toNat ≤ 122 := by
  simp only [Char.isAlpha, Char.isUpper, Char.isLower, Bool.or_eq_true, Bool.and_eq_true, decide_eq_true_eq] at h
  rcases h with ⟨hlow, hhigh⟩ | ⟨hlow, hhigh⟩
  · exact ⟨UInt32.le_iff_toNat_le.1 hlow, Nat.le_trans (UInt32.le_iff_toNat_le.1 hhigh) (by decide)⟩
  · exact ⟨Nat.le_trans (by decide) (UInt32.le_iff_toNat_le.1 hlow), UInt32.le_iff_toNat_le.1 hhigh⟩

theorem isInk_of_alpha {x : Char} (h : x.isAlpha = true) : isInk x = true := by
  have hbreak : isBreak x = false := by
    have hrange := range_of_alpha h
    have hn : x ≠ '\n' := by rintro rfl; cases h
    have hr : x ≠ '\r' := by rintro rfl; cases h
    have hother : x.toNat ≠ 0x85 ∧ x.toNat ≠ 0x2028 ∧ x.toNat ≠ 0x2029 := by omega
    simp [isBreak, hn, hr, hother]
  have hspace : x ≠ ' ' := by rintro rfl; cases h
  have htab : x ≠ '\t' := by rintro rfl; cases h
  simp [isInk, isBlank, hbreak, hspace, htab]

namespace Cursor

variable {c : Cursor} {x : Char} {rest : List Char}

theorem peek_eq (h : c.rest = x :: rest) : c.peek = some x := by rw [peek, h]; rfl

theorem is_eq (h : c.rest = x :: rest) (y : Char) : c.is y = (x == y) := by rw [is, peek_eq h]; rfl

theorem skip_rest {before : List Char} (h : c.rest = before ++ rest) : (c.skip before.length).rest = rest := by
  rw [skip, h, List.drop_left]

theorem skip_one (h : c.rest = x :: rest) : (c.skip 1).rest = rest := by rw [skip, h]; rfl

theorem skip_blanks {k : Nat} (h : c.rest = List.replicate k ' ' ++ rest) : (c.skip k).rest = rest := by
  rw [skip, h, List.drop_left' List.length_replicate]

theorem skip_skip (m n : Nat) : (c.skip m).skip n = c.skip (m + n) := by
  simp only [skip, List.drop_drop, Nat.add_assoc]

theorem takeWhile_eq {p : Char → Bool} {us : List Char} (hc : c.rest = us ++ rest) (hus : ∀ x ∈ us, p x = true)
    (hrest : ∀ x ∈ rest.head?, p x = false) : c.takeWhile p = (us, c.skip us.length) := by
  have hspan : c.rest.span p = (us, rest) := by
    rw [hc, List.span_eq_takeWhile_dropWhile, List.takeWhile_append_of_pos hus, List.dropWhile_append_of_pos hus]
    cases rest with
    | nil => simp
    | cons x rest => simp [hrest x rfl]
  rw [takeWhile, hspan]
  simp only [skip, hc, List.drop_left]

/-- the place behind a line break of one character -/
def newLine (c : Cursor) (rest : List Char) : Cursor :=
  { rest := rest, index := c.index + 1, line := c.line + 1, column := 0 }

theorem lineBreak?_own (h : c.rest = x :: rest) (hx : isOwnBreak x = true) :
    c.lineBreak? = some (x, c.newLine rest) := by
  unfold lineBreak?
  rw [h]
  simp only [isOwnBreak, Bool.or_eq_true, decide_eq_true_eq] at hx
  split
  · next heq =>
    cases heq
    rcases hx with (hx | hx) | hx <;> cases hx
  · next y ys hne heq =>
    cases heq
    rcases hx with (rfl | hx) | hx
    · simp [newLine]
    · have hn : x ≠ '\n' := by rintro rfl; cases hx
      have hr : x ≠ '\r' := by rintro rfl; cases hx
      simp [newLine, hn, hr, hx, isBreak]
    · have hn : x ≠ '\n' := by rintro rfl; cases hx
      have hr : x ≠ '\r' := by rintro rfl; cases hx
      simp [newLine, hn, hr, hx, isBreak]
  · next heq => cases heq

theorem lineBreak?_none (h : ∀ x ∈ c.rest.head?, isBreak x = false) : c.lineBreak? = none := by
  unfold lineBreak?
  split
  · next heq =>
    rw [heq] at h
    cases h '\r' rfl
  · next y ys hne heq =>
    rw [heq] at h
    have hy := h y rfl
    simp only [isBreak, Bool.or_eq_false_iff, decide_eq_false_iff_not] at hy
    simp [hy, isBreak]
  · rfl

end Cursor

/-! ## Gaps -/

section

variable {indent fuel : Nat} {c : Cursor} {rest : List Char}

/-- what does not go on with a gap -/
def Inked (cs : List Char) : Prop := ∀ x ∈ cs.head?, isInk x = true

theorem Inked.unbroken (h : Inked rest) : ∀ x ∈ rest.head?, isBreak x = false := fun x hx => by
  have hink := h x hx
  simp only [isInk, Bool.and_eq_true, Bool.not_eq_true'] at hink
  exact hink.2

theorem readGap_end {g : Gap} (h : Inked c.rest) : readGap indent (fuel + 1) g c = .ok (g, c) := by
  rw [readGap]
  cases hrest : c.rest with
  | nil => rw [show c.peek = none by rw [Cursor.peek, hrest]; rfl]
  | cons x xs =>
    have hx : isInk x = true := h x (by rw [hrest]; rfl)
    simp only [isInk, Bool.and_eq_true, Bool.not_eq_true'] at hx
    have hbreak : c.lineBreak? = none := Cursor.lineBreak?_none (by simp [hrest, hx])
    rw [Cursor.peek_eq hrest]
    simp only [hx, hbreak, Bool.false_eq_true, if_false]

/-- blanks between two words -/
theorem readGap_blanks {k : Nat} (before : List Char) (hc : c.rest = List.replicate k ' ' ++ rest) (hrest : Inked rest)
    (hfuel : k < fuel) :
    readGap indent fuel { blanks := before } c = .ok ({ blanks := List.replicate k ' ' ++ before }, c.skip k) := by
  induction k generalizing fuel before c with
  | zero =>
    obtain ⟨fuel, rfl⟩ : ∃ n, fuel = n + 1 := ⟨fuel - 1, by omega⟩
    rw [List.replicate_zero, List.nil_append] at hc
    rw [readGap_end (hc ▸ hrest)]
    rfl
  | succ k ih =>
    obtain ⟨fuel, rfl⟩ : ∃ n, fuel = n + 1 := ⟨fuel - 1, by omega⟩
    rw [List.replicate_succ, List.cons_append] at hc
    have hnext := ih (' ' :: before) (Cursor.skip_one hc) (Nat.lt_of_succ_lt_succ hfuel)
    rw [readGap, Cursor.peek_eq hc]
    simp only [show isBlank ' ' = true from rfl, if_true, Bool.false_eq_true, if_false]
    rw [hnext, Cursor.skip_skip, Nat.add_comm 1 k, List.replicate_succ', List.append_assoc]
    rfl

/-- the indentation behind a line break -/
theorem readGap_indentation {g : Gap} (hg : g.broken = true) {k : Nat} (hc : c.rest = List.replicate k ' ' ++ rest)
    (hrest : Inked rest) (hfuel : k < fuel) : readGap indent fuel g c = .ok (g, c.skip k) := by
  induction k generalizing fuel c with
  | zero =>
    obtain ⟨fuel, rfl⟩ : ∃ n, fuel = n + 1 := ⟨fuel - 1, by omega⟩
    rw [List.replicate_zero, List.nil_append] at hc
    rw [readGap_end (hc ▸ hrest)]
    rfl
  | succ k ih =>
    obtain ⟨fuel, rfl⟩ : ∃ n, fuel = n + 1 := ⟨fuel - 1, by omega⟩
    rw [List.replicate_succ, List.cons_append] at hc
    have hnext := ih (Cursor.skip_one hc) (Nat.lt_of_succ_lt_succ hfuel)
    rw [readGap, Cursor.peek_eq hc]
    simp only [show isBlank ' ' = true from rfl, hg, if_true]
    rw [if_neg (by simp), hnext, Cursor.skip_skip, Nat.add_comm 1 k]

theorem isBlank_of_own {b : Char} (hb : isOwnBreak b = true) : isBlank b = false := by
  cases hblank : isBlank b with
  | false => rfl
  | true =>
    simp only [isBlank, Bool.or_eq_true, decide_eq_true_eq] at hblank
    rcases hblank with rfl | rfl <;> cases hb

theorem isInk_of_own {b : Char} (hb : isOwnBreak b = true) : isInk b = false := by
  have hbreak : isBreak b = true := by
    simp only [isOwnBreak, Bool.or_eq_true, decide_eq_true_eq] at hb
    simp only [isBreak, Bool.or_eq_true, decide_eq_true_eq]
    tauto
  rw [isInk, hbreak, Bool.not_true, Bool.and_false]

/-- further line breaks, and the indentation behind them -/
theorem readGap_moreBreaks {bs : List Char} (first more : List Char) (hbs : ∀ b ∈ bs, isOwnBreak b = true) {k : Nat}
    (hcolumn : c.column = 0) (hc : c.rest = bs ++ (List.replicate k ' ' ++ rest)) (hrest : Inked rest)
    (hfuel : bs.length + k < fuel) :
    ∃ c', readGap indent fuel { broken := true, first := first, more := more } c =
        .ok ({ broken := true, first := first, more := bs.reverse ++ more }, c') ∧
      c'.rest = rest ∧ c'.line = c.line + bs.length ∧ c.index ≤ c'.index ∧ c'.column = k := by
  induction bs generalizing fuel c more with
  | nil =>
    refine ⟨c.skip k, readGap_indentation rfl hc hrest (by simpa using hfuel), ?_, rfl, Nat.le_add_right _ _, ?_⟩
    · exact Cursor.skip_blanks hc
    · simp only [Cursor.skip, hcolumn, Nat.zero_add]
  | cons b bs ih =>
    obtain ⟨fuel, rfl⟩ : ∃ n, fuel = n + 1 := ⟨fuel - 1, by omega⟩
    rw [List.cons_append] at hc
    have hb := hbs b List.mem_cons_self
    have hlt : bs.length + k < fuel := by
      rw [List.length_cons] at hfuel
      omega
    obtain ⟨c', hread, hafter, hline, hindex, hend⟩ :=
      ih (c := c.newLine (bs ++ (List.replicate k ' ' ++ rest))) (b :: more)
        (fun b hb => hbs b (List.mem_cons_of_mem _ hb)) rfl rfl hlt
    refine ⟨c', ?_, hafter, ?_, ?_, hend⟩
    · rw [readGap, Cursor.peek_eq hc]
      simp only [isBlank_of_own hb, Cursor.lineBreak?_own hc hb, Bool.false_eq_true, if_false, if_true]
      rw [hread, List.reverse_cons, List.append_assoc]
      rfl
    · rw [hline, List.length_cons]
      simp only [Cursor.newLine]
      omega
    · simp only [Cursor.newLine] at hindex
      omega

/-- line breaks between two words, and the indentation behind them -/
theorem readGap_breaks (limit : Nat) (blanks : List Char) {b : Char} {bs : List Char}
    (hbs : ∀ x ∈ b :: bs, isOwnBreak x = true) {k : Nat} (hc : c.rest = b :: (bs ++ (List.replicate k ' ' ++ rest)))
    (hrest : Inked rest) (hfuel : bs.length + k + 1 < fuel) :
    ∃ c', readGap limit fuel { blanks := blanks } c =
        .ok ({ broken := true, first := [b], more := bs.reverse }, c') ∧
      c'.rest = rest ∧ c'.line = c.line + bs.length + 1 ∧ c.index < c'.index ∧ c'.column = k := by
  obtain ⟨fuel, rfl⟩ : ∃ n, fuel = n + 1 := ⟨fuel - 1, by omega⟩
  have hb := hbs b List.mem_cons_self
  obtain ⟨c', hread, hafter, hline, hindex, hend⟩ :=
    readGap_moreBreaks (c := c.newLine (bs ++ (List.replicate k ' ' ++ rest))) [b] []
      (fun x hx => hbs x (List.mem_cons_of_mem _ hx)) rfl rfl hrest (Nat.lt_of_succ_lt_succ hfuel)
  refine ⟨c', ?_, hafter, ?_, ?_, hend⟩
  · rw [readGap, Cursor.peek_eq hc]
    simp only [isBlank_of_own hb, Cursor.lineBreak?_own hc hb, Bool.false_eq_true, if_false]
    rw [hread, List.append_nil]
  · rw [hline]
    simp only [Cursor.newLine]
    omega
  · simp only [Cursor.newLine] at hindex
    omega

end

/-! ## Characters between quotes -/

def quoteMark (single : Bool) : Char := if single then '\'' else '"'

/-- how a character that ends nothing stands between quotes -/
inductive Solid (single : Bool) : Char → List Char → Prop where
  | plain {x : Char} (hink : isInk x = true) (hquote : x ≠ quoteMark single) (hslash : single = false → x ≠ '\\') :
      Solid single x [x]
  | doubled (h : single = true) : Solid single '\'' ['\'', '\'']
  | escaped {x : Char} {e : List Char} (h : single = false)
      (he : ∀ rest, readEscape (e ++ rest) = .ok (x, e.length)) : Solid single x ('\\' :: e)

/-- what ends a run of solid characters -/
def EndsRun (single : Bool) (cs : List Char) : Prop :=
  (∀ x ∈ cs.head?, isInk x = true → x = quoteMark single) ∧ (single = true → cs.take 2 ≠ ['\'', '\''])

section

variable {single : Bool} {fuel : Nat} {acc rest : List Char} {c : Cursor}

theorem readEscape_break {y : Char} {cs : List Char} (h : isBreak y = true) :
    readEscape (y :: cs) = .error .badEscape := by
  have hshort : shortEscape? y = none := by
    unfold shortEscape?
    split <;> first | rfl | cases h
  have hdigits : escapeDigits? y = none := by
    unfold escapeDigits?
    split <;> first | rfl | cases h
  rw [readEscape]
  simp only [hshort, hdigits]

/-- an escaped line break is no escaped character -/
theorem head_of_readEscape {cs : List Char} {x : Char} {n : Nat} (h : readEscape cs = .ok (x, n)) :
    ∀ y ∈ cs.head?, isBreak y = false := by
  intro y hy
  cases cs with
  | nil => cases hy
  | cons z zs =>
    cases hy
    cases hbreak : isBreak y with
    | false => rfl
    | true =>
      rw [readEscape_break hbreak] at h
      cases h

theorem quotedRun_solid {x : Char} {w : List Char} (hx : Solid single x w) (hc : c.rest = w ++ rest) :
    quotedRun single (fuel + 1) acc c = quotedRun single fuel (x :: acc) (c.skip w.length) := by
  rw [quotedRun]
  cases hx with
  | plain hink hquote hslash =>
    simp only [isInk, Bool.and_eq_true, Bool.not_eq_true'] at hink
    rw [List.singleton_append] at hc
    simp only [hc, hink, Bool.or_self, Bool.false_eq_true, if_false]
    cases single with
    | true => rw [if_pos rfl, if_neg (show x ≠ '\'' from hquote)]; rfl
    | false => rw [if_neg Bool.false_ne_true, if_neg (show x ≠ '"' from hquote), if_neg (hslash rfl)]; rfl
  | doubled h =>
    subst h
    simp only [hc, List.cons_append, List.nil_append]
    rfl
  | escaped h he =>
    subst h
    have hnext : (c.skip 1).lineBreak? = none := by
      refine Cursor.lineBreak?_none ?_
      rw [Cursor.skip_one hc]
      exact head_of_readEscape (he rest)
    rw [List.cons_append] at hc
    simp only [hc, hnext, he rest]
    rfl

theorem quotedRun_end (hc : EndsRun single c.rest) : quotedRun single (fuel + 1) acc c = .ok (acc, false, c) := by
  rw [quotedRun]
  cases hrest : c.rest with
  | nil => rfl
  | cons x xs =>
    rw [hrest] at hc
    simp only
    by_cases hink : isInk x = true
    · obtain rfl := hc.1 x rfl hink
      simp only [isInk, Bool.and_eq_true, Bool.not_eq_true'] at hink
      simp only [hink, Bool.or_self, Bool.false_eq_true, if_false]
      cases single with
      | false => rfl
      | true =>
        have hnext : ¬ xs.head? = some '\'' := by
          intro hhead
          obtain ⟨ys, rfl⟩ : ∃ ys, xs = '\'' :: ys := by
            cases xs with
            | nil => cases hhead
            | cons y ys => cases hhead; exact ⟨ys, rfl⟩
          exact hc.2 rfl rfl
        rw [if_pos rfl, if_pos (show quoteMark true = '\'' from rfl), if_neg hnext]
    · have hgap : (isBlank x || isBreak x) = true := by
        simp only [isInk, Bool.and_eq_true, Bool.not_eq_true', not_and_or, Bool.not_eq_false] at hink
        simpa using hink
      rw [if_pos hgap]

/-- more fuel than characters makes no difference -/
theorem quotedRun_fuel {m n : Nat} (hm : c.rest.length < m) (hn : c.rest.length < n) :
    quotedRun single m acc c = quotedRun single n acc c := by
  induction m generalizing n acc c with
  | zero => omega
  | succ m ih =>
    obtain ⟨n, rfl⟩ : ∃ k, n = k + 1 := ⟨n - 1, by omega⟩
    have hnext : ∀ k acc, c.rest ≠ [] →
        quotedRun single m acc (c.skip (k + 1)) = quotedRun single n acc (c.skip (k + 1)) := by
      intro k acc hne
      have hlength : (c.skip (k + 1)).rest.length < c.rest.length := by
        have hpos := List.length_pos_iff.2 hne
        rw [Cursor.skip, List.length_drop]
        omega
      exact ih (by omega) (by omega)
    rw [quotedRun, quotedRun]
    cases hrest : c.rest with
    | nil => rfl
    | cons x xs =>
      have hne : c.rest ≠ [] := by rw [hrest]; exact List.cons_ne_nil _ _
      have hone := fun acc => hnext 0 acc hne
      have htwo := fun acc => hnext 1 acc hne
      simp only [Nat.zero_add] at hone htwo
      simp only [hone, htwo, fun k acc => hnext k acc hne]

end

/-! ## Texts between quotes -/

/-- how a text stands between quotes: solid characters, blanks, and separators with the indentation behind them -/
inductive Quoted (single : Bool) (indent : Nat) : List Char → List Char → Prop where
  | nil : Quoted single indent [] []
  | solid {x : Char} {w q v : List Char} (hx : Solid single x w) (h : Quoted single indent q v) :
      Quoted single indent (x :: q) (w ++ v)
  | blanks {k : Nat} {q v : List Char} (hv : Inked v) (h : Quoted single indent q v) :
      Quoted single indent (List.replicate (k + 1) ' ' ++ q) (List.replicate (k + 1) ' ' ++ v)
  | breaks {b : Char} {bs q v : List Char} (hbs : ∀ x ∈ b :: bs, isOwnBreak x = true) (hb : b ≠ '\n') (hv : Inked v)
      (h : Quoted single indent q v) :
      Quoted single indent (b :: (bs ++ q)) (b :: (bs ++ (List.replicate indent ' ' ++ v)))

section

variable {single : Bool} {fuel : Nat} {acc rest : List Char} {c : Cursor}

theorem not_mark_of_head {x : Char} (hc : c.rest = x :: rest) (hdash : x ≠ '-') (hdot : x ≠ '.') :
    c.atAnyDocumentMark = false := by
  simp [Cursor.atAnyDocumentMark, Cursor.atDocumentMark, hc, hdash, hdot]

theorem not_mark_of_column (hc : 0 < c.column) : c.atAnyDocumentMark = false := by
  have hcolumn : c.column ≠ 0 := Nat.ne_of_gt hc
  simp [Cursor.atAnyDocumentMark, Cursor.atDocumentMark, hcolumn]

/-- one round of reading: a run, and then the closing quote or a gap -/
theorem readQuotedFrom_round (hmark : c.atAnyDocumentMark = false) (hc : c.rest ≠ []) :
    readQuotedFrom single (fuel + 1) acc c = (do
      let (acc, joined, c) ← quotedRun single (c.rest.length + 1) acc c
      if c.is (quoteMark single) then return (String.ofList acc.reverse, c.skip 1)
      let (gap, c) ← readGap 0 (c.rest.length + 1) { broken := joined } c
      readQuotedFrom single fuel (gap.text ++ acc) c) := by
  have hstop : (c.atAnyDocumentMark || c.rest.isEmpty) = false := by simp [hmark, hc]
  rw [readQuotedFrom]
  simp only [hstop, Bool.false_eq_true, if_false, quoteMark]
  rfl

theorem readQuotedFrom_solid {x : Char} {w : List Char} (hx : Solid single x w) (hc : c.rest = w ++ rest)
    (hmark : c.atAnyDocumentMark = false) (hrest : rest ≠ []) :
    readQuotedFrom single (fuel + 1) acc c = readQuotedFrom single (fuel + 1) (x :: acc) (c.skip w.length) := by
  have hw : 0 < w.length := by cases hx <;> exact Nat.succ_pos _
  have hafter : (c.skip w.length).rest = rest := Cursor.skip_rest hc
  have hmark' : (c.skip w.length).atAnyDocumentMark = false :=
    not_mark_of_column (Nat.lt_of_lt_of_le hw (Nat.le_add_left _ _))
  rw [readQuotedFrom_round hmark (by rw [hc]; simp [hrest]), readQuotedFrom_round hmark' (by rwa [hafter])]
  rw [quotedRun_solid hx hc, quotedRun_fuel (by rw [hafter, hc, List.length_append]; omega) (Nat.lt_succ_self _)]

/-- a gap between runs -/
theorem readQuotedFrom_gap {x : Char} (hc : c.rest = x :: rest) (hx : isInk x = false)
    (hmark : c.atAnyDocumentMark = false) {gap : Gap} {c' : Cursor}
    (hgap : readGap 0 (c.rest.length + 1) {} c = .ok (gap, c')) :
    readQuotedFrom single (fuel + 1) acc c = readQuotedFrom single fuel (gap.text ++ acc) c' := by
  have hmarkInk : isInk (quoteMark single) = true := by cases single <;> rfl
  have hends : EndsRun single c.rest := by
    rw [hc]
    refine ⟨fun y hy hink => ?_, fun _ htake => ?_⟩
    · cases hy
      rw [hx] at hink
      cases hink
    · cases rest with
      | nil => cases htake
      | cons y ys =>
        cases htake
        cases hx
  have hopen : c.is (quoteMark single) = false := by
    rw [Cursor.is_eq hc]
    refine beq_eq_false_iff_ne.2 ?_
    rintro rfl
    rw [hx] at hmarkInk
    cases hmarkInk
  rw [readQuotedFrom_round hmark (by rw [hc]; exact List.cons_ne_nil _ _), quotedRun_end hends]
  change (if c.is (quoteMark single) = true then _ else _) = _
  rw [if_neg (by rw [hopen]; exact Bool.false_ne_true), hgap]
  rfl

/-- the closing quote -/
theorem readQuotedFrom_close (hc : c.rest = quoteMark single :: rest) (hrest : single = true → rest.head? ≠ some '\'') :
    readQuotedFrom single (fuel + 1) acc c = .ok (String.ofList acc.reverse, c.skip 1) := by
  have hmark : c.atAnyDocumentMark = false := by cases single <;> exact not_mark_of_head hc (by decide) (by decide)
  have hends : EndsRun single c.rest := by
    rw [hc]
    refine ⟨fun y hy _ => ?_, fun hsingle htake => ?_⟩
    · cases hy
      rfl
    · refine hrest hsingle ?_
      cases rest with
      | nil => cases hsingle; cases htake
      | cons y ys => simp at htake; simp [htake.2]
  rw [readQuotedFrom_round hmark (by rw [hc]; exact List.cons_ne_nil _ _), quotedRun_end hends]
  change (if c.is (quoteMark single) = true then _ else _) = _
  rw [if_pos (by rw [Cursor.is_eq hc, beq_self_eq_true])]
  rfl

/-- what is read from a place between quotes: its text, or nothing if a line of it is not indented -/
def ReadsBack (single : Bool) (fuel : Nat) (acc : List Char) (c : Cursor) (indent : Nat) (q rest : List Char) : Prop :=
  (indent = 0 ∧ ∃ e, readQuotedFrom single fuel acc c = .error e) ∨
    ∃ c', readQuotedFrom single fuel acc c = .ok (String.ofList (acc.reverse ++ q), c') ∧ c'.rest = rest ∧
      c.line ≤ c'.line ∧ c.index < c'.index

/-- one round of reading, which goes on from a place further on -/
theorem ReadsBack.round {fuel' indent : Nat} {acc' q q' : List Char} {c₁ : Cursor}
    (h : ReadsBack single fuel' acc' c₁ indent q' rest)
    (hread : readQuotedFrom single fuel acc c = readQuotedFrom single fuel' acc' c₁)
    (htext : acc'.reverse ++ q' = acc.reverse ++ q) (hline : c.line ≤ c₁.line) (hindex : c.index ≤ c₁.index) :
    ReadsBack single fuel acc c indent q rest := by
  rcases h with ⟨hindent, e, he⟩ | ⟨c', hc', hrest, hline', hindex'⟩
  · exact .inl ⟨hindent, e, hread.trans he⟩
  · exact .inr ⟨c', by rw [hread, hc', htext], hrest, Nat.le_trans hline hline', Nat.lt_of_le_of_lt hindex hindex'⟩

/-- **What stands between quotes is read back.** Only a line without indentation may be refused. -/
theorem readQuotedFrom_quoted {indent : Nat} {q w : List Char} (h : Quoted single indent q w) (acc : List Char)
    (hc : c.rest = w ++ quoteMark single :: rest) (hrest : single = true → rest.head? ≠ some '\'')
    (hcolumn : indent = 0 ∨ 0 < c.column) (hfuel : w.length < fuel) :
    ReadsBack single fuel acc c indent q rest := by
  have hend : isInk (quoteMark single) = true := by cases single <;> rfl
  have hinked : ∀ {v : List Char}, Inked v → Inked (v ++ quoteMark single :: rest) := by
    intro v hv x hx
    cases v with
    | nil => cases hx; exact hend
    | cons y v => exact hv x hx
  induction h generalizing fuel c acc with
  | nil =>
    obtain ⟨fuel, rfl⟩ : ∃ n, fuel = n + 1 := ⟨fuel - 1, by omega⟩
    refine .inr ⟨c.skip 1, ?_, Cursor.skip_one hc, Nat.le_refl _, Nat.lt_succ_self _⟩
    rw [readQuotedFrom_close hc hrest, List.append_nil]
  | @solid x w q v hx h ih =>
    obtain ⟨fuel, rfl⟩ : ∃ n, fuel = n + 1 := ⟨fuel - 1, by omega⟩
    have hw : 0 < w.length := by cases hx <;> exact Nat.succ_pos _
    rw [List.append_assoc] at hc
    by_cases hmark : c.atAnyDocumentMark = true
    · -- the mark of a document, which stands at the first column
      have hindent : indent = 0 := by
        rcases hcolumn with hindent | hpos
        · exact hindent
        · rw [not_mark_of_column hpos] at hmark
          cases hmark
      exact .inl ⟨hindent, .unterminatedText, by rw [readQuotedFrom, hmark, Bool.true_or, if_pos rfl]; rfl⟩
    · have hcolumn' : 0 < (c.skip w.length).column := Nat.lt_of_lt_of_le hw (Nat.le_add_left _ _)
      have hlength : v.length < fuel + 1 := by
        rw [List.length_append] at hfuel
        omega
      have hnext := ih (x :: acc) (Cursor.skip_rest hc) (.inr hcolumn') hlength
      exact hnext.round (readQuotedFrom_solid hx hc (Bool.not_eq_true _ ▸ hmark) (by simp)) (by simp) (Nat.le_refl _)
        (Nat.le_add_right _ _)
  | @blanks k q v hv h ih =>
    obtain ⟨fuel, rfl⟩ : ∃ n, fuel = n + 1 := ⟨fuel - 1, by omega⟩
    rw [List.append_assoc] at hc
    have hgap : readGap 0 (c.rest.length + 1) {} c =
        .ok ({ blanks := List.replicate (k + 1) ' ' ++ [] }, c.skip (k + 1)) := by
      refine readGap_blanks [] hc (hinked hv) ?_
      rw [hc, List.length_append, List.length_replicate]
      omega
    have hcolumn' : 0 < (c.skip (k + 1)).column := Nat.lt_of_lt_of_le (Nat.succ_pos k) (Nat.le_add_left _ _)
    have hlength : v.length < fuel := by
      rw [List.length_append, List.length_replicate] at hfuel
      omega
    have hnext := ih (List.replicate (k + 1) ' ' ++ acc) (Cursor.skip_blanks hc) (.inr hcolumn') hlength
    rw [List.replicate_succ, List.cons_append] at hc
    refine hnext.round ?_ (by simp) (Nat.le_refl _) (Nat.le_add_right _ _)
    rw [readQuotedFrom_gap hc rfl (not_mark_of_head hc (by decide) (by decide)) hgap]
    simp [Gap.text]
  | @breaks b bs q v hbs hb hv h ih =>
    obtain ⟨fuel, rfl⟩ : ∃ n, fuel = n + 1 := ⟨fuel - 1, by omega⟩
    rw [List.cons_append, List.append_assoc, List.append_assoc] at hc
    have hlength : bs.length + indent + 1 < c.rest.length + 1 := by
      rw [hc, List.length_cons, List.length_append, List.length_append, List.length_replicate]
      omega
    obtain ⟨c₁, hgap, hafter, hline, hindex, hcolumn'⟩ := readGap_breaks 0 [] hbs hc (hinked hv) hlength
    have htext : ({ broken := true, first := [b], more := bs.reverse } : Gap).text = (b :: bs).reverse := by
      simp [Gap.text, hb]
    have hown := hbs b List.mem_cons_self
    have hmark : c.atAnyDocumentMark = false :=
      not_mark_of_head hc (by rintro rfl; cases hown) (by rintro rfl; cases hown)
    have hcolumn₁ : indent = 0 ∨ 0 < c₁.column := by
      rw [hcolumn']
      exact Nat.eq_zero_or_pos indent
    have hlength' : v.length < fuel := by
      rw [List.length_cons, List.length_append, List.length_append] at hfuel
      omega
    have hnext := ih ((b :: bs).reverse ++ acc) hafter hcolumn₁ hlength'
    refine hnext.round ?_ (by simp) (by omega) (Nat.le_of_lt hindex)
    rw [readQuotedFrom_gap hc (isInk_of_own hown) hmark hgap, htext]

/-- **A quoted text is read back**, and only one with a line that is not indented may be refused. -/
theorem readQuoted_quoted {indent : Nat} {q w : List Char} (h : Quoted single indent q w)
    (hc : c.rest = quoteMark single :: (w ++ quoteMark single :: rest))
    (hrest : single = true → rest.head? ≠ some '\'') :
    (indent = 0 ∧ ∃ e, readQuoted c = .error e) ∨
      ∃ c', readQuoted c = .ok (String.ofList q, c') ∧ c'.rest = rest ∧ c.line ≤ c'.line ∧ c.index < c'.index := by
  have hsingle : c.is '\'' = single := by
    rw [Cursor.is_eq hc]
    cases single <;> rfl
  have hlength : w.length < c.rest.length + 1 := by
    rw [hc, List.length_cons, List.length_append]
    omega
  rw [readQuoted, hsingle]
  rcases readQuotedFrom_quoted h [] (Cursor.skip_one hc) hrest (.inr (Nat.succ_pos _)) hlength with
    herror | ⟨c', hread, hafter, hline, hindex⟩
  · exact .inl herror
  · exact .inr ⟨c', hread, hafter, hline, Nat.lt_of_le_of_lt (Nat.le_add_right _ _) hindex⟩

/-- words are read within their line -/
theorem readQuotedFrom_word {us : List Char} (hus : ∀ x ∈ us, Solid single x [x]) (acc : List Char)
    (hc : c.rest = us ++ quoteMark single :: rest) (hrest : single = true → rest.head? ≠ some '\'')
    (hcolumn : 0 < c.column) :
    readQuotedFrom single (fuel + 1) acc c = .ok (String.ofList (acc.reverse ++ us), c.skip (us.length + 1)) := by
  induction us generalizing c acc with
  | nil =>
    rw [readQuotedFrom_close hc hrest, List.append_nil]
    rfl
  | cons x us ih =>
    rw [readQuotedFrom_solid (hus x List.mem_cons_self) hc (not_mark_of_column hcolumn) (by simp)]
    have hnext := ih (fun y hy => hus y (List.mem_cons_of_mem _ hy)) (x :: acc) (Cursor.skip_one hc)
      (Nat.lt_of_lt_of_le hcolumn (Nat.le_add_right _ _))
    rw [List.length_singleton, hnext, List.reverse_cons, List.append_assoc, Cursor.skip_skip, List.length_cons,
      Nat.add_comm 1]
    rfl

theorem readQuoted_word {us : List Char} (hus : ∀ x ∈ us, Solid single x [x])
    (hc : c.rest = quoteMark single :: (us ++ quoteMark single :: rest))
    (hrest : single = true → rest.head? ≠ some '\'') :
    readQuoted c = .ok (String.ofList us, c.skip (us.length + 2)) := by
  have hsingle : c.is '\'' = single := by
    rw [Cursor.is_eq hc]
    cases single <;> rfl
  rw [readQuoted, hsingle, readQuotedFrom_word hus [] (Cursor.skip_one hc) hrest (Nat.succ_pos _), Cursor.skip_skip,
    Nat.add_comm 1]
  rfl

end

end Gleaner.Yaml
