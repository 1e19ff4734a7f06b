/-
Plain texts that are read back.

A text that is written plain has no line breaks, no blanks at its ends, and no character that would end it: no colon
before a gap and no number sign behind one (`hasIndicator`). The reader takes it word by word; the line break behind it
and the indentation of the next line are read with it, and end it if that line is indented less than its block.

Results:
- `PlainText.of_style`: what the style of a text says;
- `readPlain_text`: a plain text and the start of the next line;
- `readPlain_word`: a word before a colon.
-/
import Gleaner.Proofs.QuotedTexts

namespace Gleaner.Yaml

/-- texts that are written plain -/
structure PlainText (cs : List Char) : Prop where
  ne_nil : cs ≠ []
  printable : ∀ x ∈ cs, isPrintable x = true
  unbroken : ∀ x ∈ cs, isBreak x = false
  first : ∀ x ∈ cs.head?, x ≠ ' '
  last : ∀ x ∈ cs.getLast?, x ≠ ' '
  indicators : hasIndicator none cs = false

theorem PlainText.of_style {s : String} (h : style s = .plain) : PlainText s.toList := by
  have hprintable := printable_of_style (s := s) (by rw [h]; exact nofun)
  unfold style at h
  simp only at h
  split at h
  · split at h <;> cases h
  · split at h
    · cases h
    · split at h
      · cases h
      · next hplain =>
        simp only [Bool.or_eq_true, not_or, Bool.not_eq_true, List.any_eq_false, Option.any_eq_false] at hplain
        obtain ⟨⟨⟨⟨⟨hother, hfirst, hlast⟩, hunbroken⟩, hindicators⟩, -⟩, -⟩ := hplain
        have hne : s.toList ≠ [] := by
          intro hnil
          rw [String.toList_eq_nil_iff.1 hnil] at hother
          cases hother
        exact ⟨hne, hprintable, hunbroken, fun x hx => of_decide_eq_false (hfirst x hx),
          fun x hx => of_decide_eq_false (hlast x hx), hindicators⟩

theorem PlainText.no_tab {cs : List Char} (h : PlainText cs) : ∀ x ∈ cs, x ≠ '\t' := by
  rintro x hx rfl
  cases h.printable _ hx

theorem PlainText.first_ink {cs : List Char} (h : PlainText cs) : Inked cs := by
  intro x hx
  have hmem := List.mem_of_mem_head? hx
  simp [isInk, isBlank, h.first x hx, h.unbroken x hmem, h.no_tab x hmem]

/-! ## Runs -/

section

variable {fuel level n : Nat} {acc rest : List Char} {c : Cursor}

theorem not_colon {last : Option Char} {x : Char} {cs : List Char} (h : hasIndicator last (x :: cs) = false)
    (hgap : isGap cs.head? = true) : x ≠ ':' := by
  rintro rfl
  cases last <;> simp [hasIndicator, isIndicatorAt, hgap] at h

theorem hasIndicator_tail {last : Option Char} {x : Char} {cs : List Char} (h : hasIndicator last (x :: cs) = false) :
    hasIndicator (some x) cs = false := by
  rw [hasIndicator, Bool.or_eq_false_iff] at h
  exact h.2

theorem hasIndicator_behind {last : Option Char} {x : Char} {before cs : List Char}
    (h : hasIndicator last (before ++ x :: cs) = false) : hasIndicator (some x) cs = false := by
  induction before generalizing last with
  | nil => exact hasIndicator_tail h
  | cons y before ih => exact ih (hasIndicator_tail h)

theorem isGap_of_not_ink {x : Char} (h : isInk x = false) : isGap (some x) = true := by
  simp only [isInk, Bool.and_eq_false_iff, Bool.not_eq_false'] at h
  simpa [isGap] using h

/-- a word of a plain text ends where a gap begins -/
theorem plainRun_run {u q z : List Char} {last : Option Char} (hu : ∀ x ∈ u, isInk x = true)
    (hq : ∀ x ∈ q.head?, isInk x = false) (hz : ∀ x ∈ z.head?, isInk x = false)
    (hind : hasIndicator last (u ++ q) = false) : plainRun false acc (u ++ (q ++ z)) = .ok (u.reverse ++ acc) := by
  have hgap : ∀ x ∈ (q ++ z).head?, isInk x = false := by
    intro x hx
    cases q with
    | nil => exact hz x hx
    | cons y q => exact hq x hx
  induction u generalizing acc last with
  | nil =>
    rw [List.nil_append, List.reverse_nil, List.nil_append]
    cases hqz : q ++ z with
    | nil => rfl
    | cons x xs =>
      have hx := hgap x (by rw [hqz]; rfl)
      have hends : (isBlank x || isBreak x) = true := by simpa [isGap] using isGap_of_not_ink hx
      rw [plainRun, if_pos hends]
  | cons x u ih =>
    have hx := hu x List.mem_cons_self
    simp only [isInk, Bool.and_eq_true, Bool.not_eq_true'] at hx
    have hcolon : ¬ (x = ':' ∧ isGap (u ++ (q ++ z)).head? = true) := by
      rintro ⟨rfl, hnext⟩
      refine not_colon hind ?_ rfl
      change isGap (u ++ q).head? = true
      cases hcs : u ++ q with
      | nil => rfl
      | cons y ys =>
        rw [← List.append_assoc, hcs] at hnext
        exact hnext
    have hmore : plainRun false (x :: acc) (u ++ (q ++ z)) = .ok (u.reverse ++ x :: acc) :=
      ih (fun y hy => hu y (List.mem_cons_of_mem _ hy)) (hasIndicator_tail hind)
    rw [List.cons_append, plainRun]
    simp only [hx, Bool.or_self, Bool.false_and, Bool.false_eq_true, if_false, Bool.and_eq_true, decide_eq_true_eq]
    rw [if_neg hcolon, hmore, List.reverse_cons, List.append_assoc]
    rfl

/-! ## Texts -/

/-- one round of reading: a word, and the gap behind it -/
theorem readPlainFrom_round {inFlow : Bool} {gap : Gap} {u : List Char} (hmark : c.atAnyDocumentMark = false)
    (hsign : c.is '#' = false) (hrun : plainRun inFlow [] c.rest = .ok u.reverse) (hu : u ≠ []) :
    readPlainFrom inFlow level (fuel + 1) acc gap c =
      (let acc := u.reverse ++ gap.text ++ acc
      let c := c.skip u.length
      if c.rest.isEmpty || !isGap c.peek then .ok (String.ofList acc.reverse, false, c)
      else do
        let (gap, c) ← readGap level (c.rest.length + 1) {} c
        if !inFlow && c.column < level then return (String.ofList acc.reverse, gap.broken, c)
        readPlainFrom inFlow level fuel acc gap c) := by
  have hempty : u.reverse.isEmpty = false := by simpa using hu
  rw [readPlainFrom]
  simp only [hmark, hsign, Bool.or_self, Bool.false_eq_true, if_false, hrun, bind, Except.bind, pure, Except.pure,
    List.length_reverse, hempty]

theorem not_sign {x : Char} {cs : List Char} {last : Option Char} (hc : c.rest = x :: rest)
    (hlast : isGap last = true) (hind : hasIndicator last (x :: cs) = false) : c.is '#' = false := by
  rw [Cursor.is_eq hc]
  refine beq_eq_false_iff_ne.2 ?_
  rintro rfl
  cases last <;> simp [hasIndicator, isIndicatorAt, hlast] at hind

/-- blanks between two words of a plain text -/
theorem exists_blanks {q : List Char} (hunbroken : ∀ x ∈ q, isBreak x = false) (htab : ∀ x ∈ q, x ≠ '\t')
    (hend : ∀ x ∈ q.getLast?, x ≠ ' ') (hne : q ≠ []) (hhead : ∀ x ∈ q.head?, isInk x = false) :
    ∃ k more, q = List.replicate (k + 1) ' ' ++ more ∧ ∃ x ∈ more.head?, isInk x = true := by
  have hblank : ∀ x ∈ q, isInk x = false → x = ' ' := by
    intro x hx hink
    simpa [isInk, isBlank, hunbroken x hx, htab x hx] using hink
  obtain ⟨blanks, more, hq, hblanks, hmore⟩ := exists_run isSpace q
  obtain ⟨x, hx⟩ : ∃ x, x ∈ q.head? := by
    obtain ⟨x, xs, rfl⟩ := List.exists_cons_of_ne_nil hne
    exact ⟨x, rfl⟩
  have hnonempty : blanks ≠ [] := by
    rintro rfl
    rw [List.nil_append] at hq
    have hspace := hblank x (List.mem_of_mem_head? hx) (hhead x hx)
    rw [hq] at hx
    exact of_decide_eq_false (hmore x hx) hspace
  obtain ⟨k, hk⟩ : ∃ k, blanks.length = k + 1 := Nat.exists_eq_add_one.2 (List.length_pos_iff.2 hnonempty)
  have hreplicate : blanks = List.replicate (k + 1) ' ' :=
    List.eq_replicate_iff.2 ⟨hk, fun y hy => of_decide_eq_true (hblanks y hy)⟩
  refine ⟨k, more, by rw [hq, hreplicate], ?_⟩
  cases more with
  | nil =>
    refine absurd rfl (hend ' ' ?_)
    rw [hq, List.append_nil, hreplicate, List.replicate_succ']
    simp
  | cons y more =>
    refine ⟨y, rfl, ?_⟩
    have hmem : y ∈ q := by
      rw [hq]
      exact List.mem_append_right _ List.mem_cons_self
    cases hink : isInk y with
    | true => rfl
    | false => exact absurd (hblank y hmem hink) (of_decide_eq_false (hmore y rfl))

/-- a word at the cursor is read, and the gap behind it -/
theorem readPlainFrom_word {u q tail : List Char} {gap : Gap} {last : Option Char}
    (hc : c.rest = u ++ (q ++ '\n' :: tail)) (hne : u ≠ []) (hu : ∀ x ∈ u, isInk x = true)
    (hq : ∀ x ∈ q.head?, isInk x = false) (hcolumn : 0 < c.column) (hlast : isGap last = true)
    (hind : hasIndicator last (u ++ q) = false) :
    readPlainFrom false level (fuel + 1) acc gap c = (do
      let (gap', c') ← readGap level ((q ++ '\n' :: tail).length + 1) {} (c.skip u.length)
      if c'.column < level then return (String.ofList (u.reverse ++ gap.text ++ acc).reverse, gap'.broken, c')
      readPlainFrom false level fuel (u.reverse ++ gap.text ++ acc) gap' c') := by
  have hsign : c.is '#' = false := by
    obtain ⟨x, xs, rfl⟩ := List.exists_cons_of_ne_nil hne
    exact not_sign hc hlast hind
  have hrun : plainRun false [] c.rest = .ok u.reverse := by
    rw [hc, plainRun_run hu hq (fun x hx => by cases hx; rfl) hind, List.append_nil]
  have hafter : (c.skip u.length).rest = q ++ '\n' :: tail := Cursor.skip_rest hc
  have hgap : ((q ++ '\n' :: tail).isEmpty || !isGap (c.skip u.length).peek) = false := by
    cases q with
    | nil =>
      rw [Cursor.peek_eq hafter]
      rfl
    | cons y ys =>
      rw [Cursor.peek_eq hafter, isGap_of_not_ink (hq y rfl)]
      rfl
  rw [readPlainFrom_round (not_mark_of_column hcolumn) hsign hrun hne]
  simp only [hafter, hgap, Bool.false_eq_true, if_false, Bool.not_false, Bool.true_and, decide_eq_true_eq]

/-- the last word, which ends with the indentation of the next line -/
theorem readPlainFrom_last {u : List Char} {gap : Gap} {last : Option Char}
    (hc : c.rest = u ++ '\n' :: (List.replicate n ' ' ++ rest)) (hne : u ≠ []) (hu : ∀ x ∈ u, isInk x = true)
    (hrest : Inked rest) (hn : n < level) (hcolumn : 0 < c.column) (hlast : isGap last = true)
    (hind : hasIndicator last u = false) :
    ∃ c', readPlainFrom false level (fuel + 1) acc gap c =
        .ok (String.ofList (u.reverse ++ gap.text ++ acc).reverse, true, c') ∧
      c'.rest = rest ∧ c'.column = n ∧ c.line < c'.line ∧ c.index < c'.index := by
  have hafter : (c.skip u.length).rest = '\n' :: (List.replicate n ' ' ++ rest) := Cursor.skip_rest hc
  have hbreaks : ∀ x ∈ ['\n'], isOwnBreak x = true := fun x hx => by rw [List.mem_singleton.1 hx]; rfl
  have hlength : ([] : List Char).length + n + 1 < ('\n' :: (List.replicate n ' ' ++ rest)).length + 1 := by
    rw [List.length_cons, List.length_append, List.length_replicate, List.length_nil]
    omega
  obtain ⟨c', hread, hrest', hline, hindex, hcolumn'⟩ := readGap_breaks level [] hbreaks hafter hrest hlength
  refine ⟨c', ?_, hrest', hcolumn', ?_, Nat.lt_of_le_of_lt (Nat.le_add_right _ _) hindex⟩
  · rw [readPlainFrom_word (q := []) hc hne hu nofun hcolumn hlast (by rwa [List.append_nil]), List.nil_append, hread]
    change (if c'.column < level then _ else _) = _
    rw [if_pos (hcolumn' ▸ hn)]
    rfl
  · rw [hline]
    exact Nat.lt_succ_self _

/-- a word and the blanks before another one -/
theorem readPlainFrom_next {k : Nat} {u more tail : List Char} {gap : Gap} {last : Option Char}
    (hc : c.rest = u ++ (List.replicate (k + 1) ' ' ++ more ++ '\n' :: tail)) (hne : u ≠ [])
    (hu : ∀ x ∈ u, isInk x = true) (hmore : ∃ x ∈ more.head?, isInk x = true) (hpositive : 0 < level)
    (hcolumn : level ≤ c.column) (hlast : isGap last = true)
    (hind : hasIndicator last (u ++ (List.replicate (k + 1) ' ' ++ more)) = false) :
    readPlainFrom false level (fuel + 1) acc gap c =
      readPlainFrom false level fuel (u.reverse ++ gap.text ++ acc) { blanks := List.replicate (k + 1) ' ' }
        ((c.skip u.length).skip (k + 1)) := by
  have hafter : (c.skip u.length).rest = List.replicate (k + 1) ' ' ++ (more ++ '\n' :: tail) := by
    rw [Cursor.skip_rest hc, List.append_assoc]
  have hinked : Inked (more ++ '\n' :: tail) := by
    obtain ⟨y, hy, hink⟩ := hmore
    obtain ⟨z, zs, rfl⟩ := List.exists_cons_of_ne_nil (show more ≠ [] by rintro rfl; cases hy)
    intro x hx
    cases hx
    cases hy
    exact hink
  have hlength : k + 1 < (List.replicate (k + 1) ' ' ++ more ++ '\n' :: tail).length + 1 := by
    rw [List.length_append, List.length_append, List.length_replicate]
    omega
  have hdeep : ¬ ((c.skip u.length).skip (k + 1)).column < level := by
    simp only [Cursor.skip]
    omega
  rw [readPlainFrom_word hc hne hu (fun x hx => by cases hx; rfl) (Nat.lt_of_lt_of_le hpositive hcolumn) hlast hind,
    readGap_blanks [] hafter hinked hlength, List.append_nil]
  exact if_neg hdeep

/-- **A plain text is read back**, with the indentation of the next line, which ends it. -/
theorem readPlainFrom_text {q : List Char} {gap : Gap} {last : Option Char}
    (hc : c.rest = q ++ '\n' :: (List.replicate n ' ' ++ rest)) (hrest : Inked rest) (hn : n < level)
    (hcolumn : level ≤ c.column) (hunbroken : ∀ x ∈ q, isBreak x = false) (htab : ∀ x ∈ q, x ≠ '\t')
    (hfirst : ∃ x ∈ q.head?, isInk x = true) (hend : ∀ x ∈ q.getLast?, x ≠ ' ') (hlast : isGap last = true)
    (hind : hasIndicator last q = false) (hfuel : q.length < fuel) :
    ∃ c', readPlainFrom false level fuel acc gap c =
        .ok (String.ofList ((gap.text ++ acc).reverse ++ q), true, c') ∧
      c'.rest = rest ∧ c'.column = n ∧ c.line < c'.line ∧ c.index < c'.index := by
  -- on the length of the text: a word and the blanks behind it are read in one round
  induction hlength : q.length using Nat.strong_induction_on generalizing q gap last acc c fuel with
  | _ length ih =>
  obtain ⟨fuel, rfl⟩ : ∃ k, fuel = k + 1 := ⟨fuel - 1, by omega⟩
  have hpositive : 0 < level := Nat.lt_of_le_of_lt (Nat.zero_le n) hn
  obtain ⟨u, q, rfl, hu, hq⟩ := exists_run isInk q
  have hne : u ≠ [] := by
    rintro rfl
    obtain ⟨x, hx, hink⟩ := hfirst
    rw [List.nil_append] at hx
    rw [hq x hx] at hink
    cases hink
  rw [List.append_assoc] at hc
  by_cases hlastWord : q = []
  · subst hlastWord
    rw [List.append_nil] at hind
    obtain ⟨c', hread, hafter⟩ :=
      readPlainFrom_last hc hne hu hrest hn (Nat.lt_of_lt_of_le hpositive hcolumn) hlast hind
    refine ⟨c', ?_, hafter⟩
    rw [hread]
    simp
  · obtain ⟨k, more, rfl, hmore⟩ := exists_blanks
      (fun x hx => hunbroken x (List.mem_append_right _ hx)) (fun x hx => htab x (List.mem_append_right _ hx))
      (fun x hx => hend x (by rw [List.getLast?_append_of_ne_nil _ hlastWord]; exact hx)) hlastWord hq
    have hmoreNe : more ≠ [] := by
      rintro rfl
      obtain ⟨x, hx, -⟩ := hmore
      cases hx
    have hafter : ((c.skip u.length).skip (k + 1)).rest = more ++ '\n' :: (List.replicate n ' ' ++ rest) :=
      Cursor.skip_blanks (by rw [Cursor.skip_rest hc, List.append_assoc])
    have hshorter : more.length < length := by
      rw [← hlength, List.length_append, List.length_append, List.length_replicate]
      omega
    have hbehind : hasIndicator (some ' ') more = false := by
      rw [List.replicate_succ', List.append_assoc, List.singleton_append, ← List.append_assoc] at hind
      exact hasIndicator_behind hind
    obtain ⟨c', hread, hrest', hcolumn', hline, hindex⟩ := @ih more.length hshorter fuel (u.reverse ++ gap.text ++ acc) _
      more { blanks := List.replicate (k + 1) ' ' } (some ' ') hafter (by simp only [Cursor.skip]; omega)
      (fun x hx => hunbroken x (List.mem_append_right _ (List.mem_append_right _ hx)))
      (fun x hx => htab x (List.mem_append_right _ (List.mem_append_right _ hx))) hmore
      (fun x hx => hend x (by
        rw [List.getLast?_append_of_ne_nil _ hlastWord, List.getLast?_append_of_ne_nil _ hmoreNe]
        exact hx)) rfl hbehind (by omega) rfl
    refine ⟨c', ?_, hrest', hcolumn', hline, ?_⟩
    · rw [readPlainFrom_next hc hne hu hmore hpositive hcolumn hlast hind, hread]
      simp [Gap.text]
    · simp only [Cursor.skip] at hindex
      omega

/-- **A text that is written plain is read back**, and the reader stands at the next line. -/
theorem readPlain_text {s : String} (h : style s = .plain)
    (hc : c.rest = s.toList ++ '\n' :: (List.replicate n ' ' ++ rest)) (hrest : Inked rest) (hn : n < level)
    (hcolumn : level ≤ c.column) :
    ∃ c', readPlain false level c = .ok (s, true, c') ∧ c'.rest = rest ∧ c'.column = n ∧ c.line < c'.line ∧
      c.index < c'.index := by
  have hs := PlainText.of_style h
  have hfirst : ∃ x ∈ s.toList.head?, isInk x = true := by
    have hink := hs.first_ink
    obtain ⟨x, xs, hcs⟩ := List.exists_cons_of_ne_nil hs.ne_nil
    rw [hcs] at hink ⊢
    exact ⟨x, rfl, hink x rfl⟩
  have hlength : s.toList.length < c.rest.length + 1 := by
    rw [hc, List.length_append]
    omega
  obtain ⟨c', hread, hafter⟩ := @readPlainFrom_text _ _ _ [] _ _ _ {} none hc hrest hn hcolumn
    hs.unbroken hs.no_tab hfirst hs.last rfl hs.indicators hlength
  refine ⟨c', ?_, hafter⟩
  rw [readPlain, hread]
  simp [Gap.text]

/-! ## Words -/

theorem plainRun_word {us : List Char} (hus : ∀ x ∈ us, x.isAlpha = true) (hgap : isGap rest.head? = true) :
    plainRun false acc (us ++ ':' :: rest) = .ok (us.reverse ++ acc) := by
  induction us generalizing acc with
  | nil => simp [plainRun, hgap, show isBlank ':' = false from rfl, show isBreak ':' = false from rfl]
  | cons x us ih =>
    have hx := isInk_of_alpha (hus x List.mem_cons_self)
    have hcolon : x ≠ ':' := by
      rintro rfl
      cases hus ':' List.mem_cons_self
    simp only [isInk, Bool.and_eq_true, Bool.not_eq_true'] at hx
    rw [List.cons_append, plainRun]
    simp only [hx, hcolon, Bool.or_self, Bool.false_and, Bool.false_eq_true, decide_false, if_false]
    rw [ih fun y hy => hus y (List.mem_cons_of_mem _ hy), List.reverse_cons, List.append_assoc]
    rfl

/-- **A word before a colon** -/
theorem readPlain_word {us : List Char} (hne : us ≠ []) (hus : ∀ x ∈ us, x.isAlpha = true)
    (hc : c.rest = us ++ ':' :: rest) (hgap : isGap rest.head? = true) :
    readPlain false level c = .ok (String.ofList us, false, c.skip us.length) := by
  obtain ⟨x, xs, rfl⟩ := List.exists_cons_of_ne_nil hne
  have hx := hus x List.mem_cons_self
  have hmark : c.atAnyDocumentMark = false :=
    not_mark_of_head hc (by rintro rfl; cases hx) (by rintro rfl; cases hx)
  have hsign : c.is '#' = false := by
    rw [List.cons_append] at hc
    rw [Cursor.is_eq hc]
    refine beq_eq_false_iff_ne.2 ?_
    rintro rfl
    cases hx
  have hrun : plainRun false [] c.rest = .ok (x :: xs).reverse := by rw [hc, plainRun_word hus hgap, List.append_nil]
  have hafter : (c.skip (x :: xs).length).rest = ':' :: rest := Cursor.skip_rest hc
  have hstop : ((c.skip (x :: xs).length).rest.isEmpty || !isGap (c.skip (x :: xs).length).peek) = true := by
    rw [Cursor.peek_eq hafter]
    exact Bool.or_true _
  rw [readPlain, readPlainFrom_round hmark hsign hrun hne]
  simp only [hstop, if_true]
  simp [Gap.text]

end

end Gleaner.Yaml
