/-
JSON values that are written and read back.

The text of a value is read without a blank anywhere: texts between quotes, whole numbers, and lists and objects with
their items between commas. Three readings deep, each takes one unit of fuel and leaves one character less at least, so
that one unit for each character is enough. A number ends at the first character that goes on with none, so what stands
behind a value matters (`Json.Ended`). Less than 128 lists and objects may enclose one another (`Json.Shallow`).

Results:
- `Json.readText_escaped`: a quoted text;
- `Json.readNumber_ofInt`: a whole number;
- `Json.readable_of_shallow`: a value that is not nested too deeply, wherever it stands;
- `Json.parse_shallow`: such a value by itself, on a line of its own or not.
-/
import Gleaner.Json.Reader
import Mathlib.Tactic

namespace Gleaner

namespace Json

/-! ## The text of a value -/

/-- the text of a value -/
def chars (j : Json) : List Char := j.render.toList

/-- the text of a field -/
def fieldChars (f : String × Json) : List Char := (quote f.1).toList ++ ':' :: f.2.chars

theorem chars_string (s : String) : chars (.string s) = '"' :: (s.toList.flatMap escapeChar ++ ['"']) := by
  simp [chars, render, quote]

theorem chars_emptyArray : chars (.array []) = ['[', ']'] := by
  simp [chars, render, renderItems]

theorem chars_emptyObject : chars (.object []) = ['\x7b', '\x7d'] := by
  simp [chars, render, renderFields, open_, close_]

theorem chars_array (j : Json) (items : List Json) :
    chars (.array (j :: items)) = '[' :: (chars j ++ (items.flatMap (fun j => ',' :: chars j) ++ [']'])) := by
  have hitems : ∀ j, (renderItems (j :: items)).toList = chars j ++ items.flatMap fun j => ',' :: chars j := by
    induction items with
    | nil => simp [renderItems, chars]
    | cons j' items ih =>
      intro j
      simp [renderItems, ih j', chars]
  simp [chars, render, hitems]

theorem chars_object (f : String × Json) (fields : List (String × Json)) :
    chars (.object (f :: fields)) =
      '\x7b' :: (fieldChars f ++ (fields.flatMap (fun f => ',' :: fieldChars f) ++ ['\x7d'])) := by
  have hfields : ∀ f, (renderFields (f :: fields)).toList =
      fieldChars f ++ fields.flatMap fun f => ',' :: fieldChars f := by
    induction fields with
    | nil => simp [renderFields, fieldChars, chars]
    | cons f' fields ih =>
      intro f
      simp [renderFields, ih f', fieldChars, chars]
  simp [chars, render, open_, close_, hfields]

/-- values of texts and whole numbers with a number of lists and objects around one another at most -/
inductive Shallow : Nat → Json → Prop where
  | string {n : Nat} (s : String) : Shallow n (.string s)
  | number {n : Nat} (k : Int) : Shallow n (.ofInt k)
  | array {n : Nat} {items : List Json} (h : ∀ j ∈ items, Shallow n j) : Shallow (n + 1) (.array items)
  | object {n : Nat} {fields : List (String × Json)} (h : ∀ f ∈ fields, Shallow n f.2) :
    Shallow (n + 1) (.object fields)

/-! ## Texts -/

theorem hexValue?_hexDigit : ∀ d < 16, hexValue? (hexDigit d) = some d := by decide

/-- a character that is written by its number -/
theorem readUnicode_control {x : Char} (hx : x.toNat < 0x20) (rest : List Char) :
    readUnicode ('0' :: '0' :: hexDigit (x.toNat / 16) :: hexDigit (x.toNat % 16) :: rest) = .ok (x, rest) := by
  have hdigits : readHex4 ('0' :: '0' :: hexDigit (x.toNat / 16) :: hexDigit (x.toNat % 16) :: rest) =
      .ok (x.toNat, rest) := by
    have hsum : ((0 * 16 + 0) * 16 + x.toNat / 16) * 16 + x.toNat % 16 = x.toNat := by omega
    simp only [readHex4, show hexValue? '0' = some 0 from rfl, hexValue?_hexDigit _ (show x.toNat / 16 < 16 by omega),
      hexValue?_hexDigit _ (show x.toNat % 16 < 16 by omega), hsum]
  have hlow : (decide (0xDC00 ≤ x.toNat) && decide (x.toNat ≤ 0xDFFF)) = false := by
    rw [decide_eq_false (by omega), Bool.false_and]
  have hhigh : (decide (0xD800 ≤ x.toNat) && decide (x.toNat ≤ 0xDBFF)) = false := by
    rw [decide_eq_false (by omega), Bool.false_and]
  rw [readUnicode, hdigits]
  simp [bind, Except.bind, hlow, hhigh, Char.ofNat_toNat, pure, Except.pure]

/-- an escaped character is read back -/
theorem readText_escape {fuel : Nat} (x : Char) (acc rest : List Char) :
    readText (fuel + 1) acc (escapeChar x ++ rest) = readText fuel (x :: acc) rest := by
  unfold escapeChar
  split
  all_goals try rfl
  split
  · next hcontrol =>
    simp only [List.cons_append, List.nil_append, readText, readUnicode_control hcontrol]
  · next hquote hslash _ _ _ _ _ hcontrol =>
    rw [List.singleton_append, readText]
    · rw [if_neg hcontrol]
    · exact hquote
    · exact hslash

/-- **A text between quotes is read back.** -/
theorem readText_escaped {fuel : Nat} (cs acc rest : List Char) (hfuel : cs.length < fuel) :
    readText fuel acc (cs.flatMap escapeChar ++ '"' :: rest) = .ok (String.ofList (acc.reverse ++ cs), rest) := by
  induction cs generalizing fuel acc with
  | nil =>
    obtain ⟨fuel, rfl⟩ : ∃ n, fuel = n + 1 := ⟨fuel - 1, by omega⟩
    rw [List.flatMap_nil, List.nil_append, List.append_nil, readText]
  | cons x cs ih =>
    obtain ⟨fuel, rfl⟩ : ∃ n, fuel = n + 1 := ⟨fuel - 1, by omega⟩
    rw [List.flatMap_cons, List.append_assoc, readText_escape, ih _ (Nat.lt_of_succ_lt_succ hfuel), List.reverse_cons,
      List.append_assoc]
    rfl

theorem length_le_escaped (cs : List Char) : cs.length ≤ (cs.flatMap escapeChar).length := by
  have hescape : ∀ x, 1 ≤ (escapeChar x).length := by
    intro x
    unfold escapeChar
    split
    all_goals try exact Nat.succ_pos _
    split <;> exact Nat.succ_pos _
  induction cs with
  | nil => exact Nat.le_refl _
  | cons x cs ih =>
    have hx := hescape x
    rw [List.flatMap_cons, List.length_cons, List.length_append]
    omega

/-- a text with its quotes, as a reader of values or of fields meets it -/
theorem readText_quoted (s : String) (rest : List Char) :
    readText ((s.toList.flatMap escapeChar ++ '"' :: rest).length + 1) [] (s.toList.flatMap escapeChar ++ '"' :: rest) =
      .ok (s, rest) := by
  have hlength := length_le_escaped s.toList
  rw [readText_escaped s.toList [] rest (by rw [List.length_append]; omega)]
  simp

/-! ## Whole numbers -/

/-- what can stand behind a value -/
def Ended (rest : List Char) : Prop := ∀ x ∈ rest.head?, x ∈ [',', ']', '\x7d', '\n']

theorem ended_nil : Ended [] := nofun

theorem ended_cons {x : Char} (h : x ∈ [',', ']', '\x7d', '\n']) (rest : List Char) : Ended (x :: rest) := by
  intro y hy
  cases hy
  exact h

/-- the digits of a number begin with a zero only if there is nothing else -/
theorem toDigits_cases (n : Nat) : Nat.toDigits 10 n = ['0'] ∨
    ∃ d ds, Nat.toDigits 10 n = d :: ds ∧ d ≠ '0' ∧ ∀ c ∈ d :: ds, c.isDigit = true := by
  have hdigits : ∀ c ∈ Nat.toDigits 10 n, c.isDigit = true :=
    fun c hc => Nat.isDigit_of_mem_toDigits (by decide) (by decide) hc
  have hfirst : n ≠ 0 → ∃ d ds, Nat.toDigits 10 n = d :: ds ∧ d ≠ '0' := by
    clear hdigits
    induction n using Nat.strongRecOn with
    | ind n ih =>
      intro hn
      by_cases hsmall : n < 10
      · refine ⟨n.digitChar, [], Nat.toDigits_of_lt_base hsmall, ?_⟩
        interval_cases n <;> first | exact absurd rfl hn | decide
      · obtain ⟨d, ds, hd, hne⟩ := ih (n / 10) (by omega) (by omega)
        refine ⟨d, ds ++ [(n % 10).digitChar], ?_, hne⟩
        rw [Nat.toDigits_of_base_le (by decide) (by omega), hd, List.cons_append]
  by_cases hn : n = 0
  · subst hn
    exact .inl rfl
  · obtain ⟨d, ds, hd, hne⟩ := hfirst hn
    exact .inr ⟨d, ds, hd, hne, hd ▸ hdigits⟩

theorem readDigits_eq {d : Char} {ds rest : List Char} (h : ∀ c ∈ d :: ds, c.isDigit = true) (hrest : Ended rest) :
    readDigits (d :: (ds ++ rest)) = .ok (d :: ds, rest) := by
  have hspan : (d :: (ds ++ rest)).span Char.isDigit = (d :: ds, rest) := by
    rw [List.span_eq_takeWhile_dropWhile, ← List.cons_append, List.takeWhile_append_of_pos h,
      List.dropWhile_append_of_pos h]
    cases rest with
    | nil => simp
    | cons x rest =>
      have hx : x.isDigit = false := by
        have hmem := hrest x rfl
        fin_cases hmem <;> rfl
      simp [hx]
  rw [readDigits, hspan]

/-- the rest of a number behind its whole part -/
theorem Ended.cases {rest : List Char} (h : Ended rest) :
    rest = [] ∨ ∃ x more, rest = x :: more ∧ x.isDigit = false ∧ x ≠ '.' ∧ x ≠ 'e' ∧ x ≠ 'E' := by
  cases rest with
  | nil => exact .inl rfl
  | cons x more =>
    have hmem := h x rfl
    refine .inr ⟨x, more, rfl, ?_⟩
    fin_cases hmem <;> decide

theorem readNumber_signed {sign : List Char} (hsign : sign = [] ∨ sign = ['-']) (n : Nat) {rest : List Char}
    (hrest : Ended rest) : readNumber (sign ++ (Nat.toDigits 10 n ++ rest)) =
      .ok (String.ofList (sign ++ Nat.toDigits 10 n), rest) := by
  rcases toDigits_cases n with hzero | ⟨d, ds, hd, hne, hdigits⟩
  · rw [hzero]
    rcases hrest.cases with rfl | ⟨x, more, rfl, hx, hpoint, he, hE⟩ <;> rcases hsign with rfl | rfl <;>
      simp [readNumber, *, bind, Except.bind, pure, Except.pure]
  · have hread := readDigits_eq hdigits hrest
    have hminus : d ≠ '-' := by
      rintro rfl
      cases hdigits _ List.mem_cons_self
    rw [hd]
    rcases hrest.cases with rfl | ⟨x, more, rfl, hx, hpoint, he, hE⟩ <;> rcases hsign with rfl | rfl <;>
      simp_all [readNumber, bind, Except.bind, pure, Except.pure]

/-- a whole number in its digits -/
theorem toList_toString (k : Int) : ∃ sign : List Char, (sign = [] ∨ sign = ['-']) ∧
    (toString k).toList = sign ++ Nat.toDigits 10 k.natAbs := by
  rw [Int.toString_eq_repr, Int.repr_eq_if]
  split
  · next h =>
    refine ⟨[], .inl rfl, ?_⟩
    rw [Nat.toList_repr, List.nil_append, show k.toNat = k.natAbs by omega]
  · next h =>
    refine ⟨['-'], .inr rfl, ?_⟩
    rw [String.toList_append, Nat.toList_repr, show (-k).toNat = k.natAbs by omega]
    rfl

/-- **A whole number is read back.** -/
theorem readNumber_ofInt (k : Int) {rest : List Char} (hrest : Ended rest) :
    readNumber ((toString k).toList ++ rest) = .ok (toString k, rest) := by
  obtain ⟨sign, hsign, htext⟩ := toList_toString k
  have hread := readNumber_signed hsign k.natAbs hrest
  rw [← List.append_assoc, ← htext, String.ofList_toList] at hread
  exact hread

/-- what a whole number begins with -/
theorem exists_head_ofInt (k : Int) : ∃ x xs, chars (.ofInt k) = x :: xs ∧ (x = '-' ∨ x.isDigit = true) := by
  obtain ⟨sign, hsign, htext⟩ := toList_toString k
  have hchars : chars (.ofInt k) = sign ++ Nat.toDigits 10 k.natAbs := htext
  rw [hchars]
  rcases hsign with rfl | rfl
  · obtain ⟨d, ds, hd⟩ := List.exists_cons_of_ne_nil (Nat.toDigits_ne_nil (b := 10) (n := k.natAbs))
    have hdigit : d.isDigit = true :=
      Nat.isDigit_of_mem_toDigits (b := 10) (n := k.natAbs) (by decide) (by decide) (hd ▸ List.mem_cons_self)
    exact ⟨d, ds, hd, .inr hdigit⟩
  · exact ⟨'-', _, rfl, .inl rfl⟩

/-! ## Values -/

theorem skipBlanks_eq {cs : List Char} (h : ∀ x ∈ cs.head?, isBlankChar x = false) : skipBlanks cs = cs := by
  cases cs with
  | nil => rfl
  | cons x cs => rw [skipBlanks, List.dropWhile_cons, h x rfl, if_neg Bool.false_ne_true]

/-- a value is read from its text, wherever it stands, if `n` more values may enclose one another -/
def Readable (n : Nat) (j : Json) : Prop :=
  ∀ (fuel depth : Nat) (rest : List Char), Ended rest → n < depth → (chars j).length < fuel →
    readValue fuel depth (chars j ++ rest) = .ok (j, rest)

/-- what a value begins with: no blank, and no end of a list -/
theorem exists_head {n : Nat} {j : Json} (h : j.Shallow n) :
    ∃ x xs, chars j = x :: xs ∧ isBlankChar x = false ∧ x ≠ ']' := by
  cases h with
  | string s => exact ⟨_, _, chars_string s, rfl, by decide⟩
  | number k =>
    obtain ⟨x, xs, hx, hfirst⟩ := exists_head_ofInt k
    refine ⟨x, xs, hx, ?_⟩
    rcases hfirst with rfl | hdigit
    · decide
    · constructor
      · simp only [isBlankChar, Bool.or_eq_false_iff, decide_eq_false_iff_not]
        refine ⟨⟨⟨?_, ?_⟩, ?_⟩, ?_⟩ <;> rintro rfl <;> cases hdigit
      · rintro rfl
        cases hdigit
  | @array n items =>
    cases items with
    | nil => exact ⟨_, _, chars_emptyArray, rfl, by decide⟩
    | cons j items => exact ⟨_, _, chars_array j items, rfl, by decide⟩
  | @object n fields =>
    cases fields with
    | nil => exact ⟨_, _, chars_emptyObject, rfl, by decide⟩
    | cons f fields => exact ⟨_, _, chars_object f fields, rfl, by decide⟩

theorem readable_string (n : Nat) (s : String) : Readable n (.string s) := by
  intro fuel depth rest _ _ hfuel
  obtain ⟨fuel, rfl⟩ : ∃ k, fuel = k + 1 := ⟨fuel - 1, by omega⟩
  rw [chars_string, List.cons_append, List.append_assoc, List.singleton_append, readValue,
    skipBlanks_eq fun x hx => by cases hx; rfl]
  simp only
  rw [readText_quoted]
  rfl

theorem readable_number (n : Nat) (k : Int) : Readable n (.ofInt k) := by
  intro fuel depth rest hrest _ hfuel
  obtain ⟨fuel, rfl⟩ : ∃ k, fuel = k + 1 := ⟨fuel - 1, by omega⟩
  obtain ⟨x, xs, hx, hblank, -⟩ := exists_head (.number (n := n) k)
  obtain ⟨y, ys, hy, hfirst⟩ := exists_head_ofInt k
  obtain ⟨rfl, rfl⟩ := List.cons.inj (hy.symm.trans hx)
  have hread := readNumber_ofInt k hrest
  rw [show (toString k).toList = y :: ys from hx] at hread
  have hsign : (decide (y = '-') || y.isDigit) = true := by simpa using hfirst
  rw [hx, List.cons_append, readValue, skipBlanks_eq fun z hz => by cases hz; exact hblank]
  rw [List.cons_append] at hread
  split
  case h_1 h => cases h
  case h_8 c more _ _ _ _ _ _ h =>
    obtain ⟨rfl, rfl⟩ := List.cons.inj h
    rw [if_pos hsign, hread]
    rfl
  -- the other values begin with no digit and no sign
  all_goals
    next h =>
    obtain ⟨rfl, -⟩ := List.cons.inj h
    exact absurd hsign (by decide)

theorem readItems_items {n : Nat} {j : Json} {items : List Json} (h : ∀ j' ∈ j :: items, Readable n j')
    {fuel depth : Nat} {rest : List Char} (hdepth : n < depth)
    (hfuel : (chars j ++ (items.flatMap (fun j => ',' :: chars j) ++ [']'])).length < fuel) :
    readItems fuel depth (chars j ++ (items.flatMap (fun j => ',' :: chars j) ++ ']' :: rest)) =
      .ok (j :: items, rest) := by
  induction items generalizing j fuel with
  | nil =>
    obtain ⟨fuel, rfl⟩ : ∃ k, fuel = k + 1 := ⟨fuel - 1, by omega⟩
    simp only [List.flatMap_nil, List.nil_append, List.length_append, List.length_singleton] at hfuel ⊢
    rw [readItems, h j List.mem_cons_self fuel depth _ (ended_cons (by decide) _) hdepth (by omega)]
    simp only [bind, Except.bind]
    rw [skipBlanks_eq fun x hx => by cases hx; rfl]
    rfl
  | cons j' items ih =>
    obtain ⟨fuel, rfl⟩ : ∃ k, fuel = k + 1 := ⟨fuel - 1, by omega⟩
    simp only [List.flatMap_cons, List.cons_append, List.append_assoc, List.length_append, List.length_cons] at hfuel ⊢
    have hmore := @ih j' (fun j hj => h j (List.mem_cons_of_mem _ hj)) fuel (by
      simp only [List.length_append, List.length_cons]
      omega)
    rw [readItems, h j List.mem_cons_self fuel depth _ (ended_cons (by decide) _) hdepth (by omega)]
    simp only [bind, Except.bind]
    rw [skipBlanks_eq fun x hx => by cases hx; rfl]
    simp only [hmore]
    rfl

theorem readable_array {n : Nat} {items : List Json} (hshallow : ∀ j ∈ items, j.Shallow n)
    (h : ∀ j ∈ items, Readable n j) : Readable (n + 1) (.array items) := by
  intro fuel depth rest _ hdepth hfuel
  obtain ⟨fuel, rfl⟩ : ∃ k, fuel = k + 1 := ⟨fuel - 1, by omega⟩
  have hdeep : ¬ depth ≤ 1 := by omega
  cases items with
  | nil =>
    rw [chars_emptyArray, List.cons_append, readValue, skipBlanks_eq fun x hx => by cases hx; rfl]
    simp only [if_neg hdeep]
    rw [skipBlanks_eq fun x hx => by cases hx; rfl]
    rfl
  | cons j items =>
    obtain ⟨x, xs, hx, hblank, hne⟩ := exists_head (hshallow j List.mem_cons_self)
    rw [chars_array, List.length_cons] at hfuel
    have hitems := @readItems_items n j items h fuel (depth - 1) rest (by omega) (by omega)
    rw [chars_array, List.cons_append, readValue, skipBlanks_eq fun x hx => by cases hx; rfl]
    simp only [if_neg hdeep, List.append_assoc, List.singleton_append, hitems]
    -- no list begins with its end
    have hstart : ∀ more, skipBlanks (chars j ++ more) = x :: (xs ++ more) := by
      intro more
      rw [hx, List.cons_append]
      refine skipBlanks_eq fun y hy => ?_
      cases hy
      exact hblank
    rw [hstart]
    simp [Except.map, hne]

/-- what a field begins with -/
theorem skipBlanks_fieldChars (f : String × Json) (more : List Char) :
    skipBlanks (fieldChars f ++ more) =
      '"' :: (f.1.toList.flatMap escapeChar ++ '"' :: ':' :: (chars f.2 ++ more)) := by
  have htext : fieldChars f ++ more =
      '"' :: (f.1.toList.flatMap escapeChar ++ '"' :: ':' :: (chars f.2 ++ more)) := by simp [fieldChars, quote]
  rw [htext]
  exact skipBlanks_eq fun x hx => by cases hx; rfl

theorem readFields_fields {n : Nat} {f : String × Json} {fields : List (String × Json)}
    (h : ∀ f' ∈ f :: fields, Readable n f'.2) {fuel depth : Nat} {rest : List Char} (hdepth : n < depth)
    (hfuel : (fieldChars f ++ (fields.flatMap (fun f => ',' :: fieldChars f) ++ ['\x7d'])).length < fuel) :
    readFields fuel depth (fieldChars f ++ (fields.flatMap (fun f => ',' :: fieldChars f) ++ '\x7d' :: rest)) =
      .ok (f :: fields, rest) := by
  have hlength : ∀ f : String × Json, (chars f.2).length < (fieldChars f).length := by
    intro f
    rw [fieldChars, List.length_append, List.length_cons]
    omega
  induction fields generalizing f fuel with
  | nil =>
    obtain ⟨fuel, rfl⟩ : ∃ k, fuel = k + 1 := ⟨fuel - 1, by omega⟩
    simp only [List.flatMap_nil, List.nil_append, List.length_append, List.length_singleton] at hfuel ⊢
    have hvalue := h f List.mem_cons_self fuel depth ('\x7d' :: rest) (ended_cons (by decide) _) hdepth
      (by have := hlength f; omega)
    rw [readFields, skipBlanks_fieldChars]
    simp only [bind, Except.bind, readText_quoted]
    rw [skipBlanks_eq fun x hx => by cases hx; rfl]
    simp only [hvalue]
    rw [skipBlanks_eq fun x hx => by cases hx; rfl]
    rfl
  | cons f' fields ih =>
    obtain ⟨fuel, rfl⟩ : ∃ k, fuel = k + 1 := ⟨fuel - 1, by omega⟩
    simp only [List.flatMap_cons, List.cons_append, List.append_assoc, List.length_append, List.length_cons] at hfuel ⊢
    have hmore := @ih f' (fun f hf => h f (List.mem_cons_of_mem _ hf)) fuel (by
      simp only [List.length_append, List.length_cons]
      omega)
    have hvalue := h f List.mem_cons_self fuel depth
      (',' :: (fieldChars f' ++ (fields.flatMap (fun f => ',' :: fieldChars f) ++ '\x7d' :: rest)))
      (ended_cons (by decide) _) hdepth (by have := hlength f; omega)
    rw [readFields, skipBlanks_fieldChars]
    simp only [bind, Except.bind, readText_quoted]
    rw [skipBlanks_eq fun x hx => by cases hx; rfl]
    simp only [hvalue]
    rw [skipBlanks_eq fun x hx => by cases hx; rfl]
    simp only [hmore]
    rfl

theorem readable_object {n : Nat} {fields : List (String × Json)} (h : ∀ f ∈ fields, Readable n f.2) :
    Readable (n + 1) (.object fields) := by
  intro fuel depth rest _ hdepth hfuel
  obtain ⟨fuel, rfl⟩ : ∃ k, fuel = k + 1 := ⟨fuel - 1, by omega⟩
  have hdeep : ¬ depth ≤ 1 := by omega
  cases fields with
  | nil =>
    rw [chars_emptyObject, List.cons_append, readValue, skipBlanks_eq fun x hx => by cases hx; rfl]
    simp only [if_neg hdeep]
    rw [skipBlanks_eq fun x hx => by cases hx; rfl]
    rfl
  | cons f fields =>
    rw [chars_object, List.length_cons] at hfuel
    have hfields := @readFields_fields n f fields h fuel (depth - 1) rest (by omega) (by omega)
    rw [chars_object, List.cons_append, readValue, skipBlanks_eq fun x hx => by cases hx; rfl]
    simp only [if_neg hdeep, List.append_assoc, List.singleton_append, hfields]
    rw [skipBlanks_fieldChars]
    simp [Except.map]

/-- **A value** is read from its text. -/
theorem readable_of_shallow {n : Nat} {j : Json} (h : j.Shallow n) : Readable n j := by
  induction h with
  | string s => exact readable_string _ s
  | number k => exact readable_number _ k
  | array h ih => exact readable_array h ih
  | object _ ih => exact readable_object ih

/-- **A value that is not nested too deeply** is read back from its text, whatever blanks stand behind it. -/
theorem parse_shallow {j : Json} (h : j.Shallow 127) {blanks : String} (hblanks : blanks = "" ∨ blanks = "\n") :
    parse (j.render ++ blanks) = .ok j := by
  have htext : (j.render ++ blanks).toList = chars j ++ blanks.toList := by simp [chars]
  have hended : Ended blanks.toList := by
    rcases hblanks with rfl | rfl
    · exact ended_nil
    · exact ended_cons (by decide) []
  have hread := readable_of_shallow h ((chars j ++ blanks.toList).length + 1) 128 blanks.toList hended (by decide) (by
    rw [List.length_append]
    omega)
  rw [parse, htext]
  simp only [hread, bind, Except.bind]
  rcases hblanks with rfl | rfl <;> rfl

end Json

end Gleaner
