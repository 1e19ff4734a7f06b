/-
Lines of bytes and lines of texts.

A reader splits bytes at line feeds and decodes the pieces one by one. A byte below 0x80 is a character by itself: one
that is cut off before it is replaced, and the byte is still there (`Utf8.decodeChars_middle`). Line feeds and carriage
returns of a text are therefore those of its bytes, whatever bytes there are, and a reader gives the same lines as if
the text of all bytes had been split (`decodeLine_rowsAt`). A line that has its end does not depend on what stands
behind it (`rowsAt_behind`).

Results:
- `Utf8.splitOn_decodeChars`, `Utf8.decodeChars_dropReturn`: splitting, and dropping carriage returns, before and
  behind decoding;
- `decodeLine_rowsAt_written`: texts that are written as lines;
- `linesOf_laws`: what a reader gives.
-/
import Gleaner.Proofs.Bytes
import Mathlib

namespace Gleaner

/-! ## Parts between separators -/

/-- the parts of a list between separators; the last one counts only if it is not empty -/
def rowsAt {α : Type} [DecidableEq α] (sep : α) (xs : List α) : List (List α) :=
  let parts := xs.splitOn sep
  if parts.getLast? = some [] then parts.dropLast else parts

section

variable {α : Type} [DecidableEq α] {sep : α}

theorem rowsAt_nil (sep : α) : rowsAt sep [] = [] := by simp [rowsAt]

/-- the last part is left out just if it is empty -/
theorem rowsAt_eq {xs last : List α} {parts : List (List α)} (h : xs.splitOn sep = parts ++ [last]) :
    rowsAt sep xs = if last = [] then parts else parts ++ [last] := by
  simp [rowsAt, h]

/-- **What stands before a separator** does not depend on what stands behind it. -/
theorem rowsAt_behind (xs ys : List α) : rowsAt sep (xs ++ sep :: ys) = xs.splitOn sep ++ rowsAt sep ys := by
  have hsplit : (xs ++ sep :: ys).splitOn sep = xs.splitOn sep ++ ys.splitOn sep :=
    List.splitOn_append_cons_self xs ys
  rcases List.eq_nil_or_concat' (ys.splitOn sep) with hnil | ⟨parts, last, hparts⟩
  · exact absurd hnil (List.splitOn_ne_nil sep ys)
  · rw [hparts, ← List.append_assoc] at hsplit
    rw [rowsAt_eq hsplit, rowsAt_eq hparts]
    by_cases hlast : last = []
    · rw [if_pos hlast, if_pos hlast]
    · rw [if_neg hlast, if_neg hlast, List.append_assoc]

/-- one part and its separator -/
theorem rowsAt_cons {xs : List α} (h : sep ∉ xs) (ys : List α) : rowsAt sep (xs ++ sep :: ys) = xs :: rowsAt sep ys := by
  rw [rowsAt_behind, List.splitOn_eq_singleton h, List.singleton_append]

theorem rowsAt_last {xs : List α} (h : sep ∉ xs) (hne : xs ≠ []) : rowsAt sep xs = [xs] := by
  have hsplit : xs.splitOn sep = [] ++ [xs] := List.splitOn_eq_singleton h
  rw [rowsAt_eq hsplit, if_neg hne, List.nil_append]

/-- what changes the parts and leaves none of them empty changes the rows -/
theorem rowsAt_map {β : Type} [DecidableEq β] {other : β} {f : List α → List β} (hf : ∀ xs, f xs = [] ↔ xs = [])
    {xs : List α} {ys : List β} (h : ys.splitOn other = (xs.splitOn sep).map f) :
    rowsAt other ys = (rowsAt sep xs).map f := by
  rcases List.eq_nil_or_concat' (xs.splitOn sep) with hnil | ⟨parts, last, hparts⟩
  · exact absurd hnil (List.splitOn_ne_nil sep xs)
  · have hmap : ys.splitOn other = parts.map f ++ [f last] := by rw [h, hparts, List.map_append, List.map_singleton]
    rw [rowsAt_eq hmap, rowsAt_eq hparts]
    by_cases hlast : last = []
    · rw [if_pos hlast, if_pos ((hf last).2 hlast)]
    · rw [if_neg hlast, if_neg fun hnil => hlast ((hf last).1 hnil), List.map_append, List.map_singleton]

end

/-! ## Short characters among bytes -/

namespace Utf8

theorem decodeFrom_acc (acc : List Char) (bs : Bytes) : decodeFrom acc bs = acc.reverse ++ decodeChars bs := by
  unfold decodeChars
  induction hn : bs.length using Nat.strong_induction_on generalizing acc bs with
  | _ n ih =>
    cases bs with
    | nil => simp [decodeFrom]
    | cons b bs =>
      have hlong := decodeLong_length b bs
      have hn : bs.length + 1 = n := hn
      rw [decodeFrom, decodeFrom]
      split
      · rw [ih bs.length (by omega) _ _ rfl, ih bs.length (by omega) [_] _ rfl]
        simp
      · rw [ih _ (by omega) _ _ rfl, ih _ (by omega) [_] _ rfl]
        simp

theorem decodeChars_nil : decodeChars [] = [] := by simp [decodeChars, decodeFrom]

theorem decodeChars_short {b : UInt8} (h : b < 0x80) (bs : Bytes) :
    decodeChars (b :: bs) = Char.ofNat b.toNat :: decodeChars bs := by
  rw [decodeChars, decodeFrom, if_pos h, decodeFrom_acc]
  rfl

theorem decodeChars_long {b : UInt8} (h : ¬ b < 0x80) (bs : Bytes) :
    decodeChars (b :: bs) = (decodeLong b bs).1 :: decodeChars (decodeLong b bs).2 := by
  rw [decodeChars, decodeFrom, if_neg h, decodeFrom_acc]
  rfl

theorem decodeChars_eq_nil_iff {bs : Bytes} : decodeChars bs = [] ↔ bs = [] := by
  cases bs with
  | nil => simp [decodeChars_nil]
  | cons b bs =>
    by_cases h : b < 0x80
    · simp [decodeChars_short h]
    · simp [decodeChars_long h]

section

variable {short : UInt8} (hshort : short < 0x80)

include hshort

theorem not_isContinuation : isContinuation short = false := by
  rw [UInt8.lt_iff_toNat_lt] at hshort
  simp only [UInt8.reduceToNat] at hshort
  simp only [isContinuation, UInt8.le_iff_toNat_le, UInt8.reduceToNat, Bool.and_eq_false_iff, decide_eq_false_iff_not]
  omega

theorem takeContinuations_short (count : Nat) (bs rest : Bytes) :
    takeContinuations count (bs ++ short :: rest) =
      ((takeContinuations count bs).1, (takeContinuations count bs).2 ++ short :: rest) := by
  induction count generalizing bs with
  | zero => rfl
  | succ count ih =>
    cases bs with
    | nil => simp [takeContinuations, not_isContinuation hshort]
    | cons b bs =>
      by_cases hb : isContinuation b = true
      · simp [takeContinuations, hb, ih]
      · simp [takeContinuations, hb]

/-- the second byte of a longer character is not short -/
theorem second_not_short {first lo hi : UInt8} {more : Nat} (h : secondByte? first = some (lo, hi, more)) :
    ¬ lo ≤ short := by
  have hlo : 0x80 ≤ lo.toNat := by
    unfold secondByte? at h
    split_ifs at h <;> cases h <;> simp
  rw [UInt8.lt_iff_toNat_lt] at hshort
  rw [UInt8.le_iff_toNat_le]
  simp only [UInt8.reduceToNat] at hshort
  omega

/-- a longer character ends before a short one, be it complete or not -/
theorem decodeLong_middle (first : UInt8) (bs rest : Bytes) :
    decodeLong first (bs ++ short :: rest) =
      ((decodeLong first bs).1, (decodeLong first bs).2 ++ short :: rest) := by
  unfold decodeLong
  cases hsecond : secondByte? first with
  | none => rfl
  | some bounds =>
    obtain ⟨lo, hi, more⟩ := bounds
    cases bs with
    | nil => simp [second_not_short hshort hsecond]
    | cons second bs =>
      simp only [List.cons_append, takeContinuations_short hshort]
      split_ifs <;> rfl

/-- **A short character among bytes** splits what is decoded. -/
theorem decodeChars_middle (bs rest : Bytes) :
    decodeChars (bs ++ short :: rest) = decodeChars bs ++ Char.ofNat short.toNat :: decodeChars rest := by
  induction hn : bs.length using Nat.strong_induction_on generalizing bs with
  | _ n ih =>
    cases bs with
    | nil => rw [decodeChars_nil, List.nil_append, List.nil_append, decodeChars_short hshort]
    | cons b bs =>
      have hn : bs.length + 1 = n := hn
      rw [List.cons_append]
      by_cases hb : b < 0x80
      · rw [decodeChars_short hb, decodeChars_short hb, ih bs.length (by omega) bs rfl, List.cons_append]
      · have hlong := decodeLong_length b bs
        rw [decodeChars_long hb, decodeChars_long hb, decodeLong_middle hshort, ih _ (by omega) _ rfl, List.cons_append]

end

theorem isContinuation_of_taken (count : Nat) (bs : Bytes) :
    ∀ b ∈ (takeContinuations count bs).1, isContinuation b = true := by
  induction count generalizing bs with
  | zero => simp [takeContinuations]
  | succ count ih =>
    cases bs with
    | nil => simp [takeContinuations]
    | cons b bs =>
      by_cases hb : isContinuation b = true
      · simpa [takeContinuations, hb] using ih bs
      · simp [takeContinuations, hb]

/-- what a first byte and a second one within its bounds contribute: too much for a shorter character, and never half
of a pair -/
theorem code_bounds {first second lo hi : UInt8} {more : Nat} (h : secondByte? first = some (lo, hi, more))
    (hlo : lo ≤ second) (hhi : second ≤ hi) :
    let bits := leadBits first * 64 + (second.toNat - 0x80)
    more = 0 ∧ 0x80 ≤ bits ∧ bits < 0x800 ∨
      more = 1 ∧ 0x20 ≤ bits ∧ bits < 0x400 ∧ (bits < 0x360 ∨ 0x380 ≤ bits) ∨
      more = 2 ∧ 0x10 ≤ bits ∧ bits < 0x110 := by
  intro bits
  have hfirst := first.toNat_lt
  simp only [secondByte?, UInt8.lt_iff_toNat_lt, UInt8.le_iff_toNat_le, ← UInt8.toNat_inj, UInt8.reduceToNat] at h
  rw [UInt8.le_iff_toNat_le] at hlo hhi
  simp only [bits, leadBits, UInt8.le_iff_toNat_le, UInt8.reduceToNat]
  -- one case for each range of first bytes
  split_ifs at h <;> cases h <;> simp only [UInt8.reduceToNat] at hlo hhi <;> split_ifs <;> omega

theorem continuation_bounds {b : UInt8} (h : isContinuation b = true) : 0x80 ≤ b.toNat ∧ b.toNat ≤ 0xBF := by
  simpa [isContinuation, UInt8.le_iff_toNat_le] using h

/-- the code of a character of several bytes -/
theorem code_valid {bits : Nat} {tail : Bytes} (htail : ∀ b ∈ tail, isContinuation b = true)
    (hbits : tail.length = 0 ∧ 0x80 ≤ bits ∧ bits < 0x800 ∨
      tail.length = 1 ∧ 0x20 ≤ bits ∧ bits < 0x400 ∧ (bits < 0x360 ∨ 0x380 ≤ bits) ∨
      tail.length = 2 ∧ 0x10 ≤ bits ∧ bits < 0x110) :
    let code := tail.foldl (fun n b => n * 64 + (b.toNat - 0x80)) bits
    0x80 ≤ code ∧ code.isValidChar := by
  intro code
  simp only [code, Nat.isValidChar]
  match tail with
  | [] =>
    simp only [List.length_nil, List.foldl_nil] at hbits ⊢
    omega
  | [b] =>
    have hb := continuation_bounds (htail b List.mem_cons_self)
    simp only [List.length_cons, List.length_nil, List.foldl_cons, List.foldl_nil] at hbits ⊢
    omega
  | [b, c] =>
    have hb := continuation_bounds (htail b List.mem_cons_self)
    have hc := continuation_bounds (htail c (List.mem_cons_of_mem b List.mem_cons_self))
    simp only [List.length_cons, List.length_nil, List.foldl_cons, List.foldl_nil] at hbits ⊢
    omega
  | _ :: _ :: _ :: _ =>
    simp only [List.length_cons] at hbits
    omega

/-- a character of several bytes, or the one that stands for them, is not short -/
theorem decodeLong_not_short (first : UInt8) (bs : Bytes) : 0x80 ≤ (decodeLong first bs).1.toNat := by
  have hreplacement : 0x80 ≤ replacement.toNat := by decide
  unfold decodeLong
  split
  · rename_i lo hi more second rest hsecond
    by_cases hbounds : (decide (lo ≤ second) && decide (second ≤ hi)) = true
    · rw [if_pos hbounds]
      obtain ⟨hlo, hhi⟩ : lo ≤ second ∧ second ≤ hi := by simpa using hbounds
      have hcode := code_bounds hsecond hlo hhi
      have htail := isContinuation_of_taken more rest
      rcases htaken : takeContinuations more rest with ⟨tail, after⟩
      rw [htaken] at htail
      simp only
      split_ifs with hlength
      · subst hlength
        obtain ⟨hlong, hvalid⟩ := code_valid htail hcode
        rw [List.foldl_cons, Char.toNat_ofNat, if_pos hvalid]
        exact hlong
      · exact hreplacement
    · rw [if_neg hbounds]
      exact hreplacement
  · exact hreplacement

theorem takeContinuations_suffix (count : Nat) (bs : Bytes) : (takeContinuations count bs).2 <:+ bs := by
  induction count generalizing bs with
  | zero => exact List.suffix_refl bs
  | succ count ih =>
    cases bs with
    | nil => exact List.suffix_refl []
    | cons b bs =>
      by_cases hb : isContinuation b = true
      · simpa [takeContinuations, hb] using (ih bs).trans (List.suffix_cons b bs)
      · simp [takeContinuations, hb]

theorem decodeLong_suffix (first : UInt8) (bs : Bytes) : (decodeLong first bs).2 <:+ bs := by
  unfold decodeLong
  split
  · rename_i lo hi more second rest _
    have hrest : (takeContinuations more rest).2 <:+ second :: rest :=
      (takeContinuations_suffix more rest).trans (List.suffix_cons second rest)
    by_cases hbounds : (decide (lo ≤ second) && decide (second ≤ hi)) = true
    · rw [if_pos hbounds]
      simp only
      split_ifs <;> exact hrest
    · rw [if_neg hbounds]
  · exact List.suffix_refl _

/-- **A short character is decoded** just if its byte is there. -/
theorem ofNat_mem_decodeChars_iff {short : UInt8} (hshort : short < 0x80) {bs : Bytes} :
    Char.ofNat short.toNat ∈ decodeChars bs ↔ short ∈ bs := by
  constructor
  · intro hmem
    have hlt : short.toNat < 0x80 := UInt8.lt_iff_toNat_lt.1 hshort
    have hcode : (Char.ofNat short.toNat).toNat = short.toNat := by
      have hvalid : short.toNat.isValidChar := .inl (by omega)
      rw [Char.toNat_ofNat, if_pos hvalid]
    induction hn : bs.length using Nat.strong_induction_on generalizing bs with
    | _ n ih =>
      cases bs with
      | nil => simp [decodeChars_nil] at hmem
      | cons b bs =>
        have hn : bs.length + 1 = n := hn
        by_cases hb : b < 0x80
        · rw [decodeChars_short hb, List.mem_cons] at hmem
          rcases hmem with heq | hmem
          · have hvalid : b.toNat.isValidChar := .inl (by have := b.toNat_lt; omega)
            have hnat := congrArg Char.toNat heq
            rw [hcode, Char.toNat_ofNat, if_pos hvalid] at hnat
            rw [UInt8.toNat_inj.1 hnat]
            exact List.mem_cons_self
          · exact List.mem_cons_of_mem b (ih bs.length (by omega) hmem rfl)
        · rw [decodeChars_long hb, List.mem_cons] at hmem
          have hrest := decodeLong_suffix b bs
          rcases hmem with heq | hmem
          · have hlong := decodeLong_not_short b bs
            rw [← heq, hcode] at hlong
            omega
          · have hlength := hrest.length_le
            exact List.mem_cons_of_mem b (hrest.subset (ih _ (by omega) hmem rfl))
  · intro hmem
    obtain ⟨before, after, rfl⟩ := List.append_of_mem hmem
    rw [decodeChars_middle hshort]
    exact List.mem_append_right _ List.mem_cons_self

/-! ## Splitting and decoding -/

/-- **Splitting and then decoding** is decoding and then splitting. -/
theorem splitOn_decodeChars (bs : Bytes) : (decodeChars bs).splitOn '\n' = (bs.splitOn 10).map decodeChars := by
  have hshort : (10 : UInt8) < 0x80 := by decide
  induction hn : bs.length using Nat.strong_induction_on generalizing bs with
  | _ n ih =>
    by_cases hmem : 10 ∈ bs
    · obtain ⟨line, rest, rfl, hline⟩ := List.eq_append_cons_of_mem hmem
      have hchars : '\n' ∉ decodeChars line := fun h => hline ((ofNat_mem_decodeChars_iff hshort).1 h)
      have hlength : rest.length < n := by
        rw [← hn, List.length_append, List.length_cons]
        omega
      calc (decodeChars (line ++ 10 :: rest)).splitOn '\n'
          = (decodeChars line ++ '\n' :: decodeChars rest).splitOn '\n' := by
            rw [decodeChars_middle hshort]
            rfl
        _ = decodeChars line :: (decodeChars rest).splitOn '\n' := List.splitOn_append_cons_self_of_not_mem hchars _
        _ = decodeChars line :: (rest.splitOn 10).map decodeChars := by rw [ih _ hlength rest rfl]
        _ = ((line ++ 10 :: rest).splitOn 10).map decodeChars := by
            rw [List.splitOn_append_cons_self_of_not_mem hline, List.map_cons]
    · have hchars : '\n' ∉ decodeChars bs := fun h => hmem ((ofNat_mem_decodeChars_iff hshort).1 h)
      rw [List.splitOn_eq_singleton hmem, List.splitOn_eq_singleton hchars, List.map_singleton]

end Utf8

/-- a text without one carriage return at its end -/
def withoutReturn (cs : List Char) : List Char := if cs.getLast? = some '\r' then cs.dropLast else cs

theorem withoutReturn_snoc (cs : List Char) : withoutReturn (cs ++ ['\r']) = cs := by simp [withoutReturn]

theorem withoutReturn_of_ne {cs : List Char} (h : cs.getLast? ≠ some '\r') : withoutReturn cs = cs := if_neg h

/-- a text ends with a carriage return just if its bytes do -/
theorem Utf8.getLast?_decodeChars_return {bs : Bytes} :
    (decodeChars bs).getLast? = some '\r' ↔ bs.getLast? = some 13 := by
  have hshort : (13 : UInt8) < 0x80 := by decide
  constructor
  · intro hlast
    have hmem : 13 ∈ bs.reverse := by
      rw [List.mem_reverse, ← ofNat_mem_decodeChars_iff hshort]
      exact List.mem_of_getLast? hlast
    -- the last carriage return among the bytes, and what is behind it
    obtain ⟨behind, before, hbs, hnone⟩ := List.eq_append_cons_of_mem hmem
    have hsplit : bs = before.reverse ++ 13 :: behind.reverse := by
      rw [← List.reverse_reverse bs, hbs]
      simp
    rw [hsplit, decodeChars_middle hshort] at hlast
    by_cases hend : behind = []
    · simp [hsplit, hend]
    · have hne : decodeChars behind.reverse ≠ [] := fun h => hend (by simpa using decodeChars_eq_nil_iff.1 h)
      have hthere : '\r' ∈ decodeChars behind.reverse := by
        rw [List.getLast?_append, List.getLast?_cons, List.getLast?_eq_some_getLast hne] at hlast
        have hget : (decodeChars behind.reverse).getLast hne = '\r' := by simpa using hlast
        exact hget ▸ List.getLast_mem hne
      exact absurd (List.mem_reverse.1 ((ofNat_mem_decodeChars_iff hshort).1 hthere)) hnone
  · intro hlast
    obtain ⟨front, rfl⟩ : ∃ front, bs = front ++ [13] := ⟨bs.dropLast, (List.dropLast_append_getLast? 13 hlast).symm⟩
    rw [decodeChars_middle hshort, decodeChars_nil]
    simp

/-- **Dropping a carriage return and then decoding** is decoding and then dropping it. -/
theorem Utf8.decodeChars_dropReturn (bs : Bytes) : decodeChars (dropReturn bs) = withoutReturn (decodeChars bs) := by
  have hshort : (13 : UInt8) < 0x80 := by decide
  by_cases hlast : bs.getLast? = some 13
  · obtain ⟨front, rfl⟩ : ∃ front, bs = front ++ [13] := ⟨bs.dropLast, (List.dropLast_append_getLast? 13 hlast).symm⟩
    have hdrop : dropReturn (front ++ [13]) = front := by simp [dropReturn]
    have hchars : decodeChars (front ++ [13]) = decodeChars front ++ ['\r'] := by
      rw [decodeChars_middle hshort, decodeChars_nil]
      rfl
    rw [hdrop, hchars, withoutReturn_snoc]
  · have hdrop : dropReturn bs = bs := if_neg hlast
    rw [hdrop, withoutReturn_of_ne fun h => hlast (Utf8.getLast?_decodeChars_return.1 h)]

/-- the lines of a text: its parts between line feeds, each without one carriage return at its end -/
def textLines (text : String) : List String :=
  (rowsAt '\n' text.toList).map fun cs => String.ofList (withoutReturn cs)

/-- **The lines of bytes** are the lines of their text. -/
theorem decodeLine_rowsAt (bs : Utf8.Bytes) : (rowsAt 10 bs).map decodeLine = textLines (Utf8.decode bs) := by
  have hrows : rowsAt '\n' (Utf8.decodeChars bs) = (rowsAt 10 bs).map Utf8.decodeChars :=
    rowsAt_map (fun _ => Utf8.decodeChars_eq_nil_iff) (Utf8.splitOn_decodeChars bs)
  have hline : ∀ piece, decodeLine piece = String.ofList (withoutReturn (Utf8.decodeChars piece)) := by
    intro piece
    rw [decodeLine, Utf8.decode, Utf8.decodeChars_dropReturn]
  rw [textLines, Utf8.decode, String.toList_ofList, hrows, List.map_map]
  exact List.map_congr_left fun piece _ => hline piece

/-! ## Lines that are written -/

/-- the end of a line -/
inductive LineEnd where
  | feed
  | returnFeed
  deriving DecidableEq, Repr

def LineEnd.bytes : LineEnd → Utf8.Bytes
  | .feed => [10]
  | .returnFeed => [13, 10]

/-- lines with their ends, and a last one without -/
def writtenLines (rows : List (String × LineEnd)) (last : Option String) : Utf8.Bytes :=
  (rows.flatMap fun row => Utf8.encode row.1 ++ row.2.bytes) ++ (last.map Utf8.encode).getD []

/-- a text that may stand on a line: it has no line feed, and no carriage return at its end -/
def FitsLine (s : String) : Prop := '\n' ∉ s.toList ∧ s.toList.getLast? ≠ some '\r'

theorem decodeLine_encode {s : String} (h : FitsLine s) : decodeLine (Utf8.encode s) = s := by
  have hchars : Utf8.decodeChars (Utf8.encode s) = s.toList := Utf8.decodeFrom_flatMap [] s.toList
  rw [decodeLine, Utf8.decode, Utf8.decodeChars_dropReturn, hchars, withoutReturn_of_ne h.2, String.ofList_toList]

theorem decodeLine_encode_return (s : String) : decodeLine (Utf8.encode s ++ [13]) = s := by
  have hdrop : dropReturn (Utf8.encode s ++ [13]) = Utf8.encode s := by simp [dropReturn]
  rw [decodeLine, hdrop, Utf8.decode_encode]

/-- one line and its end -/
theorem decodeLine_rowsAt_cons {s : String} (h : FitsLine s) (e : LineEnd) (rest : Utf8.Bytes) :
    (rowsAt 10 (Utf8.encode s ++ e.bytes ++ rest)).map decodeLine = s :: (rowsAt 10 rest).map decodeLine := by
  have hbytes : 10 ∉ Utf8.encode s := Utf8.newline_notMem_encode h.1
  cases e with
  | feed =>
    have hline : Utf8.encode s ++ LineEnd.feed.bytes ++ rest = Utf8.encode s ++ 10 :: rest := by simp [LineEnd.bytes]
    rw [hline, rowsAt_cons hbytes, List.map_cons, decodeLine_encode h]
  | returnFeed =>
    have hline : Utf8.encode s ++ LineEnd.returnFeed.bytes ++ rest = (Utf8.encode s ++ [13]) ++ 10 :: rest := by
      simp [LineEnd.bytes]
    have hreturn : 10 ∉ Utf8.encode s ++ [13] := by simp [hbytes]
    rw [hline, rowsAt_cons hreturn, List.map_cons, decodeLine_encode_return]

/-- **Texts that are written as lines** are their lines. -/
theorem decodeLine_rowsAt_written {rows : List (String × LineEnd)} {last : Option String}
    (hrows : ∀ row ∈ rows, FitsLine row.1) (hlast : ∀ s, last = some s → s ≠ "" ∧ FitsLine s) :
    (rowsAt 10 (writtenLines rows last)).map decodeLine = rows.map Prod.fst ++ last.toList := by
  induction rows with
  | nil =>
    cases last with
    | none => simp [writtenLines, rowsAt_nil]
    | some s =>
      obtain ⟨hne, hfits⟩ := hlast s rfl
      have hwritten : writtenLines [] (some s) = Utf8.encode s := by simp [writtenLines]
      rw [hwritten, rowsAt_last (Utf8.newline_notMem_encode hfits.1) (Utf8.encode_ne_nil hne), List.map_singleton,
        decodeLine_encode hfits]
      rfl
  | cons row rest ih =>
    have hwritten : writtenLines (row :: rest) last =
        Utf8.encode row.1 ++ row.2.bytes ++ writtenLines rest last := by
      simp [writtenLines, List.append_assoc]
    rw [hwritten, decodeLine_rowsAt_cons (hrows row List.mem_cons_self) row.2 (writtenLines rest last),
      ih fun other hother => hrows other (List.mem_cons_of_mem row hother), List.map_cons, List.cons_append]

/-! ## Readers -/

theorem modifyHead_self {α : Type} (parts : List (List α)) : parts.modifyHead (fun part => part) = parts := by
  cases parts <;> rfl

theorem splitFrom_eq (done : List Utf8.Bytes) (current bs : Utf8.Bytes) :
    (splitFrom done current bs).1 ++ [(splitFrom done current bs).2] =
      done.reverse ++ (bs.splitOn 10).modifyHead (current.reverse ++ ·) := by
  induction bs generalizing done current with
  | nil => simp [splitFrom]
  | cons b bs ih =>
    by_cases hb : b = 10
    · rw [splitFrom, if_pos hb, ih, List.splitOn_cons_eq_if_modifyHead, hb]
      simp [modifyHead_self]
    · rw [splitFrom, if_neg hb, ih, List.splitOn_cons_eq_if_modifyHead, if_neg (by simpa using hb)]
      simp [List.modifyHead_modifyHead, Function.comp_def]

/-- the pieces of bytes between line feeds -/
theorem splitOn_eq_splitBytes (bs : Utf8.Bytes) : bs.splitOn 10 = (splitBytes bs).1 ++ [(splitBytes bs).2] := by
  rw [splitBytes, splitFrom_eq]
  simp [modifyHead_self]

/-- the lines of a reader that comes to its end -/
theorem Source.lines_of_ends (bs : Utf8.Bytes) : (Source.mk bs none).lines = rowsAt 10 bs := by
  rw [rowsAt_eq (splitOn_eq_splitBytes bs), Source.lines]
  by_cases hrest : (splitBytes bs).2 = []
  · simp [hrest]
  · simp [hrest]

/-- texts as lines, numbered from the one behind some others -/
def numberedBehind (before : Nat) (texts : List String) : List ReadLine :=
  texts.mapIdx fun i text => { number := before + i + 1, text := text }

theorem numberedBehind_cons (before : Nat) (text : String) (rest : List String) :
    numberedBehind before (text :: rest) =
      { number := before + 1, text := text } :: numberedBehind (before + 1) rest := by
  have hnext : (fun i text => ({ number := before + (i + 1) + 1, text := text } : ReadLine)) =
      fun i text => { number := before + 1 + i + 1, text := text } := by
    funext i text
    rw [Nat.add_right_comm before 1 i, Nat.add_assoc before i 1]
  rw [numberedBehind, List.mapIdx_cons, hnext]
  rfl

theorem length_numberedBehind (before : Nat) (texts : List String) :
    (numberedBehind before texts).length = texts.length := List.length_mapIdx

theorem numberedBehind_append (before : Nat) (xs ys : List String) :
    numberedBehind before (xs ++ ys) = numberedBehind before xs ++ numberedBehind (before + xs.length) ys := by
  induction xs generalizing before with
  | nil => rfl
  | cons x rest ih =>
    rw [List.cons_append, numberedBehind_cons, numberedBehind_cons, ih, List.cons_append, List.length_cons,
      Nat.add_right_comm before 1, Nat.add_assoc before]

/-- a line with its number raised -/
def ReadLine.behind (before : Nat) (l : ReadLine) : ReadLine := { l with number := before + l.number }

theorem numberedBehind_eq_map (before more : Nat) (texts : List String) :
    numberedBehind (before + more) texts = (numberedBehind more texts).map (ReadLine.behind before) := by
  induction texts generalizing more with
  | nil => rfl
  | cons text rest ih =>
    rw [numberedBehind_cons, numberedBehind_cons, List.map_cons, Nat.add_assoc, ih]
    rfl

theorem scanFrom_ends (before : Nat) (lines : List Utf8.Bytes) :
    scanFrom none (fun _ => false) (fun _ => true) before lines =
      (numberedBehind before (lines.map decodeLine), .exhausted) := by
  induction lines generalizing before with
  | nil => rfl
  | cons line rest ih =>
    rw [scanFrom, if_neg Bool.false_ne_true]
    simp only [if_true, ih, List.map_cons, numberedBehind_cons]

/-- what a reader that comes to its end gives a consumer that takes everything -/
def linesOf (bs : Utf8.Bytes) : List ReadLine × ScanEnd := scan ⟨bs, none⟩ (fun _ => false) fun _ => true

theorem linesOf_eq (bs : Utf8.Bytes) :
    linesOf bs = (numberedBehind 0 ((rowsAt 10 bs).map decodeLine), .exhausted) := by
  rw [linesOf, scan, Source.lines_of_ends, scanFrom_ends]

/-- **What a reader gives.**
- Whatever the bytes are, it gives the lines of their text, in which bytes that are no text have been replaced: the
  parts between line feeds, without the last one if it is empty, each without one carriage return at its end.
- Behind bytes that end with a line feed it gives what it gives by itself, with higher numbers.
- Texts that are written as lines come back, be it with line feeds or with carriage returns before them, in any
  mixture, and with or without an end behind the last one. -/
theorem linesOf_laws :
    (∀ bs, linesOf bs = (numberedBehind 0 (textLines (Utf8.decode bs)), .exhausted)) ∧
      (∀ front bs, front = [] ∨ front.getLast? = some 10 →
        (linesOf (front ++ bs)).1 =
          (linesOf front).1 ++ (linesOf bs).1.map (ReadLine.behind (linesOf front).1.length)) ∧
      ∀ (rows : List (String × LineEnd)) (last : Option String), (∀ row ∈ rows, FitsLine row.1) →
        (∀ s, last = some s → s ≠ "" ∧ FitsLine s) →
        linesOf (writtenLines rows last) = (numberedBehind 0 (rows.map Prod.fst ++ last.toList), .exhausted) := by
  refine ⟨fun bs => ?_, fun front bs hfront => ?_, fun rows last hrows hlast => ?_⟩
  · rw [linesOf_eq, decodeLine_rowsAt]
  · rcases hfront with rfl | hfront
    · have hnone : (linesOf []).1 = [] := by rw [linesOf_eq, rowsAt_nil]; rfl
      have hsame : ∀ l, ReadLine.behind 0 l = l := fun l => by simp [ReadLine.behind]
      rw [hnone, List.nil_append, List.nil_append, List.length_nil, List.map_congr_left fun l _ => hsame l,
        List.map_id']
    · obtain ⟨whole, rfl⟩ : ∃ whole, front = whole ++ [10] :=
        ⟨front.dropLast, (List.dropLast_append_getLast? 10 hfront).symm⟩
      have hrows : rowsAt 10 (whole ++ [10] ++ bs) = rowsAt 10 (whole ++ [10]) ++ rowsAt 10 bs := by
        have hfront : rowsAt 10 (whole ++ [10]) = whole.splitOn 10 := by
          rw [rowsAt_behind, rowsAt_nil, List.append_nil]
        rw [List.append_assoc, List.singleton_append, rowsAt_behind, hfront]
      simp only [linesOf_eq, hrows, List.map_append, numberedBehind_append, length_numberedBehind, List.length_map,
        Nat.zero_add]
      exact congrArg _ (numberedBehind_eq_map (rowsAt 10 (whole ++ [10])).length 0 _)
  · rw [linesOf_eq, decodeLine_rowsAt_written hrows hlast]

/-- a character that is cut off by the end of its line, and texts with a carriage return inside and without any end -/
theorem linesOf_laws_mixed :
    (([97, 0xE2, 0x82, 10] : Utf8.Bytes).getLast? = some 10 ∧
      (linesOf ([97, 0xE2, 0x82, 10] ++ [13])).1 = [⟨1, "a\uFFFD", none⟩, ⟨2, "", none⟩]) ∧
      (∀ row ∈ [("a\rb", LineEnd.returnFeed), ("", .feed)], FitsLine row.1) ∧
        linesOf (writtenLines [("a\rb", .returnFeed), ("", .feed)] (some "é")) =
          ([⟨1, "a\rb", none⟩, ⟨2, "", none⟩, ⟨3, "é", none⟩], .exhausted) := by
  have hrows : ∀ row ∈ [("a\rb", LineEnd.returnFeed), ("", .feed)], FitsLine row.1 := by
    simp only [FitsLine]
    decide
  have hlast : ∀ s, some "é" = some s → s ≠ "" ∧ FitsLine s := by
    rintro _ ⟨⟩
    simp only [FitsLine]
    decide
  refine ⟨⟨rfl, ?_⟩, hrows, (linesOf_laws.2.2 _ _ hrows hlast).trans rfl⟩
  rw [linesOf_laws.2.1 _ _ (.inr rfl), linesOf_laws.1, linesOf_laws.1]
  decide +kernel

end Gleaner
