/-
Texts as bytes.

A text is written as UTF-8 and read back from its bytes (`Utf8.decode_encode`). The byte of a line break is part of no
other character, so the lines of a text are the lines of its bytes (`splitBytes_lines`).

Results:
- `Utf8.decodeFrom_encodeChar`, `Utf8.decode_encode`: characters and texts are read back;
- `Utf8.newline_notMem_encode`: a text without a line break has no byte of one;
- `splitBytes_lines`: texts without line breaks, each on a line of its own.
-/
import Gleaner.Lines
import Gleaner.Proofs.Arrangement

namespace Gleaner

namespace Utf8

/-! ## Characters -/

theorem takeContinuations_append {tail : Bytes} (h : ∀ b ∈ tail, isContinuation b = true) (rest : Bytes) :
    takeContinuations tail.length (tail ++ rest) = (tail, rest) := by
  induction tail with
  | nil => rfl
  | cons b tail ih =>
    have hrest := ih fun c hc => h c (List.mem_cons_of_mem _ hc)
    rw [List.length_cons, List.cons_append, takeContinuations, if_pos (h b List.mem_cons_self), hrest]

/-- a first byte with as many others behind it as it asks for -/
theorem decodeLong_eq {first second lo hi : UInt8} {tail : Bytes} (h : secondByte? first = some (lo, hi, tail.length))
    (hlo : lo ≤ second) (hhi : second ≤ hi) (htail : ∀ b ∈ tail, isContinuation b = true) (rest : Bytes) :
    decodeLong first (second :: (tail ++ rest)) =
      (Char.ofNat ((second :: tail).foldl (fun n b => n * 64 + (b.toNat - 0x80)) (leadBits first)), rest) := by
  have hsecond : (decide (lo ≤ second) && decide (second ≤ hi)) = true := by simp [hlo, hhi]
  unfold decodeLong
  rw [h]
  simp only [hsecond, if_true, takeContinuations_append htail]

theorem toNat_toUInt8 {n : Nat} (h : n < 256) : n.toUInt8.toNat = n := by
  rw [Nat.toUInt8_eq, UInt8.toNat_ofNat']
  exact Nat.mod_eq_of_lt h

theorem isContinuation_toUInt8 (n : Nat) : isContinuation (0x80 + n % 64).toUInt8 = true := by
  have hbyte : (0x80 + n % 64).toUInt8.toNat = 0x80 + n % 64 := toNat_toUInt8 (by omega)
  simp only [isContinuation, UInt8.le_iff_toNat_le, hbyte, Bool.and_eq_true, decide_eq_true_eq, UInt8.reduceToNat]
  omega

/-- a first byte that begins a character with a second byte `second` and `more` others -/
def Begins (first : UInt8) (bits second more : Nat) : Prop :=
  0x80 ≤ first.toNat ∧ leadBits first = bits ∧
    ∃ lo hi, secondByte? first = some (lo, hi, more) ∧ lo.toNat ≤ second ∧ second ≤ hi.toNat

section

variable {n : Nat}

theorem begins_two (h₁ : 0x80 ≤ n) (h₂ : n < 0x800) : Begins (0xC0 + n / 64).toUInt8 (n / 64) (0x80 + n % 64) 0 := by
  have hfirst : (0xC0 + n / 64).toUInt8.toNat = 0xC0 + n / 64 := toNat_toUInt8 (by omega)
  refine ⟨by omega, ?_, ?_⟩
  · simp only [leadBits, UInt8.le_iff_toNat_le, hfirst, UInt8.reduceToNat]
    split_ifs <;> omega
  · simp only [secondByte?, UInt8.lt_iff_toNat_lt, UInt8.le_iff_toNat_le, ← UInt8.toNat_inj, hfirst, UInt8.reduceToNat]
    rw [if_neg (by omega), if_pos (by omega)]
    refine ⟨_, _, rfl, ?_⟩
    simp only [UInt8.reduceToNat]
    omega

theorem begins_three (h₁ : 0x800 ≤ n) (h₂ : n < 0x10000) (hvalid : n < 0xD800 ∨ 0xDFFF < n) :
    Begins (0xE0 + n / 4096).toUInt8 (n / 4096) (0x80 + n / 64 % 64) 1 := by
  have hfirst : (0xE0 + n / 4096).toUInt8.toNat = 0xE0 + n / 4096 := toNat_toUInt8 (by omega)
  refine ⟨by omega, ?_, ?_⟩
  · simp only [leadBits, UInt8.le_iff_toNat_le, hfirst, UInt8.reduceToNat]
    split_ifs <;> omega
  · simp only [secondByte?, UInt8.lt_iff_toNat_lt, UInt8.le_iff_toNat_le, ← UInt8.toNat_inj, hfirst, UInt8.reduceToNat]
    rw [if_neg (by omega), if_neg (by omega)]
    split_ifs
    all_goals first
      | omega
      | refine ⟨_, _, rfl, ?_⟩
        simp only [UInt8.reduceToNat]
        omega

theorem begins_four (h₁ : 0x10000 ≤ n) (h₂ : n < 0x110000) :
    Begins (0xF0 + n / 262144).toUInt8 (n / 262144) (0x80 + n / 4096 % 64) 2 := by
  have hfirst : (0xF0 + n / 262144).toUInt8.toNat = 0xF0 + n / 262144 := toNat_toUInt8 (by omega)
  refine ⟨by omega, ?_, ?_⟩
  · simp only [leadBits, UInt8.le_iff_toNat_le, hfirst, UInt8.reduceToNat]
    split_ifs <;> omega
  · simp only [secondByte?, UInt8.lt_iff_toNat_lt, UInt8.le_iff_toNat_le, ← UInt8.toNat_inj, hfirst, UInt8.reduceToNat]
    rw [if_neg (by omega), if_neg (by omega), if_neg (by omega), if_neg (by omega), if_neg (by omega)]
    split_ifs
    all_goals first
      | omega
      | refine ⟨_, _, rfl, ?_⟩
        simp only [UInt8.reduceToNat]
        omega

end

/-- a character of several bytes -/
theorem decodeFrom_long {first second : UInt8} {bits : Nat} (tail : Bytes)
    (h : Begins first bits second.toNat tail.length) (htail : ∀ b ∈ tail, isContinuation b = true) {c : Char}
    (hc : Char.ofNat ((second :: tail).foldl (fun n b => n * 64 + (b.toNat - 0x80)) bits) = c) (acc : List Char)
    (rest : Bytes) : decodeFrom acc (first :: second :: (tail ++ rest)) = decodeFrom (c :: acc) rest := by
  obtain ⟨hfirst, rfl, lo, hi, hsecond, hlo, hhi⟩ := h
  have hlong : ¬ first < 0x80 := by
    rw [UInt8.lt_iff_toNat_lt]
    exact Nat.not_lt.2 hfirst
  rw [decodeFrom, if_neg hlong, decodeLong_eq hsecond (UInt8.le_iff_toNat_le.2 hlo) (UInt8.le_iff_toNat_le.2 hhi) htail,
    hc]

/-- **A character is read back.** -/
theorem decodeFrom_encodeChar (acc : List Char) (c : Char) (rest : Bytes) :
    decodeFrom acc (encodeChar c ++ rest) = decodeFrom (c :: acc) rest := by
  have hlt := toNat_lt c
  have hvalid : c.toNat < 0xD800 ∨ 0xDFFF < c.toNat := by
    rcases c.valid with h | h
    · exact .inl h
    · exact .inr h.1
  have hchar := Char.ofNat_toNat c
  unfold encodeChar
  dsimp only
  generalize c.toNat = n at *
  have hlast : (0x80 + n % 64).toUInt8.toNat = 0x80 + n % 64 := toNat_toUInt8 (by omega)
  have hmiddle : (0x80 + n / 64 % 64).toUInt8.toNat = 0x80 + n / 64 % 64 := toNat_toUInt8 (by omega)
  have hhigh : (0x80 + n / 4096 % 64).toUInt8.toNat = 0x80 + n / 4096 % 64 := toNat_toUInt8 (by omega)
  split_ifs with hone htwo hthree
  · have hbyte : n.toUInt8.toNat = n := toNat_toUInt8 (by omega)
    have hshort : n.toUInt8 < 0x80 := by
      rw [UInt8.lt_iff_toNat_lt, hbyte]
      exact hone
    rw [List.singleton_append, decodeFrom, if_pos hshort, hbyte, hchar]
  · have hfirst := begins_two (Nat.not_lt.1 hone) htwo
    rw [← hlast] at hfirst
    refine decodeFrom_long [] hfirst (fun _ hmem => absurd hmem List.not_mem_nil) ?_ acc rest
    rw [← hchar]
    simp only [List.foldl_cons, List.foldl_nil, hlast]
    exact congrArg Char.ofNat (by omega)
  · have hfirst := begins_three (Nat.not_lt.1 htwo) hthree hvalid
    rw [← hmiddle] at hfirst
    refine decodeFrom_long [_] hfirst (List.forall_mem_singleton.2 (isContinuation_toUInt8 n)) ?_ acc rest
    rw [← hchar]
    simp only [List.foldl_cons, List.foldl_nil, hmiddle, hlast]
    exact congrArg Char.ofNat (by omega)
  · have hfirst := begins_four (Nat.not_lt.1 hthree) hlt
    rw [← hhigh] at hfirst
    refine decodeFrom_long [_, _] hfirst ?_ ?_ acc rest
    · rw [List.forall_mem_cons, List.forall_mem_singleton]
      exact ⟨isContinuation_toUInt8 (n / 64), isContinuation_toUInt8 n⟩
    · rw [← hchar]
      simp only [List.foldl_cons, List.foldl_nil, hhigh, hmiddle, hlast]
      exact congrArg Char.ofNat (by omega)

/-! ## Texts -/

theorem decodeFrom_flatMap (acc cs : List Char) : decodeFrom acc (cs.flatMap encodeChar) = acc.reverse ++ cs := by
  induction cs generalizing acc with
  | nil => simp [decodeFrom]
  | cons c cs ih =>
    rw [List.flatMap_cons, decodeFrom_encodeChar, ih, List.reverse_cons, List.append_assoc, List.singleton_append]

/-- **A text is read back from its bytes.** -/
theorem decode_encode (s : String) : decode (encode s) = s := by
  have hchars : decodeChars (encode s) = s.toList := decodeFrom_flatMap [] s.toList
  rw [decode, hchars, String.ofList_toList]

theorem encode_append (s t : String) : encode (s ++ t) = encode s ++ encode t := by
  rw [encode, String.toList_append, List.flatMap_append]
  rfl

theorem encode_ne_nil {s : String} (h : s ≠ "") : encode s ≠ [] := by
  intro hnil
  have hs := decode_encode s
  rw [hnil] at hs
  exact h (hs.symm.trans (by simp [decode, decodeChars, decodeFrom]))

theorem newline_notMem_encodeChar {c : Char} (h : c ≠ '\n') : 10 ∉ encodeChar c := by
  have hlt := toNat_lt c
  have hne : c.toNat ≠ 10 := fun heq => h (Char.toNat_inj.1 heq)
  unfold encodeChar
  dsimp only
  generalize c.toNat = n at *
  have hbyte : ∀ {k : Nat}, k < 256 → k ≠ 10 → (10 : UInt8) ≠ k.toUInt8 := by
    intro k hk hten heq
    have hvalue := congrArg UInt8.toNat heq
    rw [toNat_toUInt8 hk] at hvalue
    exact hten hvalue.symm
  -- the bytes of a longer character are above 0x80
  split_ifs with hone htwo hthree <;> simp only [List.mem_cons, List.not_mem_nil, or_false, not_or]
  · exact hbyte (by omega) hne
  · exact ⟨hbyte (by omega) (by omega), hbyte (by omega) (by omega)⟩
  · exact ⟨hbyte (by omega) (by omega), hbyte (by omega) (by omega), hbyte (by omega) (by omega)⟩
  · exact ⟨hbyte (by omega) (by omega), hbyte (by omega) (by omega), hbyte (by omega) (by omega),
      hbyte (by omega) (by omega)⟩

/-- **A text without a line break** has no byte of one. -/
theorem newline_notMem_encode {s : String} (h : '\n' ∉ s.toList) : 10 ∉ encode s := by
  intro hmem
  obtain ⟨c, hc, hbyte⟩ := List.mem_flatMap.1 hmem
  exact newline_notMem_encodeChar (fun heq => h (heq ▸ hc)) hbyte

end Utf8

/-! ## Lines -/

theorem splitFrom_line {line : Utf8.Bytes} (h : 10 ∉ line) (done : List Utf8.Bytes) (current rest : Utf8.Bytes) :
    splitFrom done current (line ++ 10 :: rest) = splitFrom ((current.reverse ++ line) :: done) [] rest := by
  induction line generalizing current with
  | nil => simp [splitFrom]
  | cons b line ih =>
    have hb : b ≠ 10 := fun heq => h (heq ▸ List.mem_cons_self)
    have hline := ih (fun hmem => h (List.mem_cons_of_mem b hmem)) (b :: current)
    rw [List.cons_append, splitFrom, if_neg hb, hline, List.reverse_cons, List.append_assoc, List.singleton_append]

/-- **Texts without line breaks**, each on a line of its own, are the lines of their bytes. -/
theorem splitBytes_lines {texts : List String} (h : ∀ s ∈ texts, '\n' ∉ s.toList) :
    splitBytes (Utf8.encode (String.join (texts.map (· ++ "\n")))) = (texts.map Utf8.encode, []) := by
  have hfrom : ∀ done, splitFrom done [] (Utf8.encode (String.join (texts.map (· ++ "\n")))) =
      (done.reverse ++ texts.map Utf8.encode, []) := by
    induction texts with
    | nil => simp [splitFrom, Utf8.encode]
    | cons s rest ih =>
      intro done
      have hline := Utf8.newline_notMem_encode (h s List.mem_cons_self)
      have hbreak : Utf8.encode "\n" = [10] := by decide
      rw [List.map_cons, String.join_cons, Utf8.encode_append, Utf8.encode_append, hbreak, List.append_assoc,
        List.singleton_append, splitFrom_line hline, ih (fun s hs => h s (List.mem_cons_of_mem _ hs))]
      simp
  exact hfrom []

end Gleaner
