/-
Texts that are written between quotes.

The printers write a text character by character, and indent what follows a line break that stands for itself
(`spread`). Where all characters but blanks and such breaks are solid, and blanks never touch breaks, that is a quoted
text in the sense of its reader (`quoted_spread`). So are the texts of both styles of quotes. The texts quoted as JSON
are as well if their separators do not touch blanks (`isUnfolded`): separators are not escaped there.

Results:
- `quoted_doubleQuoted`, `quoted_of_style`: the styles of the printer of YAML;
- `quoted_json`: the quotes of the printer of JSON.
-/
import Gleaner.Proofs.Quotes
import Gleaner.Yaml.Printer

namespace Gleaner.Yaml

/-! ## Texts that are written between quotes -/

section

variable {single : Bool} {write : Char → List Char} {bare : Char → Bool} {indent : Nat}

/-- a text, each character written in its way, with indentation behind the line breaks that stand for themselves;
`fresh` tells whether a line begins here -/
def spread (write : Char → List Char) (bare : Char → Bool) (indent : Nat) : Bool → List Char → List Char
  | fresh, [] => if fresh then List.replicate indent ' ' else []
  | fresh, x :: q =>
    if bare x then x :: spread write bare indent true q
    else (if fresh then List.replicate indent ' ' else []) ++ write x ++ spread write bare indent false q

theorem spread_fresh {q : List Char} (h : ∀ x ∈ q.head?, bare x = false) :
    spread write bare indent true q = List.replicate indent ' ' ++ spread write bare indent false q := by
  cases q with
  | nil => simp [spread]
  | cons x q => simp [spread, h x rfl]

theorem spread_blanks (hwrite : write ' ' = [' ']) (hbare : bare ' ' = false) (k : Nat) (q : List Char) :
    spread write bare indent false (List.replicate k ' ' ++ q) =
      List.replicate k ' ' ++ spread write bare indent false q := by
  induction k with
  | zero => rfl
  | succ k ih => simp [List.replicate_succ, spread, hbare, hwrite, ih]

theorem spread_breaks {bs q : List Char} (hbs : ∀ b ∈ bs, bare b = true) :
    spread write bare indent true (bs ++ q) = bs ++ spread write bare indent true q := by
  induction bs with
  | nil => rfl
  | cons b bs ih =>
    rw [List.cons_append, spread, if_pos (hbs b List.mem_cons_self),
      ih fun b hb => hbs b (List.mem_cons_of_mem _ hb)]
    rfl

/-- a run of characters at the start of a text -/
theorem exists_run (p : Char → Bool) (q : List Char) :
    ∃ run rest, q = run ++ rest ∧ (∀ x ∈ run, p x = true) ∧ ∀ x ∈ rest.head?, p x = false := by
  induction q with
  | nil => exact ⟨[], [], rfl, nofun, nofun⟩
  | cons x q ih =>
    cases hx : p x with
    | false => exact ⟨[], x :: q, rfl, nofun, fun y hy => by cases hy; exact hx⟩
    | true =>
      obtain ⟨run, rest, rfl, hrun, hrest⟩ := ih
      refine ⟨x :: run, rest, rfl, fun y hy => ?_, hrest⟩
      rcases List.mem_cons.1 hy with rfl | hy
      · exact hx
      · exact hrun y hy

theorem hasPair_cons {p q : Char → Bool} {x y : Char} {rest : List Char} (h : hasPair p q (x :: y :: rest) = false) :
    ¬(p x = true ∧ q y = true) ∧ hasPair p q (y :: rest) = false := by
  simp only [hasPair, Bool.or_eq_false_iff, Bool.and_eq_false_iff] at h
  refine ⟨fun ⟨hx, hy⟩ => ?_, h.2⟩
  rcases h.1 with hp | hq
  · rw [hx] at hp; cases hp
  · rw [hy] at hq; cases hq

/-- what follows a run of characters is no pair with its last one -/
theorem hasPair_append {p q : Char → Bool} {run rest : List Char} (hrun : ∀ x ∈ run, p x = true) (hne : run ≠ [])
    (h : hasPair p q (run ++ rest) = false) : (∀ y ∈ rest.head?, q y = false) := by
  induction run with
  | nil => exact absurd rfl hne
  | cons x run ih =>
    cases run with
    | nil =>
      intro y hy
      cases rest with
      | nil => cases hy
      | cons z rest =>
        cases hy
        cases hq : q y with
        | false => rfl
        | true => exact absurd ⟨hrun x List.mem_cons_self, hq⟩ (hasPair_cons h).1
    | cons x' run =>
      exact ih (fun y hy => hrun y (List.mem_cons_of_mem _ hy)) (List.cons_ne_nil _ _) (hasPair_cons h).2

theorem hasPair_tail {p q : Char → Bool} {x : Char} {rest : List Char} (h : hasPair p q (x :: rest) = false) :
    hasPair p q rest = false := by
  cases rest with
  | nil => rfl
  | cons y rest => exact (hasPair_cons h).2

theorem hasPair_of_append {p q : Char → Bool} {run rest : List Char} (h : hasPair p q (run ++ rest) = false) :
    hasPair p q rest = false := by
  induction run with
  | nil => exact h
  | cons x run ih => exact ih (hasPair_tail h)

theorem hasPair_mono {p p' q q' : Char → Bool} {cs : List Char} (hp : ∀ x ∈ cs, p x = true → p' x = true)
    (hq : ∀ x ∈ cs, q x = true → q' x = true) (h : hasPair p' q' cs = false) : hasPair p q cs = false := by
  induction cs with
  | nil => rfl
  | cons x cs ih =>
    cases cs with
    | nil => rfl
    | cons y cs =>
      obtain ⟨hpair, hrest⟩ := hasPair_cons h
      have hmore := ih (fun z hz => hp z (List.mem_cons_of_mem _ hz)) (fun z hz => hq z (List.mem_cons_of_mem _ hz)) hrest
      have hno : (p x && q y) = false := by
        rw [Bool.and_eq_false_iff]
        by_contra hboth
        simp only [not_or, Bool.not_eq_false] at hboth
        exact hpair ⟨hp x List.mem_cons_self hboth.1, hq y (List.mem_cons_of_mem _ List.mem_cons_self) hboth.2⟩
      rw [hasPair, hno, hmore]
      rfl

theorem hasPair_never {p q : Char → Bool} {cs : List Char} (h : ∀ x y, ¬(p x = true ∧ q y = true)) :
    hasPair p q cs = false := by
  induction cs with
  | nil => rfl
  | cons x cs ih =>
    cases cs with
    | nil => rfl
    | cons y cs =>
      have hno : (p x && q y) = false := by
        rw [← Bool.not_eq_true, Bool.and_eq_true]
        exact h x y
      rw [hasPair, hno, ih]
      rfl

theorem Solid.inked {x : Char} {w : List Char} (h : Solid single x w) (rest : List Char) : Inked (w ++ rest) := by
  intro y hy
  cases h with
  | plain hink _ _ => cases hy; exact hink
  | doubled => cases hy; rfl
  | escaped => cases hy; rfl

theorem inked_spread {q : List Char} (hsolid : ∀ x ∈ q, x ≠ ' ' → bare x = false → Solid single x (write x))
    (hhead : ∀ x ∈ q.head?, x ≠ ' ' ∧ bare x = false) : Inked (spread write bare indent false q) := by
  cases q with
  | nil => exact nofun
  | cons x q =>
    obtain ⟨hblank, hbare⟩ := hhead x rfl
    have hx := hsolid x List.mem_cons_self hblank hbare
    rw [spread, if_neg (by rw [hbare]; exact Bool.false_ne_true), if_neg Bool.false_ne_true, List.nil_append]
    exact hx.inked _

/-- **Texts that are written between quotes**: all characters are solid but blanks and bare separators, which never stand
next to one another. -/
theorem quoted_spread (hblank : write ' ' = [' ']) (hspace : bare ' ' = false)
    (hbare : ∀ x, bare x = true → isOwnBreak x = true ∧ x ≠ '\n') {q : List Char}
    (hsolid : ∀ x ∈ q, x ≠ ' ' → bare x = false → Solid single x (write x))
    (hbefore : hasPair isSpace bare q = false) (hbehind : hasPair bare isSpace q = false) :
    Quoted single indent q (spread write bare indent false q) := by
  induction hn : q.length using Nat.strong_induction_on generalizing q with
  | _ n ih =>
  cases q with
  | nil => exact .nil
  | cons x q =>
    by_cases hx : x = ' '
    · subst hx
      obtain ⟨run, rest, hq, hrun, hrest⟩ := exists_run isSpace (' ' :: q)
      have hne : run ≠ [] := by
        rintro rfl
        rw [List.nil_append] at hq
        rw [← hq] at hrest
        cases hrest ' ' rfl
      obtain ⟨k, hk⟩ : ∃ k, run.length = k + 1 := Nat.exists_eq_add_one.2 (List.length_pos_iff.2 hne)
      have hreplicate : run = List.replicate (k + 1) ' ' :=
        List.eq_replicate_iff.2 ⟨hk, fun y hy => of_decide_eq_true (hrun y hy)⟩
      rw [hq] at hsolid hbefore hbehind hn ⊢
      have hafter := hasPair_append hrun hne hbefore
      have hmore := ih rest.length (by rw [← hn, List.length_append]; omega)
        (fun y hy => hsolid y (List.mem_append_right _ hy)) (hasPair_of_append hbefore) (hasPair_of_append hbehind) rfl
      have hinked : Inked (spread write bare indent false rest) :=
        inked_spread (fun y hy => hsolid y (List.mem_append_right _ hy)) fun y hy =>
          ⟨of_decide_eq_false (hrest y hy), hafter y hy⟩
      rw [hreplicate, spread_blanks hblank hspace]
      exact .blanks hinked hmore
    · by_cases hb : bare x = true
      · obtain ⟨run, rest, hq, hrun, hrest⟩ := exists_run bare (x :: q)
        obtain ⟨bs, rfl⟩ : ∃ bs, run = x :: bs := by
          cases run with
          | nil =>
            rw [List.nil_append] at hq
            rw [← hq] at hrest
            rw [hrest x rfl] at hb
            cases hb
          | cons y bs =>
            cases hq
            exact ⟨bs, rfl⟩
        rw [hq] at hsolid hbefore hbehind hn ⊢
        have hafter := hasPair_append hrun (List.cons_ne_nil _ _) hbehind
        have hmore := ih rest.length (by rw [← hn, List.length_append, List.length_cons]; omega)
          (fun y hy => hsolid y (List.mem_append_right _ hy)) (hasPair_of_append hbefore) (hasPair_of_append hbehind) rfl
        have hinked : Inked (spread write bare indent false rest) :=
          inked_spread (fun y hy => hsolid y (List.mem_append_right _ hy)) fun y hy =>
            ⟨of_decide_eq_false (hafter y hy), hrest y hy⟩
        rw [List.cons_append, spread, if_pos hb, spread_breaks fun b hb => hrun b (List.mem_cons_of_mem _ hb),
          spread_fresh hrest]
        exact .breaks (fun y hy => (hbare y (hrun y hy)).1) (hbare x hb).2 hinked hmore
      · have hmore := ih q.length (by rw [← hn, List.length_cons]; omega)
          (fun y hy => hsolid y (List.mem_cons_of_mem _ hy)) (hasPair_tail hbefore)
          (hasPair_tail hbehind) rfl
        rw [spread, if_neg hb, if_neg Bool.false_ne_true, List.nil_append]
        exact .solid (hsolid x List.mem_cons_self hx (Bool.not_eq_true _ ▸ hb)) hmore

end

/-! ## Escapes -/

theorem hexValue?_digit : ∀ d < 16, hexValue? (Nat.digitChar d).toUpper = some d := by decide

theorem hexNumber?_snoc (ds : List Char) (d : Char) :
    hexNumber? (ds ++ [d]) = do return (← hexNumber? ds) * 16 + (← hexValue? d) := by
  rw [hexNumber?, List.foldl_append]
  rfl

theorem hexNumber?_toDigits (n : Nat) : hexNumber? ((Nat.toDigits 16 n).map Char.toUpper) = some n := by
  induction n using Nat.strong_induction_on with
  | _ n ih =>
  rw [Nat.toDigits_eq_if (by decide)]
  split
  · next h =>
    have hdigit := hexNumber?_snoc [] (Nat.digitChar n).toUpper
    rw [hexValue?_digit n h] at hdigit
    rw [List.map_singleton]
    exact hdigit.trans (by simp [hexNumber?])
  · next h =>
    rw [List.map_append, List.map_singleton, hexNumber?_snoc, ih (n / 16) (by omega),
      hexValue?_digit (n % 16) (Nat.mod_lt _ (by decide))]
    exact congrArg some (by omega)

theorem hexNumber?_hexDigits (width n : Nat) : hexNumber? (hexDigits width n) = some n := by
  have hzeros : ∀ k, (List.replicate k '0').foldl (fun n d => do return (← n) * 16 + (← hexValue? d)) (some 0) =
      some 0 := by
    intro k
    induction k with
    | zero => rfl
    | succ k ih =>
      rw [List.replicate_succ, List.foldl_cons]
      exact ih
  have hdigits := hexNumber?_toDigits n
  rw [hexNumber?] at hdigits
  rw [hexNumber?, hexDigits, List.foldl_append, hzeros, hdigits]

theorem length_hexDigits {width n : Nat} (hwidth : 0 < width) (hn : n < 16 ^ width) :
    (hexDigits width n).length = width := by
  have hlength := Nat.toDigits_length 16 n width hwidth hn
  rw [hexDigits, List.length_append, List.length_replicate, List.length_map]
  omega

/-- a character that is written by its number -/
theorem readEscape_digits {letter x : Char} {digits : List Char} (hletter : shortEscape? letter = none)
    (hdigits : escapeDigits? letter = some digits.length) (hnumber : hexNumber? digits = some x.toNat)
    (rest : List Char) : readEscape (letter :: (digits ++ rest)) = .ok (x, digits.length + 1) := by
  have hlong : ¬ (digits ++ rest).length < digits.length := by
    rw [List.length_append]
    omega
  have hvalid : x.toNat.isValidChar := x.valid
  rw [readEscape]
  simp only [hletter, hdigits, if_neg hlong, List.take_left, hnumber, if_pos hvalid, Char.ofNat_toNat]

/-- **Escaped characters are read back.** -/
theorem solid_escapeChar (x : Char) : Solid false x (escapeChar x) := by
  have hshort : ∀ {n : Nat} {e : List Char}, x.toNat = n →
      (∀ rest, readEscape (e ++ rest) = .ok (Char.ofNat n, e.length)) → Solid false x ('\\' :: e) := by
    rintro n e rfl he
    refine .escaped rfl fun rest => ?_
    rw [he rest, Char.ofNat_toNat]
  have hnumber : ∀ {letter : Char} {width : Nat}, shortEscape? letter = none → escapeDigits? letter = some width →
      0 < width → x.toNat < 16 ^ width → Solid false x ('\\' :: letter :: hexDigits width x.toNat) := by
    intro letter width hletter hdigits hwidth hx
    rw [← length_hexDigits hwidth hx] at hdigits
    exact .escaped rfl fun rest => readEscape_digits hletter hdigits (hexNumber?_hexDigits _ _) rest
  have hrange : x.toNat < 16 ^ 8 := x.val.toNat_lt
  unfold escapeChar
  simp only
  split
  all_goals try exact hshort ‹_› fun _ => rfl
  split
  · next hx => exact hnumber rfl rfl (by decide) (Nat.lt_succ_of_le hx)
  · split
    · next hx => exact hnumber rfl rfl (by decide) (Nat.lt_succ_of_le hx)
    · exact hnumber rfl rfl (by decide) hrange

/-! ## The styles of the printers -/

/-- characters that are not written as they are need double quotes -/
theorem printable_of_style {s : String} (h : style s ≠ .doubleQuoted) : ∀ x ∈ s.toList, isPrintable x = true := by
  intro x hx
  by_contra hnot
  have hescapes : (s.toList.any (!isPrintable ·)) = true := List.any_eq_true.2 ⟨x, hx, by simpa using hnot⟩
  refine h ?_
  unfold style
  simp only [hescapes, Bool.true_or, if_true]
  split <;> rfl

theorem spread_plain {write : Char → List Char} {indent : Nat} (q : List Char) :
    spread write (fun _ => false) indent false q = q.flatMap write := by
  induction q with
  | nil => rfl
  | cons x q ih => simp [spread, ih]

/-- **Texts in double quotes** -/
theorem quoted_doubleQuoted (cs : List Char) (indent : Nat) :
    ∃ w, doubleQuoted cs = quoteMark false :: (w ++ [quoteMark false]) ∧ Quoted false indent cs w := by
  refine ⟨_, rfl, ?_⟩
  rw [← spread_plain]
  refine quoted_spread rfl rfl (fun _ h => absurd h Bool.false_ne_true) (fun x _ hx _ => ?_)
    (hasPair_never fun _ _ h => Bool.false_ne_true h.2) (hasPair_never fun _ _ h => Bool.false_ne_true h.1)
  split
  · next hplain =>
    simp only [Bool.and_eq_true, decide_eq_true_eq, Bool.not_eq_true', ne_eq] at hplain
    obtain ⟨⟨⟨hprintable, hbreak⟩, hquote⟩, hslash⟩ := hplain
    have htab : x ≠ '\t' := by rintro rfl; cases hprintable
    exact .plain (by simp [isInk, isBlank, hbreak, hx, htab]) hquote fun _ => hslash
  · exact solid_escapeChar x

/-- line and paragraph separators -/
def isSeparator (x : Char) : Bool := x.toNat = 0x2028 || x.toNat = 0x2029

theorem own_of_separator {x : Char} (h : isSeparator x = true) : isOwnBreak x = true ∧ x ≠ '\n' := by
  simp only [isSeparator, Bool.or_eq_true, decide_eq_true_eq] at h
  refine ⟨?_, ?_⟩
  · simp only [isOwnBreak, Bool.or_eq_true, decide_eq_true_eq]
    tauto
  · rintro rfl
    rcases h with h | h <;> cases h

theorem separator_of_break {x : Char} (hprintable : isPrintable x = true) (hx : x ≠ '\n') :
    isBreak x = isSeparator x := by
  have hr : x ≠ '\r' := by rintro rfl; cases hprintable
  have hnel : x.toNat ≠ 0x85 := by
    intro h
    simp [isPrintable, h] at hprintable
  simp [isBreak, isSeparator, hx, hr, hnel]

/-- a quote inside single quotes is doubled -/
def doubleMark (x : Char) : List Char := if x = '\'' then ['\'', '\''] else [x]

theorem indentLines_doubleMark {indent : Nat} {cs : List Char} (hcs : ∀ x ∈ cs, isBreak x = isSeparator x)
    (fresh : Bool) :
    indentLines indent fresh (cs.flatMap doubleMark) ++
        (if (cs.getLast?.map isBreak).getD fresh then indentation indent else []) =
      spread doubleMark isSeparator indent fresh cs := by
  induction cs generalizing fresh with
  | nil => cases fresh <;> simp [indentLines, spread, indentation]
  | cons x cs ih =>
    have hmore := ih (fun y hy => hcs y (List.mem_cons_of_mem _ hy)) (isBreak x)
    have hlast : ((x :: cs).getLast?.map isBreak).getD fresh = (cs.getLast?.map isBreak).getD (isBreak x) := by
      rw [List.getLast?_cons]
      cases cs.getLast? <;> rfl
    rw [hlast, List.flatMap_cons]
    have hx := hcs x List.mem_cons_self
    cases hbreak : isBreak x with
    | true =>
      rw [hbreak] at hmore hx
      have hmark : x ≠ '\'' := by rintro rfl; cases hbreak
      rw [spread, if_pos hx.symm, ← hmore]
      simp [doubleMark, hmark, indentLines, hbreak]
    | false =>
      rw [hbreak] at hmore hx
      have hbare : ¬ isSeparator x = true := by rw [← hx]; exact Bool.false_ne_true
      have hspread : spread doubleMark isSeparator indent fresh (x :: cs) =
          (if fresh then List.replicate indent ' ' else []) ++ doubleMark x ++
            spread doubleMark isSeparator indent false cs := by rw [spread, if_neg hbare]
      rw [hspread, ← hmore]
      by_cases hmark : x = '\''
      · subst hmark
        cases fresh <;> simp [doubleMark, indentLines, show isBreak '\'' = false from rfl, indentation]
      · cases fresh <;> simp [doubleMark, hmark, indentLines, hbreak, indentation]

/-- **Texts in single quotes** -/
theorem quoted_singleQuoted {cs : List Char} (hprintable : ∀ x ∈ cs, isPrintable x = true) (hline : '\n' ∉ cs)
    (hbefore : hasPair isSpace isBreak cs = false) (hbehind : hasPair isBreak isSpace cs = false) (indent : Nat) :
    ∃ w, singleQuoted indent cs = quoteMark true :: (w ++ [quoteMark true]) ∧ Quoted true indent cs w := by
  have hbreak : ∀ x ∈ cs, isBreak x = isSeparator x := fun x hx =>
    separator_of_break (hprintable x hx) fun heq => hline (heq ▸ hx)
  refine ⟨spread doubleMark isSeparator indent false cs, ?_, ?_⟩
  · rw [← indentLines_doubleMark hbreak]
    have hlast : (cs.getLast?.map isBreak).getD false = cs.getLast?.any isBreak := by cases cs.getLast? <;> rfl
    rw [hlast, singleQuoted]
    rfl
  · have hsubset : ∀ x ∈ cs, isSeparator x = true → isBreak x = true := fun x hx h => (hbreak x hx).trans h
    refine quoted_spread rfl rfl (fun x => own_of_separator) (fun x hx hblank hbare => ?_)
      (hasPair_mono (fun _ _ h => h) hsubset hbefore) (hasPair_mono hsubset (fun _ _ h => h) hbehind)
    unfold doubleMark
    split
    · next heq =>
      rw [heq]
      exact .doubled rfl
    · next hmark =>
      have htab : x ≠ '\t' := by
        rintro rfl
        cases hprintable _ hx
      exact .plain (by simp [isInk, isBlank, hbreak x hx, hbare, hblank, htab]) hmark nofun

theorem quoted_of_style {s : String} (h : style s = .singleQuoted) (indent : Nat) :
    ∃ w, singleQuoted indent s.toList = quoteMark true :: (w ++ [quoteMark true]) ∧ Quoted true indent s.toList w := by
  have hprintable := printable_of_style (s := s) (by rw [h]; exact nofun)
  unfold style at h
  simp only at h
  split at h
  · split at h <;> cases h
  · next hline =>
    split at h
    · cases h
    · next hescapes =>
      simp only [Bool.or_eq_true, not_or, Bool.not_eq_true, List.contains_eq_mem, decide_eq_false_iff_not]
        at hline hescapes
      exact quoted_singleQuoted hprintable hline hescapes.1.2 hescapes.2 indent

/-! ## Texts quoted as JSON -/

/-- texts that are the same between double quotes in both notations: no line break but separators stands there for
itself, and blanks next to a separator would be lost -/
def isUnfolded (cs : List Char) : Bool :=
  cs.all (·.toNat ≠ 0x85) && !hasPair isSpace isSeparator cs && !hasPair isSeparator isSpace cs

theorem hexNumber?_control : ∀ n < 0x20,
    hexNumber? ['0', '0', Json.hexDigit (n / 16), Json.hexDigit (n % 16)] = some n := by decide

theorem solid_jsonEscape {x : Char} (hblank : x ≠ ' ') (hseparator : isSeparator x = false) (hnel : x.toNat ≠ 0x85) :
    Solid false x (Json.escapeChar x) := by
  unfold Json.escapeChar
  split
  all_goals try exact .escaped rfl fun _ => rfl
  split
  · next hcontrol =>
    exact .escaped rfl fun rest => readEscape_digits rfl rfl (hexNumber?_control x.toNat hcontrol) rest
  · next hquote hslash _ _ _ _ _ hcontrol =>
    have hlow : ∀ y : Char, y.toNat < 0x20 → x ≠ y := by
      rintro y hy rfl
      exact hcontrol hy
    have hn := hlow '\n' (by decide)
    have hr := hlow '\r' (by decide)
    have ht := hlow '\t' (by decide)
    simp only [isSeparator, Bool.or_eq_false_iff, decide_eq_false_iff_not] at hseparator
    have hbreak : isBreak x = false := by simp [isBreak, hn, hr, hnel, hseparator]
    exact .plain (by simp [isInk, isBlank, hbreak, hblank, ht]) hquote fun _ => hslash

theorem jsonEscape_separator {x : Char} (h : isSeparator x = true) : Json.escapeChar x = [x] := by
  have hcode : x.toNat = 0x2028 ∨ x.toNat = 0x2029 := by
    simpa only [isSeparator, Bool.or_eq_true, decide_eq_true_eq] using h
  have hx : x = Char.ofNat x.toNat := (Char.ofNat_toNat x).symm
  rcases hcode with hcode | hcode <;> (rw [hcode] at hx; rw [hx]; rfl)

/-- **Texts quoted as JSON** -/
theorem quoted_json {s : String} (h : isUnfolded s.toList = true) :
    Quoted false 0 s.toList (s.toList.flatMap Json.escapeChar) := by
  simp only [isUnfolded, Bool.and_eq_true, Bool.not_eq_true', List.all_eq_true, decide_eq_true_eq] at h
  obtain ⟨⟨hnel, hbefore⟩, hbehind⟩ := h
  have hspread : ∀ fresh cs, spread Json.escapeChar isSeparator 0 fresh cs = cs.flatMap Json.escapeChar := by
    intro fresh cs
    induction cs generalizing fresh with
    | nil => cases fresh <;> rfl
    | cons x cs ih =>
      rw [spread, List.flatMap_cons]
      split
      · next hx => rw [ih, jsonEscape_separator hx, List.singleton_append]
      · cases fresh <;> simp [ih]
  rw [← hspread false]
  exact quoted_spread rfl rfl (fun x => own_of_separator)
    (fun x hx hblank hbare => solid_jsonEscape hblank hbare (hnel x hx)) hbefore hbehind

end Gleaner.Yaml
