/-
Tables that are printed and read back.

All characters of a printed tree are such as a document may hold, whatever its texts: the others are escaped
(`allowed_scalar`). The lines of a table of at least one field begin at the first column, so that its tokens are those
of a document.

Results:
- `parse_print`: the tree of a printed table is the table.
-/
import Gleaner.Proofs.Blocks

namespace Gleaner.Yaml

/-! ## Characters -/

/-- all characters are such as a document may hold -/
def Allowed (cs : List Char) : Prop := ∀ x ∈ cs, isAllowed x = true

section

variable {cs ds : List Char}

theorem Allowed.of_all (h : cs.all isAllowed = true) : Allowed cs := List.all_eq_true.1 h

theorem Allowed.nil : Allowed [] := nofun

theorem allowed_cons {x : Char} : Allowed (x :: cs) ↔ isAllowed x = true ∧ Allowed cs := List.forall_mem_cons

theorem allowed_append : Allowed (cs ++ ds) ↔ Allowed cs ∧ Allowed ds := List.forall_mem_append

theorem allowed_replicate (n : Nat) : Allowed (List.replicate n ' ') := fun x hx => by
  rw [List.eq_of_mem_replicate hx]
  rfl

theorem isAllowed_of_printable {x : Char} (h : isPrintable x = true) : isAllowed x = true := by
  simp only [isPrintable, isAllowed, Bool.or_eq_true, Bool.and_eq_true, decide_eq_true_eq] at h ⊢
  have hvalid : x.toNat < 0xD800 ∨ 0xDFFF < x.toNat ∧ x.toNat < 0x110000 := x.valid
  omega

theorem isAllowed_of_alpha {x : Char} (h : x.isAlpha = true) : isAllowed x = true := by
  have hrange := range_of_alpha h
  simp only [isAllowed, Bool.or_eq_true, Bool.and_eq_true, decide_eq_true_eq]
  omega

/-! ## Escapes -/

theorem isAllowed_digit : ∀ d < 16, isAllowed (Nat.digitChar d).toUpper = true := by decide

theorem allowed_hexDigits (width n : Nat) : Allowed (hexDigits width n) := by
  have hdigits : Allowed ((Nat.toDigits 16 n).map Char.toUpper) := by
    induction n using Nat.strong_induction_on with
    | _ n ih =>
    rw [Nat.toDigits_eq_if (by decide)]
    split
    · next h =>
      rw [List.map_singleton, allowed_cons]
      exact ⟨isAllowed_digit n h, .nil⟩
    · rw [List.map_append, allowed_append, List.map_singleton, allowed_cons]
      exact ⟨ih (n / 16) (by omega), isAllowed_digit (n % 16) (Nat.mod_lt _ (by decide)), .nil⟩
  rw [hexDigits, allowed_append]
  refine ⟨fun x hx => ?_, hdigits⟩
  rw [List.eq_of_mem_replicate hx]
  rfl

theorem allowed_escapeChar (x : Char) : Allowed (escapeChar x) := by
  unfold escapeChar
  simp only
  split
  all_goals try exact .of_all rfl
  split
  · exact allowed_cons.2 ⟨rfl, allowed_cons.2 ⟨rfl, allowed_hexDigits _ _⟩⟩
  · split
    · exact allowed_cons.2 ⟨rfl, allowed_cons.2 ⟨rfl, allowed_hexDigits _ _⟩⟩
    · exact allowed_cons.2 ⟨rfl, allowed_cons.2 ⟨rfl, allowed_hexDigits _ _⟩⟩

/-! ## Texts -/

theorem allowed_indentLines (h : Allowed cs) (indent : Nat) (fresh : Bool) : Allowed (indentLines indent fresh cs) := by
  induction cs generalizing fresh with
  | nil => exact .nil
  | cons x cs ih =>
    obtain ⟨hx, hcs⟩ := allowed_cons.1 h
    rw [indentLines]
    split
    · exact allowed_cons.2 ⟨hx, ih hcs true⟩
    · rw [allowed_append, allowed_cons]
      refine ⟨?_, hx, ih hcs false⟩
      split
      · exact allowed_replicate _
      · exact .nil

theorem allowed_flatMap {write : Char → List Char} (h : ∀ x ∈ cs, Allowed (write x)) : Allowed (cs.flatMap write) := by
  intro y hy
  obtain ⟨x, hx, hmem⟩ := List.mem_flatMap.1 hy
  exact h x hx y hmem

theorem allowed_blockLines (h : Allowed cs) (indent : Nat) : Allowed (blockLines indent cs) := by
  have hhint : Allowed (if cs.head?.any fun c => c = ' ' || isBreak c then ['2'] else []) := by
    split <;> exact .of_all rfl
  have hchomp : Allowed (chompHint cs.reverse) := by
    unfold chompHint
    repeat' split
    all_goals exact .of_all rfl
  have hend : Allowed (if cs.getLast?.any isBreak then [] else ['\n']) := by
    split <;> exact .of_all rfl
  rw [blockLines_eq]
  simp only [allowed_append, allowed_cons]
  exact ⟨⟨⟨⟨rfl, hhint⟩, hchomp⟩, rfl, allowed_indentLines h indent true⟩, hend⟩

theorem allowed_singleQuoted (h : Allowed cs) (indent : Nat) : Allowed (singleQuoted indent cs) := by
  have hinside : Allowed (cs.flatMap doubleMark) := allowed_flatMap fun x hx => by
    unfold doubleMark
    split
    · exact .of_all rfl
    · exact allowed_cons.2 ⟨h x hx, .nil⟩
  have htail : Allowed (if cs.getLast?.any isBreak then indentation indent else []) := by
    split
    · exact allowed_replicate _
    · exact .nil
  simp only [singleQuoted, allowed_append, allowed_cons]
  exact ⟨⟨⟨rfl, allowed_indentLines hinside indent false⟩, htail⟩, rfl, .nil⟩

theorem allowed_doubleQuoted (cs : List Char) : Allowed (doubleQuoted cs) := by
  have hinside : Allowed (cs.flatMap fun c =>
      if isPrintable c && !isBreak c && c ≠ '"' && c ≠ '\\' then [c] else escapeChar c) := by
    refine allowed_flatMap fun x _ => ?_
    split
    · next hplain =>
      simp only [Bool.and_eq_true] at hplain
      exact allowed_cons.2 ⟨isAllowed_of_printable hplain.1.1.1, .nil⟩
    · exact allowed_escapeChar x
  simp only [doubleQuoted, allowed_append, allowed_cons]
  exact ⟨⟨rfl, hinside⟩, rfl, .nil⟩

/-- **A text is printed with allowed characters only.** -/
theorem allowed_scalar (indent : Nat) (s : String) : Allowed (scalar indent s).toList := by
  have hplain : style s ≠ .doubleQuoted → Allowed s.toList := fun h x hx =>
    isAllowed_of_printable (printable_of_style h x hx)
  have hend : Allowed ['\n'] := allowed_cons.2 ⟨rfl, .nil⟩
  rw [scalar, String.toList_ofList]
  cases h : style s with
  | plain => exact allowed_append.2 ⟨hplain (by simp [h]), hend⟩
  | singleQuoted => exact allowed_append.2 ⟨allowed_singleQuoted (hplain (by simp [h])) indent, hend⟩
  | doubleQuoted => exact allowed_append.2 ⟨allowed_doubleQuoted _, hend⟩
  | block => exact allowed_blockLines (hplain (by simp [h])) indent

end

/-! ## Trees -/

theorem allowed_word {s : String} (hs : isWord s = true) : Allowed s.toList := by
  simp only [isWord, Bool.and_eq_true, List.all_eq_true] at hs
  exact fun x hx => isAllowed_of_alpha (hs.1.1.2 x hx)

theorem allowed_fields {m : Nat} {fields : List (String × Tree)} (hkeys : ∀ f ∈ fields, isWord f.1 = true)
    (h : ∀ f ∈ fields, Allowed (fieldValue m f.2).toList) : Allowed (tableFields m fields).toList := by
  induction fields with
  | nil => exact .nil
  | cons f fields ih =>
    have hmore := ih (fun f hf => hkeys f (List.mem_cons_of_mem _ hf)) (fun f hf => h f (List.mem_cons_of_mem _ hf))
    rw [Layout.tableFields_cons]
    simp only [allowed_append, allowed_cons]
    refine ⟨allowed_word (hkeys f List.mem_cons_self), rfl, h f List.mem_cons_self, ?_⟩
    split
    · exact .nil
    · exact allowed_append.2 ⟨allowed_replicate m, hmore⟩

theorem allowed_items {m : Nat} {items : List Tree} (h : ∀ t ∈ items, Allowed (itemValue m t).toList) :
    Allowed (listItems m items).toList := by
  induction items with
  | nil => exact .nil
  | cons t items ih =>
    rw [Layout.listItems_cons]
    simp only [allowed_append, allowed_cons]
    exact ⟨allowed_replicate m, rfl, h t List.mem_cons_self, ih fun t ht => h t (List.mem_cons_of_mem _ ht)⟩

/-- **A tree is printed with allowed characters only.** -/
theorem allowed_value {P : String → Prop} {t : Tree} (h : t.Written P) (inList : Bool) (m : Nat) :
    Allowed (Layout.valueText inList m t) := by
  induction h generalizing inList m with
  | @text s _ =>
    have htext : Layout.valueText inList m (.text s) = ' ' :: (scalar (m + 2) s).toList := by
      cases inList <;> simp [Layout.valueText, itemValue, fieldValue]
    rw [htext, allowed_cons]
    exact ⟨rfl, allowed_scalar _ s⟩
  | @list items _ ih =>
    have hitems : ∀ m, Allowed (listItems m items).toList := fun m => allowed_items fun t ht => ih t ht true m
    cases items with
    | nil =>
      have htext : Layout.valueText inList m (.list .items []) = [' ', '[', ']', '\n'] := by
        cases inList <;> simp [Layout.valueText, itemValue, fieldValue]
      rw [htext]
      exact .of_all rfl
    | cons t items =>
      have htext : ∃ m', Layout.valueText inList m (.list .items (t :: items)) =
          '\n' :: (listItems m' (t :: items)).toList := by
        cases inList
        · exact ⟨m, by simp [Layout.valueText, fieldValue]⟩
        · exact ⟨m + 2, by simp [Layout.valueText, itemValue]⟩
      obtain ⟨m', htext⟩ := htext
      rw [htext, allowed_cons]
      exact ⟨rfl, hitems m'⟩
  | @table fields hkeys _ ih =>
    have hfields : ∀ m, Allowed (tableFields m fields).toList := fun m =>
      allowed_fields hkeys fun f hf => ih f hf false m
    cases fields with
    | nil =>
      have htext : Layout.valueText inList m (.table []) = [' ', '\x7b', '\x7d', '\n'] := by
        cases inList <;> simp [Layout.valueText, itemValue, fieldValue]
      rw [htext]
      exact .of_all rfl
    | cons f fields =>
      have htext : ∃ before, Allowed before ∧ Layout.valueText inList m (.table (f :: fields)) =
          before ++ (tableFields (m + 2) (f :: fields)).toList := by
        cases inList
        · refine ⟨'\n' :: List.replicate (m + 2) ' ', allowed_cons.2 ⟨rfl, allowed_replicate _⟩, ?_⟩
          simp [Layout.valueText, fieldValue, indent, indentation]
        · refine ⟨[' '], allowed_cons.2 ⟨rfl, .nil⟩, ?_⟩
          simp [Layout.valueText, itemValue]
      obtain ⟨before, hbefore, htext⟩ := htext
      rw [htext, allowed_append]
      exact ⟨hbefore, hfields (m + 2)⟩

/-! ## Documents -/

theorem blockTokens_table {fields : List (String × Tree)} (hne : fields ≠ []) :
    blockTokens true (.table fields) = .blockTableStart :: (fieldTokens fields ++ [.blockEnd]) := by
  rw [blockTokens, if_neg (by rwa [List.isEmpty_iff])]

open Layout in
/-- the tokens of a printed table are those of its block -/
theorem tokens_print {P : String → Prop} {fields : List (String × Tree)} (h : (Tree.table fields).Written P)
    (hne : fields ≠ []) : tokens (print (.table fields)) = .ok (blockTokens true (.table fields)) := by
  obtain ⟨hkeys, hvalues⟩ : (∀ f ∈ fields, isWord f.1 = true) ∧ ∀ f ∈ fields, f.2.Written P := by
    cases h with
    | table hkeys h => exact ⟨hkeys, h⟩
  have hprint : print (.table fields) = tableFields 0 fields := by
    obtain ⟨f, fields, rfl⟩ := List.exists_cons_of_ne_nil hne
    rw [print]
    exact nofun
  let cs := (tableFields 0 fields).toList
  have hallowed : cs.all isAllowed = true :=
    List.all_eq_true.2 (allowed_fields hkeys fun f hf => allowed_value (hvalues f hf) false 0)
  have hstart : AtToken cs := by
    obtain ⟨f, fields, rfl⟩ := List.exists_cons_of_ne_nil hne
    obtain ⟨x, xs, hcs, halpha, -⟩ := exists_letters (hkeys f List.mem_cons_self)
    simp only [cs, tableFields_cons, hcs]
    exact atToken_of_alpha (halpha x List.mem_cons_self)
  have hresumes : Resumes (block { rest := cs } [] 0 [] true none) 1 0 (cs ++ (List.replicate 0 ' ' ++ [])) [] 0 [] := by
    rw [List.replicate_zero, List.append_nil, List.append_nil]
    exact resumes_here hstart nofun (Nat.zero_le 1)
  obtain ⟨l', hleads, c, l₁, hsettle, hclose, hend, -, -⟩ := hresumes.fields hne
    (fun f hf => ⟨hkeys f hf, lays_of_written (hvalues f hf)⟩) nofun (Nat.le_refl 0) (Nat.zero_le 1)
  have hcursor : l₁.cursor = c := by
    rw [← (closeTo_frame 1).1, hclose]
    rfl
  have hrun := run_of_leads hleads hsettle (hcursor ▸ hend) (Nat.lt_succ_self cs.length)
  have hopened : opened .blockTableStart 0 0 = [.blockTableStart] := rfl
  have haround : around 0 0 [] = [0] := rfl
  rw [hopened, haround] at hclose
  rw [← closeTo_closeTo (Nat.zero_le 1), hclose, closeTo_block (Nat.succ_pos 0) (Nat.le_refl 0), dropKey_block] at hrun
  rw [hprint, tokens]
  simp only [cs] at hallowed hrun
  simp only [hallowed, Bool.not_true, Bool.false_eq_true, if_false]
  change (do
    let l ← run (cs.length + 1) (block { rest := cs } [] 0 [] true none)
    pure l.tokens.toList) = _
  rw [hrun, blockTokens_table hne]
  simp [block, bind, Except.bind, pure, Except.pure]

/-- **A printed table is read back.** -/
theorem parse_print {P : String → Prop} {fields : List (String × Tree)} (h : (Tree.table fields).Written P)
    (hne : fields ≠ []) : parse (print (.table fields)) = .ok (.table fields) := by
  refine parse_of_reads (tokens_print h hne) (Reader.node_blockTokens h true) ⟨_, _, blockTokens_table hne, rfl⟩

end Gleaner.Yaml
