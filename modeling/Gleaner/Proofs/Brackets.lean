/-
Trees that are read from between brackets.

A tree that is written as JSON stands on one line, its texts in double quotes. The tokens of the text are those of the
tree if all texts are the same in both notations (`isUnfolded`), or the text is refused: a line of a text that begins
after a separator may look like the end of a document, and JSON has characters that may not occur here at all. Nothing
but an error comes out then (`Passes`).

Results:
- `parse_render`: the tree of a text in JSON is the tree that was written, or there is none.
-/
import Gleaner.Proofs.JsonTexts
import Gleaner.Proofs.Layouts
import Gleaner.Proofs.Nodes
import Gleaner.Proofs.QuotedTexts

namespace Gleaner.Yaml.Layout

/-! ## Steps that may fail -/

/-- the text is refused, or a layout is reached that satisfies `Q` -/
def Passes (l : Layout) (Q : Layout → Prop) : Prop := Fails l ∨ ∃ l', Leads l l' ∧ Q l'

section

variable {l l' : Layout} {Q Q' : Layout → Prop}

theorem Passes.pure (h : Q l) : Passes l Q := .inr ⟨l, .refl l, h⟩

theorem Passes.of_leads (h : Leads l l') (hQ : Q l') : Passes l Q := .inr ⟨l', h, hQ⟩

theorem Passes.bind (h : Passes l Q) (hQ : ∀ l', Q l' → Passes l' Q') : Passes l Q' := by
  rcases h with hfails | ⟨l', hleads, h⟩
  · exact .inl hfails
  · rcases hQ l' h with hfails | ⟨l'', hleads', h'⟩
    · exact .inl (hleads.fails hfails)
    · exact .inr ⟨l'', hleads.trans hleads', h'⟩

theorem Leads.passes (h : Leads l l') (hQ : Passes l' Q) : Passes l Q := by
  rcases hQ with hfails | ⟨l'', hleads, hQ⟩
  · exact .inl (h.fails hfails)
  · exact .inr ⟨l'', h.trans hleads, hQ⟩

end

/-! ## Layouts between brackets -/

/-- a layout between `depth` brackets, outside all blocks, where no key is waited for -/
structure Flows (l : Layout) (cs : List Char) (ts : List Token) (depth : Nat) : Prop where
  rest : l.cursor.rest = cs
  tokens : l.tokens = ts.toArray
  free : l.Free
  depth : l.outerKeys.length = depth
  level : l.level = 0

section

variable {l : Layout} {cs : List Char} {ts : List Token} {depth : Nat}

theorem freshKey_idem (c : Cursor) (key : Option KeyPlace) : (freshKey c key).any (isStale c) = false := by
  unfold freshKey
  split
  · rfl
  · next h => exact Bool.not_eq_true _ ▸ h

theorem mem_freshKey {c : Cursor} {key : Option KeyPlace} {place : KeyPlace} (h : place ∈ freshKey c key) :
    place ∈ key := by
  unfold freshKey at h
  split at h
  · cases h
  · exact h

/-- gives up what cannot become a key any more -/
def fresh (l : Layout) : Layout :=
  { l with key := freshKey l.cursor l.key, outerKeys := l.outerKeys.map (freshKey l.cursor) }

theorem Flows.fresh (h : Flows l cs ts depth) : Flows l.fresh cs ts depth := by
  refine ⟨h.rest, h.tokens, fun key hkey place hplace => ?_, by simp [Layout.fresh, h.depth], h.level⟩
  rcases List.mem_cons.1 hkey with rfl | hkey
  · exact h.free _ List.mem_cons_self place (mem_freshKey hplace)
  · obtain ⟨key', hkey', rfl⟩ := List.mem_map.1 hkey
    exact h.free _ (List.mem_cons_of_mem _ hkey') place (mem_freshKey hplace)

/-- a step at the beginning of a token -/
theorem Flows.step (h : Flows l cs ts depth) (hcs : AtToken cs) : l.fresh.Settled ∧ l.step = l.fresh.step := by
  have hlow : ∀ target, l.fresh.closeTo target = l.fresh := fun target =>
    closeTo_low (by rw [h.fresh.level]; exact Nat.zero_le _)
  have hsettled : l.fresh.Settled := by
    refine .of_token (by rwa [h.fresh.rest]) (fun key hkey => ?_) (hlow _)
    rcases List.mem_cons.1 hkey with rfl | hkey
    · exact freshKey_idem _ _
    · obtain ⟨key', -, rfl⟩ := List.mem_map.1 hkey
      exact freshKey_idem _ _
  have hat : AtToken l.cursor.rest := by rwa [h.rest]
  have hsettle : l.settle = .ok l.fresh := settle_blanks (k := 0) h.free hat rfl
  exact ⟨hsettled, step_of_settle hsettle (hlow _) hsettled⟩

/-- the next token may be a key or not -/
theorem Flows.noteKey (h : Flows l cs ts depth) :
    ∃ l', l.noteKey = .ok l' ∧ Flows l' cs ts depth ∧ l'.cursor = l.cursor ∧ l'.outerKeys = l.outerKeys ∧
      (l.keyAllowed = true → ∃ place ∈ l'.key, place.token = ts.length ∧ place.index = l.cursor.index ∧
        place.line = l.cursor.line) := by
  cases hallowed : l.keyAllowed with
  | false => exact ⟨l, by rw [Layout.noteKey, hallowed]; rfl, h, rfl, rfl, nofun⟩
  | true =>
    let place : KeyPlace := { token := l.tokens.size, index := l.cursor.index, line := l.cursor.line,
                              column := l.cursor.column, required := !l.inFlow && l.level = l.cursor.column + 1 }
    have hnote : l.noteKey = .ok { l with key := some place } := by
      rw [Layout.noteKey, if_neg (by rw [hallowed]; exact Bool.false_ne_true),
        dropKey_free fun place => h.free _ List.mem_cons_self place]
      rfl
    have hfree : place.required = false := by
      simp [place, h.level]
    refine ⟨_, hnote, ⟨h.rest, h.tokens, fun key hkey p hp => ?_, h.depth, h.level⟩, rfl, rfl, fun _ =>
      ⟨place, rfl, ?_, rfl, rfl⟩⟩
    · rcases List.mem_cons.1 hkey with rfl | hkey
      · cases hp
        exact hfree
      · exact h.free _ (List.mem_cons_of_mem _ hkey) p hp
    · simp [place, h.tokens]

/-- an opening bracket -/
theorem Flows.open_ (table : Bool) (h : Flows l (openMark table :: cs) ts depth) :
    ∃ l', Leads l l' ∧ Flows l' cs (ts ++ [startToken table]) (depth + 1) ∧ l'.keyAllowed = true := by
  have hat : AtToken (openMark table :: cs) := by
    intro x hx
    cases hx
    cases table <;> exact ⟨rfl, by decide, by decide⟩
  obtain ⟨hsettled, hstep⟩ := h.step hat
  obtain ⟨l₁, hnote, hl₁, hcursor, houter, -⟩ := h.fresh.noteKey
  let l' := { l₁ with key := none, outerKeys := l₁.key :: l₁.outerKeys, keyAllowed := true }.take 1 (startToken table)
  have hopen : l.fresh.openFlow (startToken table) = .ok l' := by
    rw [openFlow, hnote]
    rfl
  have hrest : l'.cursor.rest = cs := Cursor.skip_one hl₁.rest
  refine ⟨l', .of_step (by rw [hstep, step_open hsettled h.fresh.rest, hopen]; rfl) ?_, ⟨hrest, ?_, ?_, ?_, hl₁.level⟩, rfl⟩
  · rw [hrest, h.rest]
    exact Nat.lt_succ_self _
  · simp [l', take, push, hl₁.tokens]
  · intro key hkey place hplace
    rcases List.mem_cons.1 hkey with rfl | hkey
    · cases hplace
    · exact hl₁.free key hkey place hplace
  · simp [l', take, push, hl₁.depth]

/-- a closing bracket -/
theorem Flows.close (table : Bool) (h : Flows l (closeMark table :: cs) ts (depth + 1)) :
    ∃ l', Leads l l' ∧ Flows l' cs (ts ++ [endToken table]) depth := by
  have hat : AtToken (closeMark table :: cs) := by
    intro x hx
    cases hx
    cases table <;> exact ⟨rfl, by decide, by decide⟩
  obtain ⟨hsettled, hstep⟩ := h.step hat
  obtain ⟨key, keys, hkeys⟩ := List.exists_cons_of_length_eq_add_one h.fresh.depth
  have hdepth := h.fresh.depth
  rw [hkeys, List.length_cons, Nat.add_right_cancel_iff] at hdepth
  let l' := { l.fresh with key := key, outerKeys := keys, keyAllowed := false }.take 1 (endToken table)
  have hclose : l.fresh.closeFlow (endToken table) = .ok l' := by
    rw [closeFlow, dropKey_free fun place => h.fresh.free _ List.mem_cons_self place]
    simp only [bind, Except.bind, hkeys]
    rfl
  have hrest : l'.cursor.rest = cs := Cursor.skip_one h.fresh.rest
  refine ⟨l', .of_step (by rw [hstep, step_close hsettled h.fresh.rest, hclose]; rfl) ?_, ⟨hrest, ?_, ?_, hdepth, ?_⟩⟩
  · rw [hrest, h.rest]
    exact Nat.lt_succ_self _
  · simp [l', take, push, h.fresh.tokens]
  · intro key' hkey' place hplace
    refine h.fresh.free key' (List.mem_cons_of_mem _ ?_) place hplace
    rwa [hkeys]
  · exact h.fresh.level

/-- a comma -/
theorem Flows.comma (h : Flows l (',' :: cs) ts depth) :
    ∃ l', Leads l l' ∧ Flows l' cs (ts ++ [.flowEntry]) depth ∧ l'.keyAllowed = true := by
  have hat : AtToken (',' :: cs) := fun x hx => by cases hx; exact ⟨rfl, by decide, by decide⟩
  obtain ⟨hsettled, hstep⟩ := h.step hat
  let l' := { l.fresh with key := none, keyAllowed := true }.take 1 .flowEntry
  have hrest : l'.cursor.rest = cs := Cursor.skip_one h.fresh.rest
  have hcomma : l.step = .ok (some l') := by
    rw [hstep, step_comma hsettled h.fresh.rest, dropKey_free fun place => h.fresh.free _ List.mem_cons_self place]
    rfl
  refine ⟨l', .of_step hcomma ?_, ⟨hrest, ?_, ?_, h.fresh.depth, h.fresh.level⟩, rfl⟩
  · rw [hrest, h.rest]
    exact Nat.lt_succ_self _
  · simp [l', take, push, h.fresh.tokens]
  · intro key hkey place hplace
    rcases List.mem_cons.1 hkey with rfl | hkey
    · cases hplace
    · exact h.fresh.free key (List.mem_cons_of_mem _ hkey) place hplace

theorem atToken_quote : AtToken (quoteMark false :: cs) := fun x hx => by
  cases hx
  exact ⟨rfl, by decide, by decide⟩

/-- a text in double quotes -/
theorem Flows.text {q w : List Char} (hq : Quoted false 0 q w)
    (h : Flows l (quoteMark false :: (w ++ quoteMark false :: cs)) ts depth) :
    Passes l fun l' => Flows l' cs (ts ++ [.text (String.ofList q) false]) depth := by
  obtain ⟨hsettled, hstep⟩ := h.step atToken_quote
  obtain ⟨l₁, hnote, hl₁, hcursor, houter, -⟩ := h.fresh.noteKey
  have hread := hstep.trans (step_quote_eq_map hsettled h.fresh.rest hnote)
  rcases readQuoted_quoted hq hl₁.rest (by simp) with ⟨-, e, herror⟩ | ⟨c', hok, hrest, -, -⟩
  · rw [herror] at hread
    exact .inl (.of_step hread)
  · rw [hok] at hread
    refine .of_leads (.of_step hread ?_) ⟨hrest, ?_, hl₁.free, hl₁.depth, hl₁.level⟩
    · change c'.rest.length < l.cursor.rest.length
      rw [hrest, h.rest, List.length_cons, List.length_append, List.length_cons]
      omega
    · simp [push, hl₁.tokens]

/-- a word in double quotes, which may be a key -/
theorem Flows.word {s : String} (hs : isWord s = true)
    (h : Flows l (quoteMark false :: (s.toList ++ quoteMark false :: ':' :: cs)) ts depth)
    (hallowed : l.keyAllowed = true) :
    ∃ l', Leads l l' ∧ Flows l' (':' :: cs) (ts ++ [.text s false]) depth ∧
      ∃ place ∈ l'.fresh.key, place.token = ts.length := by
  obtain ⟨x, xs, hcs, halpha, hshort⟩ := exists_letters hs
  obtain ⟨hsettled, hstep⟩ := h.step atToken_quote
  obtain ⟨l₁, hnote, hl₁, hcursor, houter, hplace⟩ := h.fresh.noteKey
  obtain ⟨place, hkey, htoken, hindex, hline⟩ := hplace hallowed
  have hsolid : ∀ y ∈ s.toList, Solid false y [y] := by
    intro y hy
    have hy := halpha y (hcs ▸ hy)
    refine .plain (isInk_of_alpha hy) ?_ fun _ => ?_
    · rintro rfl
      cases hy
    · rintro rfl
      cases hy
  have hread := readQuoted_word hsolid hl₁.rest nofun
  rw [String.ofList_toList] at hread
  let behind : Layout := { l₁.push (.text s false) with cursor := l₁.cursor.skip (s.toList.length + 2), keyAllowed := false }
  have hword : l.step = .ok (some behind) := by
    rw [hstep, step_quote_eq_map hsettled h.fresh.rest hnote, hread]
    rfl
  have hrest : behind.cursor.rest = ':' :: cs := by
    have hwhole : l₁.cursor.rest = (quoteMark false :: (s.toList ++ [quoteMark false])) ++ ':' :: cs := by
      rw [hl₁.rest]
      simp
    have hlength : s.toList.length + 2 = (quoteMark false :: (s.toList ++ [quoteMark false])).length := by simp
    change (l₁.cursor.skip (s.toList.length + 2)).rest = ':' :: cs
    rw [hlength]
    exact Cursor.skip_rest hwhole
  -- the word is short and on one line, so its place is remembered
  have hstale : isStale behind.cursor place = false := by
    have hletters : s.toList.length ≤ 1000 := hcs ▸ hshort
    have hline' : place.line = l₁.cursor.line := by rw [hline, hcursor]
    have hindex' : place.index = l₁.cursor.index := by rw [hindex, hcursor]
    simp only [isStale, behind, Cursor.skip, hline', hindex', Nat.lt_irrefl, decide_false, Bool.false_or,
      decide_eq_false_iff_not]
    omega
  refine ⟨behind, .of_step hword ?_, ⟨hrest, by simp [behind, push, hl₁.tokens], hl₁.free, hl₁.depth, hl₁.level⟩, place,
    ?_, htoken⟩
  · rw [hrest, h.rest, List.length_cons, List.length_cons, List.length_append, List.length_cons, List.length_cons]
    omega
  · change freshKey behind.cursor l₁.key = some place
    rw [show l₁.key = some place from hkey, freshKey, Option.any_some, hstale, if_neg Bool.false_ne_true]

/-- a colon behind a possible key -/
theorem Flows.colon {us : List Token} (h : Flows l (':' :: cs) (ts ++ us) (depth + 1)) {place : KeyPlace}
    (hkey : l.fresh.key = some place) (htoken : place.token = ts.length) :
    ∃ l', Leads l l' ∧ Flows l' cs (ts ++ (.key :: us ++ [.value])) (depth + 1) := by
  obtain ⟨hsettled, hstep⟩ := h.step fun x hx => by cases hx; exact ⟨rfl, by decide, by decide⟩
  have hflow : l.fresh.inFlow = true := by
    have hdepth := h.fresh.depth
    cases houter : l.fresh.outerKeys with
    | nil => rw [houter] at hdepth; cases hdepth
    | cons k ks => rw [inFlow, houter]; rfl
  let l' := { l.fresh with tokens := (ts ++ Token.key :: us).toArray, key := none, keyAllowed := false }.take 1 .value
  have hvalue : l.fresh.value = .ok l' := by
    have hinsert : l.fresh.tokens.insertIdxIfInBounds place.token .key = (ts ++ Token.key :: us).toArray := by
      rw [h.fresh.tokens, htoken, List.insertIdxIfInBounds_toArray, insertIdx_behind]
    rw [value, hkey]
    simp only [hinsert]
    exact congrArg (fun l => Except.ok (take l 1 .value)) (openBlock_flow hflow)
  have hcolon : l.step = .ok (some l') := by
    rw [hstep, step_colon hsettled h.fresh.rest (by rw [hflow]; rfl), hvalue]
    rfl
  have hrest : l'.cursor.rest = cs := Cursor.skip_one h.fresh.rest
  refine ⟨l', .of_step hcolon ?_, ⟨hrest, ?_, ?_, h.fresh.depth, h.fresh.level⟩⟩
  · rw [hrest, h.rest]
    exact Nat.lt_succ_self _
  · simp [l', take, push]
  · intro key hkey p hp
    rcases List.mem_cons.1 hkey with rfl | hkey
    · cases hp
    · exact h.fresh.free key (List.mem_cons_of_mem _ hkey) p hp

/-- **The key of a field**, with the colon behind it -/
theorem Flows.key {s : String} (hs : isWord s = true)
    (h : Flows l (quoteMark false :: (s.toList ++ quoteMark false :: ':' :: cs)) ts (depth + 1))
    (hallowed : l.keyAllowed = true) :
    ∃ l', Leads l l' ∧ Flows l' cs (ts ++ [.key, .text s false, .value]) (depth + 1) := by
  obtain ⟨behind, hword, hbehind, place, hkey, htoken⟩ := h.word hs hallowed
  obtain ⟨l', hcolon, hl'⟩ := hbehind.colon hkey htoken
  exact ⟨l', hword.trans hcolon, hl'⟩

end

/-! ## Trees -/

open Gleaner.Tree (jsonText jsonField)

/-- a word needs no escapes -/
theorem quote_word {s : String} (hs : isWord s = true) :
    (Json.quote s).toList = quoteMark false :: (s.toList ++ [quoteMark false]) := by
  have hplain : s.toList.flatMap Json.escapeChar = s.toList := by
    obtain ⟨x, xs, hcs, halpha, -⟩ := exists_letters hs
    rw [hcs]
    refine (List.flatMap_congr fun y hy => ?_).trans (List.flatMap_singleton' _)
    have hy := halpha y hy
    unfold Json.escapeChar
    split
    all_goals try cases hy
    exact if_neg (Nat.not_lt.2 (Nat.le_trans (by decide) (range_of_alpha hy).1))
  simp [Json.quote, quoteMark, hplain]

/-- the tokens of a tree are those of its text, wherever it stands -/
def Flat (t : Tree) : Prop :=
  ∀ (l : Layout) (cs : List Char) (ts : List Token) (depth : Nat), Flows l (jsonText t ++ cs) ts depth →
    Passes l fun l' => Flows l' cs (ts ++ flowTokens t) depth

section

variable {l : Layout} {cs : List Char} {ts : List Token} {depth : Nat}

theorem flat_text {s : String} (h : isUnfolded s.toList = true) : Flat (.text s) := by
  intro l cs ts depth hl
  rw [Tree.jsonText_text] at hl
  simp only [List.cons_append, List.append_assoc, List.nil_append] at hl
  have htext := hl.text (quoted_json h)
  rwa [String.ofList_toList] at htext

/-- further items of a list -/
theorem Flows.items {items : List Tree} (h : ∀ t ∈ items, Flat t)
    (hl : Flows l (items.flatMap (fun t => ',' :: jsonText t) ++ cs) ts depth) :
    Passes l fun l' => Flows l' cs (ts ++ items.flatMap fun t => .flowEntry :: flowTokens t) depth := by
  induction items generalizing l ts with
  | nil =>
    refine .pure ?_
    simpa using hl
  | cons t items ih =>
    simp only [List.flatMap_cons, List.cons_append, List.append_assoc] at hl
    obtain ⟨l₁, hleads, hl₁, -⟩ := hl.comma
    have htokens : ts ++ (t :: items).flatMap (fun t => Token.flowEntry :: flowTokens t) =
        ts ++ [.flowEntry] ++ flowTokens t ++ items.flatMap fun t => .flowEntry :: flowTokens t := by simp
    rw [htokens]
    exact hleads.passes ((h t List.mem_cons_self l₁ _ _ _ hl₁).bind fun l₂ hl₂ =>
      ih (fun t ht => h t (List.mem_cons_of_mem _ ht)) hl₂)

theorem flat_list {items : List Tree} (h : ∀ t ∈ items, Flat t) : Flat (.list .items items) := by
  intro l cs ts depth hl
  cases items with
  | nil =>
    rw [Tree.jsonText_emptyList] at hl
    obtain ⟨l₁, hleads, hl₁, -⟩ := hl.open_ false
    obtain ⟨l₂, hleads', hl₂⟩ := hl₁.close false
    refine .of_leads (hleads.trans hleads') ?_
    simpa [flowTokens, flowItemTokens, startToken, endToken] using hl₂
  | cons t items =>
    have htokens : ts ++ flowTokens (.list .items (t :: items)) =
        ts ++ [startToken false] ++ flowTokens t ++ (items.flatMap fun t => .flowEntry :: flowTokens t) ++
          [endToken false] := by
      rw [flowTokens, Reader.flowItemTokens_cons]
      simp [startToken, endToken]
    rw [Tree.jsonText_list] at hl
    simp only [List.cons_append, List.append_assoc] at hl
    obtain ⟨l₁, hleads, hl₁, -⟩ := hl.open_ false
    rw [htokens]
    refine hleads.passes ((h t List.mem_cons_self l₁ _ _ _ hl₁).bind fun l₂ hl₂ => ?_)
    refine (hl₂.items fun t ht => h t (List.mem_cons_of_mem _ ht)).bind fun l₃ hl₃ => ?_
    obtain ⟨l₄, hleads', hl₄⟩ := hl₃.close false
    exact .of_leads hleads' hl₄

/-- one field -/
theorem Flows.field {f : String × Tree} (hword : isWord f.1 = true) (h : Flat f.2)
    (hl : Flows l (jsonField f ++ cs) ts (depth + 1)) (hallowed : l.keyAllowed = true) :
    Passes l fun l' => Flows l' cs (ts ++ Reader.flowField f) (depth + 1) := by
  rw [jsonField, quote_word hword] at hl
  simp only [List.cons_append, List.append_assoc, List.nil_append] at hl
  obtain ⟨l₁, hleads, hl₁⟩ := hl.key hword hallowed
  have htokens : ts ++ Reader.flowField f = ts ++ [.key, .text f.1 false, .value] ++ flowTokens f.2 := by
    simp [Reader.flowField]
  rw [htokens]
  exact hleads.passes (h l₁ _ _ _ hl₁)

/-- further fields of a table -/
theorem Flows.fields {fields : List (String × Tree)} (hkeys : ∀ f ∈ fields, isWord f.1 = true)
    (h : ∀ f ∈ fields, Flat f.2)
    (hl : Flows l (fields.flatMap (fun f => ',' :: jsonField f) ++ cs) ts (depth + 1)) :
    Passes l fun l' => Flows l' cs (ts ++ fields.flatMap fun f => .flowEntry :: Reader.flowField f) (depth + 1) := by
  induction fields generalizing l ts with
  | nil =>
    refine .pure ?_
    simpa using hl
  | cons f fields ih =>
    simp only [List.flatMap_cons, List.cons_append, List.append_assoc] at hl
    obtain ⟨l₁, hleads, hl₁, hallowed⟩ := hl.comma
    have htokens : ts ++ (f :: fields).flatMap (fun f => Token.flowEntry :: Reader.flowField f) =
        ts ++ [.flowEntry] ++ Reader.flowField f ++ fields.flatMap fun f => .flowEntry :: Reader.flowField f := by simp
    rw [htokens]
    exact hleads.passes ((hl₁.field (hkeys f List.mem_cons_self) (h f List.mem_cons_self) hallowed).bind fun l₂ hl₂ =>
      ih (fun f hf => hkeys f (List.mem_cons_of_mem _ hf)) (fun f hf => h f (List.mem_cons_of_mem _ hf)) hl₂)

theorem flat_table {fields : List (String × Tree)} (hkeys : ∀ f ∈ fields, isWord f.1 = true)
    (h : ∀ f ∈ fields, Flat f.2) : Flat (.table fields) := by
  intro l cs ts depth hl
  cases fields with
  | nil =>
    rw [Tree.jsonText_emptyTable] at hl
    obtain ⟨l₁, hleads, hl₁, -⟩ := hl.open_ true
    obtain ⟨l₂, hleads', hl₂⟩ := hl₁.close true
    refine .of_leads (hleads.trans hleads') ?_
    simpa [flowTokens, flowFieldTokens, startToken, endToken] using hl₂
  | cons f fields =>
    have htokens : ts ++ flowTokens (.table (f :: fields)) =
        ts ++ [startToken true] ++ Reader.flowField f ++
          (fields.flatMap fun f => .flowEntry :: Reader.flowField f) ++ [endToken true] := by
      rw [flowTokens, Reader.flowFieldTokens_cons]
      simp [startToken, endToken]
    rw [Tree.jsonText_table] at hl
    simp only [List.cons_append, List.append_assoc] at hl
    obtain ⟨l₁, hleads, hl₁, hallowed⟩ := hl.open_ true
    rw [htokens]
    refine hleads.passes ((hl₁.field (hkeys f List.mem_cons_self) (h f List.mem_cons_self) hallowed).bind fun l₂ hl₂ => ?_)
    refine (hl₂.fields (fun f hf => hkeys f (List.mem_cons_of_mem _ hf))
      (fun f hf => h f (List.mem_cons_of_mem _ hf))).bind fun l₃ hl₃ => ?_
    obtain ⟨l₄, hleads', hl₄⟩ := hl₃.close true
    exact .of_leads hleads' hl₄

/-- **The text of a tree** has its tokens or is refused. -/
theorem flat_of_written {t : Tree} (h : t.Written fun s => isUnfolded s.toList = true) : Flat t := by
  induction h with
  | text h => exact flat_text h
  | list _ ih => exact flat_list ih
  | table hkeys _ ih => exact flat_table hkeys ih

end

end Gleaner.Yaml.Layout

namespace Gleaner.Yaml

/-! ## Documents -/

open Layout in
open Gleaner.Tree (jsonText) in
/-- the tokens of a tree that is written as JSON are the tree's, or the text is refused -/
theorem tokens_render {t : Tree} (h : t.Written fun s => isUnfolded s.toList = true) {ts : List Token}
    (htokens : tokens (t.toJson.render ++ "\n") = .ok ts) : ts = flowTokens t := by
  have htext : (t.toJson.render ++ "\n").toList = jsonText t ++ ['\n'] := by simp [jsonText]
  let start : Layout := { cursor := { rest := jsonText t ++ ['\n'] } }
  have hstart : Flows start (jsonText t ++ ['\n']) [] 0 := by
    refine ⟨rfl, rfl, fun key hkey place hplace => ?_, rfl, rfl⟩
    rw [List.mem_singleton.1 hkey] at hplace
    cases hplace
  have hrun : ∃ l, run ((jsonText t ++ ['\n']).length + 1) start = .ok l ∧ l.tokens.toList = ts := by
    rw [tokens, htext] at htokens
    simp only [bind, Except.bind, pure, Except.pure] at htokens
    split at htokens
    · cases htokens
    · split at htokens
      · cases htokens
      · next l hl =>
        cases htokens
        exact ⟨l, hl, rfl⟩
  obtain ⟨l, hl, rfl⟩ := hrun
  rcases flat_of_written h start ['\n'] [] 0 hstart with hfails | ⟨l', hleads, hl'⟩
  · obtain ⟨e, herror⟩ := hfails _ (Nat.lt_succ_self _)
    rw [herror] at hl
    cases hl
  · have hsettle := @settle_line l' 0 [] hl'.free (by simp [AtToken]) hl'.rest
    have hend := run_of_leads hleads hsettle rfl (Nat.lt_succ_self _)
    rw [hl, closeTo_low, dropKey_free] at hend
    · cases hend
      rw [List.nil_append] at hl'
      simp [hl'.tokens]
    · exact fun place hplace => hl'.free _ List.mem_cons_self place (mem_freshKey hplace)
    · exact Nat.le_of_eq hl'.level

/-- **A tree that is written as JSON** is read back if anything is read. -/
theorem parse_render {t t' : Tree} (h : t.Written fun s => isUnfolded s.toList = true)
    (hparse : parse (t.toJson.render ++ "\n") = .ok t') : t' = t := by
  cases htokens : tokens (t.toJson.render ++ "\n") with
  | error e =>
    rw [parse, htokens] at hparse
    cases hparse
  | ok ts =>
    obtain rfl := tokens_render h htokens
    have hread := parse_of_reads htokens (Reader.node_flowTokens h true false) (Reader.flowTokens_head h)
    rw [hread] at hparse
    cases hparse
    rfl

end Gleaner.Yaml
