/-
The lines of records.

Texts inside JSON are quoted, and a line break in them is escaped. So the text of a value has no line break unless one
of its numbers has (`Json.newline_notMem_render`), and a record, whose numbers are digits, is one line of an output
(`Record.newline_notMem`).
-/
import Gleaner.Record
import Mathlib.Tactic

namespace Gleaner

/-! ## Values -/

mutual
/-- no number of a value has a line break in it -/
def Json.Plain : Json → Prop
  | .number lexeme => '\n' ∉ lexeme.toList
  | .array items => PlainItems items
  | .object fields => PlainFields fields
  | _ => True

def Json.PlainItems : List Json → Prop
  | [] => True
  | item :: rest => item.Plain ∧ PlainItems rest

def Json.PlainFields : List (String × Json) → Prop
  | [] => True
  | (_, value) :: rest => value.Plain ∧ PlainFields rest
end

theorem Json.hexDigit_ne : ∀ n < 16, hexDigit n ≠ '\n' := by decide

theorem Json.newline_notMem_quote (s : String) : '\n' ∉ (quote s).toList := by
  have hescape : ∀ c, '\n' ∉ escapeChar c := by
    intro c
    unfold escapeChar
    split
    case h_8 hnewline _ _ _ _ =>
      split
      · have hhigh := hexDigit_ne (c.toNat / 16) (by omega)
        have hlow := hexDigit_ne (c.toNat % 16) (by omega)
        simp [hhigh.symm, hlow.symm]
      · simpa using fun h => hnewline h.symm
    all_goals decide
  intro hmem
  simp only [quote, String.toList_ofList, List.mem_append, List.mem_cons, List.mem_flatMap] at hmem
  rcases hmem with (h | ⟨c, -, h⟩) | h
  · cases h
  · exact hescape c h
  · rcases h with h | h
    · cases h
    · cases h

mutual
/-- **The text of a value has no line break** if its numbers have none. -/
theorem Json.newline_notMem_render {j : Json} (h : j.Plain) : '\n' ∉ j.render.toList := by
  cases j with
  | null => decide
  | bool b => cases b <;> decide
  | number lexeme => exact h
  | string s => exact newline_notMem_quote s
  | array items =>
    have hitems := newline_notMem_items items h
    simp [render, hitems]
  | object fields =>
    have hfields := newline_notMem_fields fields h
    simp [render, hfields, open_, close_]

theorem Json.newline_notMem_items (items : List Json) (h : PlainItems items) : '\n' ∉ (renderItems items).toList := by
  match items, h with
  | [], _ => decide
  | [item], h => exact newline_notMem_render h.1
  | item :: next :: rest, h =>
    have hitem := newline_notMem_render h.1
    have hrest := newline_notMem_items (next :: rest) h.2
    simp [renderItems, hitem, hrest]

theorem Json.newline_notMem_fields (fields : List (String × Json)) (h : PlainFields fields) :
    '\n' ∉ (renderFields fields).toList := by
  match fields, h with
  | [], _ => decide
  | [(key, value)], h =>
    have hkey := newline_notMem_quote key
    have hvalue := newline_notMem_render h.1
    simp [renderFields, hkey, hvalue]
  | (key, value) :: next :: rest, h =>
    have hkey := newline_notMem_quote key
    have hvalue := newline_notMem_render h.1
    have hrest := newline_notMem_fields (next :: rest) h.2
    simp [renderFields, hkey, hvalue, hrest]
end

/-! ## Records -/

theorem Json.ofNat_plain (n : Nat) : (Json.ofNat n).Plain := by
  intro hmem
  have hdigits : '\n' ∈ Nat.toDigits 10 n := by
    rwa [Nat.toString_eq_repr, Nat.toList_repr] at hmem
  have hdigit := Nat.isDigit_of_mem_toDigits (by decide) (by decide) hdigits
  cases hdigit

theorem Json.ofInt_plain (n : Int) : (Json.ofInt n).Plain := by
  intro hmem
  rw [Int.toString_eq_repr, Int.repr_eq_if] at hmem
  split at hmem
  · exact ofNat_plain n.toNat hmem
  · rw [String.toList_append, List.mem_append] at hmem
    rcases hmem with h | h
    · revert h
      decide
    · exact ofNat_plain (-n).toNat h

theorem Selection.json_plain (s : Selection) : s.json.Plain := by
  have hindex := Json.ofInt_plain s.index
  unfold json ruleFields
  cases s.outcome <;> by_cases hname : s.name.isEmpty <;> simp [Json.Plain, Json.PlainFields, hname, hindex]

theorem Normalized.json_plain (n : Normalized) : n.json.Plain := by
  have hindex := Json.ofInt_plain n.number
  unfold json Selection.ruleFields
  by_cases hname : n.name.isEmpty <;> by_cases hresult : n.result.isEmpty <;>
    simp [Json.Plain, Json.PlainFields, hname, hresult, hindex]

theorem Selected.json_plain (s : Selected) : s.json.Plain := by
  have horigin := s.origin.json_plain
  have hnormalized := s.normalized.json_plain
  simp [Selected.json, Json.Plain, Json.PlainFields, horigin, hnormalized]

/-- **A record is one line.** -/
theorem Record.newline_notMem (r : Record) : '\n' ∉ r.json.render.toList := by
  refine Json.newline_notMem_render ?_
  have hroot := Json.ofNat_plain r.root.number
  have hline := Json.ofNat_plain r.line.number
  have hcategory := r.category.json_plain
  unfold json rootJson lineJson
  cases r.node with
  | none => simp [Json.Plain, Json.PlainFields, hroot, hline, hcategory]
  | some node =>
    have hnode := node.json_plain
    simp [Json.Plain, Json.PlainFields, hroot, hline, hcategory, hnode]

end Gleaner
