/-
Trees that are written as JSON and read back as JSON.

The text of a tree is that of a value of texts, lists and objects (`Json.Shallow`). So it is read back if less than 128
lists and tables enclose one another (`Tree.Shallow`).

Results:
- `Tree.jsonText_list`, `Tree.jsonText_table`: the text of a tree;
- `Json.parse_render`: a tree that is not nested too deeply.
-/
import Gleaner.Document.Tree
import Gleaner.Proofs.JsonValues

namespace Gleaner

/-! ## Trees as JSON -/

namespace Tree

open Json (quote chars fieldChars)

/-- a tree as JSON -/
def jsonText (t : Tree) : List Char := t.toJson.render.toList

/-- a field as JSON -/
def jsonField (f : String × Tree) : List Char := (quote f.1).toList ++ ':' :: jsonText f.2

theorem toJsonItems_eq (items : List Tree) : toJsonItems items = items.map toJson := by
  induction items with
  | nil => rfl
  | cons t items ih => rw [toJsonItems, ih, List.map_cons]

theorem toJsonFields_eq (fields : List (String × Tree)) :
    toJsonFields fields = fields.map fun f => (f.1, f.2.toJson) := by
  induction fields with
  | nil => rfl
  | cons f fields ih => rw [toJsonFields, ih, List.map_cons]

theorem jsonText_text (s : String) : jsonText (.text s) = '"' :: (s.toList.flatMap Json.escapeChar ++ ['"']) :=
  Json.chars_string s

theorem jsonText_emptyList (use : ListUse) : jsonText (.list use []) = ['[', ']'] := Json.chars_emptyArray

theorem jsonText_emptyTable : jsonText (.table []) = ['\x7b', '\x7d'] := Json.chars_emptyObject

theorem jsonText_list (use : ListUse) (t : Tree) (items : List Tree) :
    jsonText (.list use (t :: items)) = '[' :: (jsonText t ++ (items.flatMap (fun t => ',' :: jsonText t) ++ [']'])) := by
  have htext : jsonText (.list use (t :: items)) = chars (.array (t.toJson :: items.map toJson)) := by
    rw [jsonText, toJson, toJsonItems_eq]
    rfl
  rw [htext, Json.chars_array, List.flatMap_map]
  rfl

theorem jsonText_table (f : String × Tree) (fields : List (String × Tree)) :
    jsonText (.table (f :: fields)) =
      '\x7b' :: (jsonField f ++ (fields.flatMap (fun f => ',' :: jsonField f) ++ ['\x7d'])) := by
  have htext : jsonText (.table (f :: fields)) =
      chars (.object ((f.1, f.2.toJson) :: fields.map fun f => (f.1, f.2.toJson))) := by
    rw [jsonText, toJson, toJsonFields_eq]
    rfl
  rw [htext, Json.chars_object, List.flatMap_map]
  rfl

/-- trees of texts with a number of lists and tables around one another at most -/
inductive Shallow : Nat → Tree → Prop where
  | text {n : Nat} {s : String} : Shallow n (.text s)
  | list {n : Nat} {use : ListUse} {items : List Tree} (h : ∀ t ∈ items, Shallow n t) : Shallow (n + 1) (.list use items)
  | table {n : Nat} {fields : List (String × Tree)} (h : ∀ f ∈ fields, Shallow n f.2) : Shallow (n + 1) (.table fields)

/-- the value of a tree is nested no deeper -/
theorem Shallow.toJson {n : Nat} {t : Tree} (h : t.Shallow n) : t.toJson.Shallow n := by
  induction h with
  | @text n s => exact .string s
  | list _ ih =>
    rw [Tree.toJson, toJsonItems_eq]
    exact .array (List.forall_mem_map.2 ih)
  | table _ ih =>
    rw [Tree.toJson, toJsonFields_eq]
    exact .object (List.forall_mem_map.2 ih)

end Tree

/-- **A tree that is not nested too deeply** is read back from its text. -/
theorem Json.parse_render {t : Tree} (h : t.Shallow 127) : parse (t.toJson.render ++ "\n") = .ok t.toJson :=
  parse_shallow h.toJson (.inr rfl)

end Gleaner
