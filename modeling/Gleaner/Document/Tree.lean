/-
Trees of texts, lists and tables: what a document says, whatever notation it is written in.

A leaf keeps apart what the notations keep apart: a text that can only be a text, a missing value, which may stand for
an empty text, list or table, and a null, which is no value at all. A list may be readable as a table whose fields
stand in a fixed order.

`Tree.record?` gives the values of a fixed set of fields. It refuses fields that are not in the set and fields that
occur twice.
-/
import Gleaner.Json.Basic

namespace Gleaner

/-- how a list is read where a table is expected -/
inductive ListUse where
  /-- never -/
  | items
  /-- its items are the values of the fields in their order -/
  | record
  /-- as a record, and items too many are left out -/
  | openRecord
  deriving DecidableEq, Repr

inductive Tree where
  /-- nothing at all -/
  | missing
  /-- a value that is there and empty: an empty text, list or table -/
  | empty
  /-- a null, with the text it stands for as a text -/
  | null (s : Option String)
  | text (s : String)
  /-- a text marked as a null that is none -/
  | wrongNull (s : String)
  /-- a number, a truth value or a date -/
  | other
  | list (use : ListUse) (items : List Tree)
  | table (fields : List (String × Tree))
  deriving Inhabited

namespace Tree

/-! ## Reading -/

/-- whether a leaf stands for an empty list or table -/
def isVoid : Tree → Bool
  | .missing => true
  | .empty => true
  | .wrongNull s => s.isEmpty
  | _ => false

def asText? : Tree → Option String
  | .missing => some ""
  | .empty => some ""
  | .null s => s
  | .text s => some s
  | .wrongNull s => some s
  | _ => none

/-- a value that may be left out: `none` if it is there and cannot be read -/
def asOptional? {α : Type} (read : Tree → Option α) : Tree → Option (Option α)
  | .missing => some none
  | .null _ => some none
  | .wrongNull _ => none
  | t => (read t).map some

def asList? {α : Type} (read : Tree → Option α) : Tree → Option (List α)
  | .list _ items => items.mapM read
  | t => if t.isVoid then some [] else none

/-- the values of the named fields, and no others -/
def record? (names : List String) : Tree → Option (List (Option Tree))
  | .table fields =>
    let keys := fields.map (·.1)
    if keys.all (names.contains ·) && keys.Nodup then
      some (names.map fun name => (fields.find? (·.1 == name)).map (·.2))
    else none
  | .list .record items =>
    if items.length ≤ names.length then some (names.zipIdx.map fun (_, i) => items[i]?) else none
  | .list .openRecord items => some (names.zipIdx.map fun (_, i) => items[i]?)
  | t => if t.isVoid then some (names.map fun _ => none) else none

/-- the value of a field that has a default -/
def fieldOr {α : Type} (default : α) (read : Tree → Option α) : Option Tree → Option α
  | none => some default
  | some t => read t

/-! ## Other notations -/

mutual
/-- the tree of a JSON value -/
def ofJson : Json → Tree
  | .null => .null none
  | .bool _ => .other
  | .number _ => .other
  | .string s => .text s
  | .array items => .list .record (ofJsonItems items)
  | .object fields => .table (ofJsonFields fields)

def ofJsonItems : List Json → List Tree
  | [] => []
  | item :: rest => ofJson item :: ofJsonItems rest

def ofJsonFields : List (String × Json) → List (String × Tree)
  | [] => []
  | (key, value) :: rest => (key, ofJson value) :: ofJsonFields rest
end

mutual
/-- the JSON value of a tree -/
def toJson : Tree → Json
  | .missing => .null
  | .empty => .string ""
  | .null _ => .null
  | .text s => .string s
  | .wrongNull s => .string s
  | .other => .null
  | .list _ items => .array (toJsonItems items)
  | .table fields => .object (toJsonFields fields)

def toJsonItems : List Tree → List Json
  | [] => []
  | item :: rest => toJson item :: toJsonItems rest

def toJsonFields : List (String × Tree) → List (String × Json)
  | [] => []
  | (key, value) :: rest => (key, toJson value) :: toJsonFields rest
end

end Tree

end Gleaner
