/-
Values of running Lua programs and the heap they live on.

Tables keep the values of the keys 1, 2, … in an array and the others in a list of entries with an index, in the order
they came in. An entry whose value is nil stays in its place, so that a traversal can go on behind it.
-/
import Gleaner.Lua.Syntax
import Gleaner.Lua.Lexer
import Std.Data.TreeMap

namespace Gleaner.Lua

inductive Value where
  | nil
  | bool (b : Bool)
  | int (i : Int64)
  | float (f : Float)
  | text (s : Bytes)
  | table (at_ : Nat)
  | closure (at_ : Nat)
  /-- a function of the library, by its name -/
  | native (name : String)
  /-- a function of the library with values of its own -/
  | bound (at_ : Nat)
  | file (at_ : Nat)
  | thread (at_ : Nat)
  deriving Inhabited

/-- keys of tables: a float that is an integer counts as one -/
inductive Key where
  | bool (b : Bool)
  | int (i : Int64)
  | float (bits : UInt64)
  | text (s : Bytes)
  | native (name : String)
  | object (kind at_ : Nat)
  deriving DecidableEq, Inhabited

namespace Key

/-- the place of the form of a key among the forms -/
def rank : Key → Nat
  | .bool _ => 0
  | .int _ => 1
  | .float _ => 2
  | .text _ => 3
  | .native _ => 4
  | .object _ _ => 5

/-- the order that keys are looked up by: shorter texts come first -/
def order : Key → Key → Ordering
  | .bool a, .bool b => compare a b
  | .int a, .int b => compare a.toInt b.toInt
  | .float a, .float b => compare a.toNat b.toNat
  | .text a, .text b => (compare a.size b.size).then (compare a.data.toList b.data.toList)
  | .native a, .native b => compare a.toList b.toList
  | .object kind a, .object kind' b => (compare kind kind').then (compare a b)
  | a, b => compare a.rank b.rank

end Key

namespace Value

def typeName : Value → String
  | .nil => "nil"
  | .bool _ => "boolean"
  | .int _ => "number"
  | .float _ => "number"
  | .text _ => "string"
  | .table _ => "table"
  | .closure _ => "function"
  | .native _ => "function"
  | .bound _ => "function"
  | .file _ => "userdata"
  | .thread _ => "thread"

/-- like the type, with integers told from other numbers -/
def kindName : Value → String
  | .int _ => "integer"
  | v => v.typeName

/-- everything but nil and false counts as true -/
def truthy : Value → Bool
  | .nil => false
  | .bool b => b
  | _ => true

def isNil : Value → Bool
  | .nil => true
  | _ => false

def isFunction : Value → Bool
  | .closure _ => true
  | .native _ => true
  | .bound _ => true
  | _ => false

def ofString (s : String) : Value := .text (ofText s)

/-- the key a value is, unless it is nil or no number -/
def key? : Value → Option Key
  | .nil => none
  | .bool b => some (.bool b)
  | .int i => some (.int i)
  | .float f =>
    if f.isNaN then none
    else
      match floatToInt? f with
      | some i => some (.int i)
      | none => some (.float f.toBits)
  | .text s => some (.text s)
  | .table r => some (.object 0 r)
  | .closure r => some (.object 1 r)
  | .native name => some (.native name)
  | .bound r => some (.object 2 r)
  | .file r => some (.object 3 r)
  | .thread r => some (.object 4 r)

/-- equality without metamethods -/
def rawEq : Value → Value → Bool
  | .nil, .nil => true
  | .bool a, .bool b => a == b
  | .int a, .int b => a == b
  | .float a, .float b => a == b
  | .int a, .float b => floatToInt? b == some a
  | .float a, .int b => floatToInt? a == some b
  | .text a, .text b => a == b
  | .table a, .table b => a == b
  | .closure a, .closure b => a == b
  | .native a, .native b => a == b
  | .bound a, .bound b => a == b
  | .file a, .file b => a == b
  | .thread a, .thread b => a == b
  | _, _ => false

def ofKey : Key → Value
  | .bool b => .bool b
  | .int i => .int i
  | .float bits => .float (Float.ofBits bits)
  | .text s => .text s
  | .native name => .native name
  | .object kind r =>
    match kind with
    | 0 => .table r
    | 1 => .closure r
    | 2 => .bound r
    | 3 => .file r
    | _ => .thread r

end Value

/-! ## Tables -/

structure Table where
  array : Array Value := #[]
  entries : Array (Key × Value) := #[]
  places : Std.TreeMap Key Nat Key.order := {}
  meta_ : Option Nat := none
  deriving Inhabited

namespace Table

def getKey (t : Table) (k : Key) : Value :=
  let entry (_ : Unit) : Value :=
    match t.places[k]? with
    | some i => (t.entries.getD i (k, .nil)).2
    | none => .nil
  match k with
  | .int i =>
    let n := i.toInt
    if 1 ≤ n && n ≤ t.array.size then t.array.getD (n.toNat - 1) .nil else entry ()
  | _ => entry ()

def get (t : Table) (v : Value) : Value :=
  match v.key? with
  | some k => t.getKey k
  | none => .nil

def getText (t : Table) (name : String) : Value := t.getKey (.text (ofText name))

def setEntry : Table → Key → Value → Table
  | ⟨array, entries, places, meta_⟩, k, v =>
    match places[k]? with
    | some i => ⟨array, entries.setIfInBounds i (k, v), places, meta_⟩
    | none =>
      if v.isNil then ⟨array, entries, places, meta_⟩
      else
        let n := entries.size
        ⟨array, entries.push (k, v), places.insert k n, meta_⟩

/-- moves entries that continue the array into it -/
def absorb : Nat → Table → Table
  | 0, t => t
  | fuel + 1, ⟨array, entries, places, meta_⟩ =>
    let k := Key.int (Int64.ofNat (array.size + 1))
    match places[k]? with
    | none => ⟨array, entries, places, meta_⟩
    | some i =>
      let v := (entries.getD i (k, .nil)).2
      if v.isNil then ⟨array, entries, places, meta_⟩
      else absorb fuel ⟨array.push v, entries.setIfInBounds i (k, .nil), places, meta_⟩

/-- puts a value at place `n` of the array or right behind it -/
def setItem : Table → (n : Nat) → Value → Table
  | ⟨array, entries, places, meta_⟩, n, v =>
    if n ≤ array.size then ⟨array.setIfInBounds (n - 1) v, entries, places, meta_⟩
    else if places.isEmpty then ⟨array.push v, entries, places, meta_⟩
    else
      let t := setEntry ⟨array, entries, places, meta_⟩ (.int (Int64.ofNat n)) .nil
      let count := t.entries.size
      match t with
      | ⟨array, entries, places, meta_⟩ => absorb (count + 1) ⟨array.push v, entries, places, meta_⟩

def setKey (t : Table) (k : Key) (v : Value) : Table :=
  match k with
  | .int i =>
    let n := i.toInt
    let size := t.array.size
    if 1 ≤ n && (n ≤ size || (n = size + 1 && !v.isNil)) then t.setItem n.toNat v else t.setEntry k v
  | _ => t.setEntry k v

def setText (t : Table) (name : String) (v : Value) : Table := t.setKey (.text (ofText name)) v

/-- a place `i ≥ 1` with a value, or 0, that is followed by a nil, between a value at `lo` and a nil at `hi` -/
def border (t : Table) : Nat → (lo hi : Nat) → Nat
  | 0, lo, _ => lo
  | fuel + 1, lo, hi =>
    if hi ≤ lo + 1 then lo
    else
      let mid := (lo + hi) / 2
      if (t.array.getD (mid - 1) .nil).isNil then border t fuel lo mid else border t fuel mid hi

/-- values behind the array that go on from place `n` -/
def runFrom (t : Table) : Nat → Nat → Nat
  | 0, n => n
  | fuel + 1, n => if (t.getKey (.int (Int64.ofNat (n + 1)))).isNil then n else runFrom t fuel (n + 1)

def length (t : Table) : Nat :=
  let n := t.array.size
  if n > 0 && (t.array.getD (n - 1) .nil).isNil then
    if n ≥ 2 && !(t.array.getD (n - 2) .nil).isNil then n - 1 else border t 64 0 n
  else if t.places.isEmpty then n
  else runFrom t (t.entries.size + 1) n

/-- the first entry from place `i` on with a value -/
def entryFrom (t : Table) : Nat → Nat → Option (Value × Value)
  | 0, _ => none
  | fuel + 1, i =>
    if h : i < t.entries.size then
      let (k, v) := t.entries[i]
      if v.isNil then entryFrom t fuel (i + 1) else some (.ofKey k, v)
    else none

/-- the first place of the array from `i` on with a value, or the first entry -/
def itemFrom (t : Table) : Nat → Nat → Option (Value × Value)
  | 0, _ => none
  | fuel + 1, i =>
    if h : i < t.array.size then
      if t.array[i].isNil then itemFrom t fuel (i + 1) else some (.int (Int64.ofNat (i + 1)), t.array[i])
    else entryFrom t (t.entries.size + 1) 0

/-- the key and value behind a key in the order of traversal: `none` if the key is not in the table, `some none` at the
end -/
def next (t : Table) (v : Value) : Option (Option (Value × Value)) :=
  let fuel := t.array.size + t.entries.size + 2
  match v with
  | .nil => some (itemFrom t fuel 0)
  | v =>
    match v.key? with
    | none => none
    | some k =>
      let entry (_ : Unit) : Option (Option (Value × Value)) :=
        (t.places[k]?).map fun i => entryFrom t fuel (i + 1)
      match k with
      | .int i =>
        let n := i.toInt
        if 1 ≤ n && n ≤ t.array.size then some (itemFrom t fuel n.toNat) else entry ()
      | _ => entry ()

end Table

/-! ## The heap -/

/-- the variables in scope: their names and cells, how many of them come from around the function, and the rest of the
arguments -/
structure Env where
  vars : List (String × Nat) := []
  captured : Nat := 0
  varargs : List Value := []
  chunk : String := ""
  deriving Inhabited

structure Closure where
  body : FuncBody
  env : Env
  deriving Inhabited

/-- a function of the library with values -/
structure Bound where
  name : String
  values : Array Value
  deriving Inhabited

/-- an open file -/
structure OpenFile where
  path : String
  content : Bytes
  position : Nat := 0
  writes : Bool := false
  appends : Bool := false
  closed : Bool := false
  deriving Inhabited

end Gleaner.Lua
