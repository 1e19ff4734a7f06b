/-
The library of tables.
-/
import Gleaner.Lua.Evaluate
import Gleaner.Lua.Library.Arguments
import Gleaner.Lua.Parser

namespace Gleaner.Lua.Library

/-- the value at a place of a table -/
def itemOf (m : Machine) (t : Nat) (i : Int) : Value := (m.table t).getKey (.int (.ofInt i))

def setItem (t : Nat) (i : Int) (v : Value) (m : Machine) : Machine := m.modifyTable t (·.setKey (.int (.ofInt i)) v)

/-- the most values that are handled one by one -/
def maxItems : Int := 10000000

/-- moves the items at `lo` to `hi` one place up, the last first -/
def shiftUp (t : Nat) (lo : Int) : Nat → Machine → Machine
  | 0, m => m
  | n + 1, m => shiftUp t lo n (setItem t (lo + n + 1) (itemOf m t (lo + n)) m)

/-- moves `n` items from `lo + 1` on one place down -/
def shiftDown (t : Nat) : Nat → Int → Machine → Machine
  | 0, _, m => m
  | n + 1, lo, m => shiftDown t n (lo + 1) (setItem t lo (itemOf m t (lo + 1)) m)

def insertItem (a : Arguments) : Action := do
  let t ← a.table 0
  if a.values.size ≠ 2 && a.values.size ≠ 3 then throw "wrong number of arguments to 'insert'"
  let place ← if a.values.size = 3 then (a.int 1).map some else pure none
  return fun m =>
    let n : Int := (m.table t).length
    match place with
    | none => (setItem t (n + 1) (a.get 1) m).give []
    | some i =>
      if i < 1 || i > n + 1 then Action.perform a.site (a.fault 1 "position out of bounds") m
      else (setItem t i (a.get 2) (shiftUp t i (n + 1 - i).toNat m)).give []

def removeItem (a : Arguments) : Action := do
  let t ← a.table 0
  let place ← if a.has 1 then (a.int 1).map some else pure none
  return fun m =>
    let n : Int := (m.table t).length
    let i := place.getD n
    if place.isSome && n + 1 ≠ i && (i < 1 || i > n + 1) && !(n = 0 && i = 0) then
      Action.perform a.site (a.fault 1 "position out of bounds") m
    else
      let v := itemOf m t i
      if i < 1 && n = 0 then (setItem t i .nil m).give1 v
      else
        let m := if i ≤ n then shiftDown t (n - i).toNat i m else m
        (setItem t (max i n) .nil m).give1 v

/-- puts texts behind each other, with a text between them -/
def concatFrom (m : Machine) (t : Nat) (sep : Bytes) : Nat → Int → Bytes → Except String Bytes
  | 0, _, acc => .ok acc
  | n + 1, i, acc =>
    match (itemOf m t i).asText? with
    | some s => concatFrom m t sep n (i + 1) (if n = 0 then acc ++ s else acc ++ s ++ sep)
    | none =>
      .error ("invalid value (at index " ++ toString i ++ ") in table for 'concat'")

def concatItems (a : Arguments) : Action := do
  let t ← a.table 0
  let sep ← a.textOr 1 ""
  let lo ← a.intOr 2 1
  let hi? ← if (a.get 3).isNil then pure none else (a.int 3).map some
  return fun m =>
    let hi := hi?.getD (m.table t).length
    Action.perform a.site ((concatFrom m t sep (hi + 1 - lo).toNat lo ByteArray.empty).map Machine.giveBytes) m

def unpackItems (a : Arguments) : Action := do
  let t ← match a.get 0 with
    | .table t => pure (some t)
    | _ => pure none
  let lo ← a.intOr 1 1
  let hi? ← if (a.get 2).isNil then pure none else (a.int 2).map some
  return fun m =>
    match t with
    | none => m.fail a.site ("attempt to get length of a " ++ (a.get 0).typeName ++ " value")
    | some t =>
      let hi := hi?.getD (m.table t).length
      let n := hi + 1 - lo
      if n ≥ maxItems then m.fail a.site "too many results to unpack"
      else m.give ((List.range n.toNat).map fun (k : Nat) => itemOf m t (lo + k))

/-- copies items one by one, upward or downward -/
def copyItems (source target : Nat) (lo to_ : Int) (up : Bool) (n : Nat) (m : Machine) : Machine :=
  let ks := if up then List.range n else (List.range n).reverse
  ks.foldl (fun m (k : Nat) => setItem target (to_ + k) (itemOf m source (lo + k)) m) m

def moveItems (a : Arguments) : Action := do
  let source ← a.table 0
  let lo ← a.int 1
  let hi ← a.int 2
  let to_ ← a.int 3
  let target ← if (a.get 4).isNil then pure source else a.table 4
  if hi - lo ≥ maxItems then a.fault 2 "too many elements to move"
  let up := to_ > hi || to_ ≤ lo || target ≠ source
  return fun m => (copyItems source target lo to_ up (hi + 1 - lo).toNat m).give1 (.table target)

/-! ## Sorting -/

/-- the program that gives the function that sorts. The middle of three values parts the others; the shorter part is
sorted first. -/
def sortProgram : String := String.intercalate "\n" [
  "local type, error = ...",
  "local function check(comp)",
  "  if comp then return comp end",
  "  return function(a, b) return a < b end",
  "end",
  "local function partition(t, lo, up, pivot, lt)",
  "  local i, j = lo, up - 1",
  "  while true do",
  "    i = i + 1",
  "    while lt(t[i], pivot) do",
  "      if i == up - 1 then error('invalid order function for sorting', 0) end",
  "      i = i + 1",
  "    end",
  "    j = j - 1",
  "    while lt(pivot, t[j]) do",
  "      if j < i then error('invalid order function for sorting', 0) end",
  "      j = j - 1",
  "    end",
  "    if j < i then",
  "      t[up - 1], t[i] = t[i], t[up - 1]",
  "      return i",
  "    end",
  "    t[i], t[j] = t[j], t[i]",
  "  end",
  "end",
  "local function order(t, lo, up, lt)",
  "  while lo < up do",
  "    if lt(t[up], t[lo]) then t[lo], t[up] = t[up], t[lo] end",
  "    if up - lo == 1 then break end",
  "    local p = (lo + up) // 2",
  "    if lt(t[p], t[lo]) then t[p], t[lo] = t[lo], t[p]",
  "    elseif lt(t[up], t[p]) then t[p], t[up] = t[up], t[p] end",
  "    if up - lo == 2 then break end",
  "    local pivot = t[p]",
  "    t[p], t[up - 1] = t[up - 1], t[p]",
  "    p = partition(t, lo, up, pivot, lt)",
  "    if p - lo < up - p then",
  "      order(t, lo, p - 1, lt)",
  "      lo = p + 1",
  "    else",
  "      order(t, p + 1, up, lt)",
  "      up = p - 1",
  "    end",
  "  end",
  "end",
  "return function(t, comp)",
  "  if type(t) ~= 'table' then",
  "    error(\"bad argument #1 to 'sort' (table expected, got \" .. (t == nil and 'no value' or type(t)) .. ')', 2)",
  "  end",
  "  local n = #t",
  "  if n > 1 then",
  "    if comp ~= nil and type(comp) ~= 'function' then",
  "      error(\"bad argument #2 to 'sort' (function expected, got \" .. type(comp) .. ')', 2)",
  "    end",
  "    order(t, 1, n, check(comp))",
  "  end",
  "end"]

def sortChunk : Except SyntaxError FuncBody := parse (byteChars (ofText sortProgram))

/-- sorts a table: the program gives its function, and that is called -/
def sortItems (a : Arguments) : Action :=
  match sortChunk with
  | .error e => .error e.text
  | .ok body => .ok fun m =>
    let (f, m) := m.newClosure body { vars := [], chunk := "" }
    (m.push (.sorting a.values.toList a.site)).call f [.native "type", .native "error"] a.site

/-! ## All of them -/

def tableNames : List String := ["concat", "insert", "move", "pack", "remove", "sort", "unpack"]

def tableLibrary? (a : Arguments) : Option Action :=
  match a.name with
  | "table.concat" => some (concatItems a)
  | "table.insert" => some (insertItem a)
  | "table.move" => some (moveItems a)
  | "table.pack" => some (.ok fun m =>
      let (i, m) := m.newTable { array := a.values }
      (m.setField i "n" (.int (.ofNat a.values.size))).give1 (.table i))
  | "table.remove" => some (removeItem a)
  | "table.sort" => some (sortItems a)
  | "table.unpack" => some (unpackItems a)
  | _ => none

end Gleaner.Lua.Library
