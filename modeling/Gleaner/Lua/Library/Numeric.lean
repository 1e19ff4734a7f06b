/-
The library of numbers.
-/
import Gleaner.Lua.Library.Arguments

namespace Gleaner.Lua.Library

def floatValue (f : Float) : Action := Action.give [.float f]

/-- an integer if the float is one, and the float itself otherwise -/
def roundedValue (f : Float) : Action :=
  match floatToInt? f with
  | some i => Action.give [.int i]
  | none => floatValue f

/-- the next random word -/
def nextRandom (seed : UInt64) : UInt64 :=
  let x := seed ^^^ (seed >>> 12)
  let x := x ^^^ (x <<< 25)
  x ^^^ (x >>> 27)

/-- a random number: a float below 1, or an integer between bounds -/
def randomAction (a : Arguments) : Action := do
  let draw (use : UInt64 → Value) : Action :=
    .ok fun m =>
      let seed := nextRandom m.seed
      { m with seed := seed }.give1 (use (seed * 0x2545F4914F6CDD1D))
  let between (i : Nat) (lo hi : Int) : Action :=
    if lo > hi then a.fault i "interval is empty"
    else draw fun w => .int (.ofInt (lo + (w.toNat % (hi - lo + 1).toNat : Nat)))
  if !a.has 0 then draw fun w => .float ((Float.ofNat (w >>> 11).toNat).scaleB (-53))
  else if !a.has 1 then
    let hi ← a.int 0
    if hi = 0 then draw fun w => .int w.toInt64 else between 0 1 hi
  else between 1 (← a.int 0) (← a.int 1)

/-- the extreme of some numbers: `better x y` if `x` is to be preferred -/
def extreme (a : Arguments) (better : Number → Number → Bool) : Action := do
  let first ← a.number 0
  let rest ← ((List.range a.values.size).drop 1).mapM a.number
  Action.give [(rest.foldl (fun best x => if better x best then x else best) first).value]

def numericFunctions : List (String × (Float → Float)) :=
  [("sqrt", Float.sqrt), ("sin", Float.sin), ("cos", Float.cos), ("tan", Float.tan), ("asin", Float.asin),
   ("acos", Float.acos), ("exp", Float.exp),
   ("deg", fun x => x * (180.0 / 3.141592653589793)), ("rad", fun x => x * (3.141592653589793 / 180.0))]

def numericNames : List String :=
  numericFunctions.map (·.1) ++
    ["abs", "atan", "ceil", "floor", "fmod", "log", "max", "min", "modf", "random", "randomseed", "tointeger", "type",
     "ult"]

def numericLibrary? (a : Arguments) : Option Action :=
  match a.name with
  | "math.abs" => some do
    match ← a.number 0 with
    | .int i => Action.give [.int (if i < 0 then -i else i)]
    | .float f => floatValue f.abs
  | "math.atan" => some do floatValue (Float.atan2 (← a.float 0) (← a.orElse 1 1.0 a.float))
  | "math.ceil" => some do
    match ← a.number 0 with
    | .int i => Action.give [.int i]
    | .float f => roundedValue f.ceil
  | "math.floor" => some do
    match ← a.number 0 with
    | .int i => Action.give [.int i]
    | .float f => roundedValue f.floor
  | "math.fmod" => some do
    match ← a.number 0, ← a.number 1 with
    | .int x, .int y =>
      if y = 0 then a.fault 1 "zero" else Action.give [.int (.ofInt (Int.tmod x.toInt y.toInt))]
    | x, y =>
      let (x, y) := (x.toFloat, y.toFloat)
      floatValue (if x.isNaN || y.isNaN || x.isInf || y == 0.0 then 0.0 / 0.0
        else if y.isInf then x else truncatedRemainder x y)
  | "math.log" => some do
    let x ← a.float 0
    if !a.has 1 then floatValue x.log
    else
      let base ← a.float 1
      floatValue (if base == 2.0 then x.log2 else if base == 10.0 then x.log10 else x.log / base.log)
  | "math.max" => some (extreme a fun x best => numberLess best x)
  | "math.min" => some (extreme a fun x best => numberLess x best)
  | "math.modf" => some do
    match ← a.number 0 with
    | .int i => Action.give [.float (intToFloat i), .float 0.0]
    | .float f =>
      let whole := if f < 0.0 then f.ceil else f.floor
      Action.give [.float whole, .float (if f.isInf then 0.0 else f - whole)]
  | "math.random" => some (randomAction a)
  | "math.randomseed" => some (.ok fun m =>
      let seed := match (a.get 0).asInt? with
        | some i => i.toUInt64
        | none => 1
      { m with seed := if seed = 0 then 88172645463325252 else seed }.give [])
  | "math.tointeger" => some do
    match ← a.any 0 with
    | .int i => Action.give [.int i]
    | .float f => Action.give [((floatToInt? f).map Value.int).getD .nil]
    | v => Action.give [(v.asInt?.map Value.int).getD .nil]
  | "math.type" => some do
    match ← a.any 0 with
    | .int _ => Action.text (ofText "integer")
    | .float _ => Action.text (ofText "float")
    | _ => Action.give [.nil]
  | "math.ult" => some do
    let x ← a.int 0
    let y ← a.int 1
    Action.bool ((Int64.ofInt x).toUInt64 < (Int64.ofInt y).toUInt64)
  | name =>
    (numericFunctions.find? fun (f, _) => "math." ++ f == name).map fun (_, f) => do floatValue (f (← a.float 0))

end Gleaner.Lua.Library
