/-
Operators on values that are not looked at by metamethods: numbers, texts that read as numbers, and comparisons of
texts.

Integers wrap around. Division with rounding and the remainder go to the floor; dividing an integer by zero that way is
a fault. Bits are those of integers, and a float is one if it has no fraction.
-/
import Gleaner.Lua.Value

namespace Gleaner.Lua

/-! ## Conversions -/

namespace Number

def toFloat : Number → Float
  | .int i => intToFloat i
  | .float f => f

def toInt? : Number → Option Int64
  | .int i => some i
  | .float f => floatToInt? f

def value : Number → Value
  | .int i => .int i
  | .float f => .float f

end Number

namespace Value

def number? : Value → Option Number
  | .int i => some (.int i)
  | .float f => some (.float f)
  | _ => none

/-- a number, or a text that reads as one -/
def asNumber? : Value → Option Number
  | .int i => some (.int i)
  | .float f => some (.float f)
  | .text s => readNumber? (byteChars s)
  | _ => none

def asInt? (v : Value) : Option Int64 := v.asNumber?.bind Number.toInt?

/-- a text, or the text of a number -/
def asText? : Value → Option Bytes
  | .text s => some s
  | .int i => some (ofText (intText i))
  | .float f => some (ofText (floatText f))
  | _ => none

def isText : Value → Bool
  | .text _ => true
  | _ => false

def isNumber : Value → Bool
  | .int _ => true
  | .float _ => true
  | _ => false

end Value

/-! ## Arithmetic -/

/-- the remainder of a division that rounds toward zero, of finite numbers -/
def truncatedRemainder (a b : Float) : Float :=
  let (ma, ea) := binaryParts a
  let (mb, eb) := binaryParts b
  let e := min ea eb
  let n := (ma * Nat.pow 2 (ea - e).toNat) % (mb * Nat.pow 2 (eb - e).toNat)
  let r := (Float.ofNat n).scaleB e
  if isNegative a then -r else r

def floatMod (a b : Float) : Float :=
  if a.isNaN || b.isNaN || a.isInf || b == 0.0 then 0.0 / 0.0
  else if b.isInf then if (a < 0.0 && b > 0.0) || (a > 0.0 && b < 0.0) then b else a
  else
    let r := truncatedRemainder a b
    if r * b < 0.0 then r + b else r

/-- shifts to the left, or to the right if `n` is negative -/
def shiftLeft (x n : Int64) : Int64 :=
  let k := n.toInt
  if k ≥ 64 || k ≤ -64 then 0
  else if k ≥ 0 then (x.toUInt64 <<< (UInt64.ofNat k.toNat)).toInt64
  else (x.toUInt64 >>> (UInt64.ofNat (-k).toNat)).toInt64

/-- an operation on integers; the error is a message -/
def intArith (op : BinOp) (x y : Int64) : Except String Value :=
  match op with
  | .add => .ok (.int (x + y))
  | .sub => .ok (.int (x - y))
  | .mul => .ok (.int (x * y))
  | .idiv => if y = 0 then .error "attempt to perform 'n//0'" else .ok (.int (.ofInt (Int.fdiv x.toInt y.toInt)))
  | .mod => if y = 0 then .error "attempt to perform 'n%0'" else .ok (.int (.ofInt (Int.fmod x.toInt y.toInt)))
  | .bitAnd => .ok (.int (x &&& y))
  | .bitOr => .ok (.int (x ||| y))
  | .bitXor => .ok (.int (x ^^^ y))
  | .shl => .ok (.int (shiftLeft x y))
  | .shr => .ok (.int (shiftLeft x (-y)))
  | _ => .ok .nil

def floatArith (op : BinOp) (x y : Float) : Value :=
  match op with
  | .add => .float (x + y)
  | .sub => .float (x - y)
  | .mul => .float (x * y)
  | .div => .float (x / y)
  | .idiv => .float (x / y).floor
  | .mod => .float (floatMod x y)
  | .pow => .float (x ^ y)
  | _ => .nil

def BinOp.isBitwise : BinOp → Bool
  | .bitAnd | .bitOr | .bitXor | .shl | .shr => true
  | _ => false

/-- an operation on two numbers -/
def arith (op : BinOp) (x y : Number) : Except String Value :=
  if op.isBitwise then
    match x.toInt?, y.toInt? with
    | some i, some j => intArith op i j
    | _, _ => .error "number has no integer representation"
  else
    match op, x, y with
    | .div, x, y => .ok (floatArith op x.toFloat y.toFloat)
    | .pow, x, y => .ok (floatArith op x.toFloat y.toFloat)
    | _, .int i, .int j => intArith op i j
    | _, x, y => .ok (floatArith op x.toFloat y.toFloat)

/-! ## Comparisons -/

/-- whether bytes come before others -/
def bytesBefore (a b : Bytes) : Bool :=
  let rec go : Nat → Nat → Bool
    | 0, _ => a.size < b.size
    | fuel + 1, i =>
      let x := a.get! i
      let y := b.get! i
      if x = y then go fuel (i + 1) else x < y
  go (min a.size b.size) 0

/-- whether an integer is below a float -/
def intBelowFloat (i : Int64) (f : Float) : Bool :=
  if f.isNaN then false
  else if f ≥ 9223372036854775808.0 then true
  else if f < -9223372036854775808.0 then false
  else
    match floatToInt? f.ceil with
    | some n => i < n
    | none => true

/-- whether a float is below an integer -/
def floatBelowInt (f : Float) (i : Int64) : Bool :=
  if f.isNaN then false
  else if f ≥ 9223372036854775808.0 then false
  else if f < -9223372036854775808.0 then true
  else
    match floatToInt? f.floor with
    | some n => n < i
    | none => false

def numberLess : Number → Number → Bool
  | .int i, .int j => i < j
  | .float x, .float y => x < y
  | .int i, .float y => intBelowFloat i y
  | .float x, .int j => floatBelowInt x j

def isNaN : Number → Bool
  | .int _ => false
  | .float f => f.isNaN

def numberLessEq (x y : Number) : Bool := !isNaN x && !isNaN y && !numberLess y x

/-- whether a value is below another, if both are numbers or both are texts -/
def less? (a b : Value) : Option Bool :=
  match a, b with
  | .text s, .text t => some (bytesBefore s t)
  | a, b =>
    match a.number?, b.number? with
    | some x, some y => some (numberLess x y)
    | _, _ => none

def lessEq? (a b : Value) : Option Bool :=
  match a, b with
  | .text s, .text t => some (!bytesBefore t s)
  | a, b =>
    match a.number?, b.number? with
    | some x, some y => some (numberLessEq x y)
    | _, _ => none

/-! ## Names -/

/-- the metamethod of an operator -/
def BinOp.event : BinOp → String
  | .add => "__add"
  | .sub => "__sub"
  | .mul => "__mul"
  | .div => "__div"
  | .idiv => "__idiv"
  | .mod => "__mod"
  | .pow => "__pow"
  | .concat => "__concat"
  | .eq | .ne => "__eq"
  | .lt | .gt => "__lt"
  | .le | .ge => "__le"
  | .bitAnd => "__band"
  | .bitOr => "__bor"
  | .bitXor => "__bxor"
  | .shl => "__shl"
  | .shr => "__shr"

def UnOp.event : UnOp → String
  | .neg => "__unm"
  | .lnot => "__not"
  | .len => "__len"
  | .bitNot => "__bnot"

end Gleaner.Lua
