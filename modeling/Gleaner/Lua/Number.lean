/-
Lua's numbers: 64-bit integers and floating-point numbers, their texts and conversions.

A number is written with 14 significant digits, without needless zeros, and with ".0" behind it if it would read as an
integer. `decimalParts` gives the digits of a floating-point number exactly, rounded to any number of places.
-/

namespace Gleaner.Lua

/-! ## Exact digits -/

/-- a finite number as `mantissa · 2 ^ exponent` -/
def binaryParts (f : Float) : Nat × Int :=
  let bits := f.toBits.toNat
  let exponent : Nat := (bits / (1 <<< 52)) % (1 <<< 11)
  let fraction : Nat := bits % (1 <<< 52)
  if exponent = 0 then (fraction, -1074) else (fraction + (1 <<< 52), (exponent : Int) - 1075)

def isNegative (f : Float) : Bool := f.toBits.toNat ≥ 1 <<< 63

/-- the quotient rounded to the nearest number, a half to the even one -/
def roundDiv (n d : Nat) : Nat :=
  let q := n / d
  let r := n % d
  if 2 * r > d || (2 * r = d && q % 2 = 1) then q + 1 else q

/-- `|f| · 10 ^ places`, rounded -/
def scaled (f : Float) (places : Int) : Nat :=
  let (m, e) := binaryParts f
  let num := m * (if e ≥ 0 then Nat.pow 2 e.toNat else 1) * (if places ≥ 0 then Nat.pow 10 places.toNat else 1)
  let den := (if e < 0 then Nat.pow 2 (-e).toNat else 1) * (if places < 0 then Nat.pow 10 (-places).toNat else 1)
  roundDiv num den

def digitCount (n : Nat) : Nat := (Nat.toDigits 10 n).length

/-- the decimal exponent of a number that is not 0 -/
def decimalExponent (f : Float) : Int :=
  let (m, e) := binaryParts f
  let guess : Int := ((e + Nat.log2 m) * 30103) / 100000
  let fits (x : Int) : Bool :=
    let num := m * (if e ≥ 0 then Nat.pow 2 e.toNat else 1) * (if x < 0 then Nat.pow 10 (-x).toNat else 1)
    let den := (if e < 0 then Nat.pow 2 (-e).toNat else 1) * (if x ≥ 0 then Nat.pow 10 x.toNat else 1)
    den ≤ num
  if fits (guess + 1) then guess + 1 else if fits guess then guess else guess - 1

/-- `count` significant digits and the decimal exponent of the first -/
def significantDigits (f : Float) (count : Nat) : List Char × Int :=
  if (binaryParts f).1 = 0 then (List.replicate count '0', 0)
  else
    let x := decimalExponent f
    let n := scaled f ((count : Int) - 1 - x)
    if digitCount n > count then (Nat.toDigits 10 (n / 10), x + 1) else (Nat.toDigits 10 n, x)

/-! ## Texts -/

def dropTrailingZeros (cs : List Char) : List Char := (cs.reverse.dropWhile (· = '0')).reverse

def exponentText (upper : Bool) (x : Int) : List Char :=
  let digits := Nat.toDigits 10 x.natAbs
  let digits := if digits.length < 2 then '0' :: digits else digits
  (if upper then 'E' else 'e') :: (if x < 0 then '-' else '+') :: digits

/-- digits with a point before the last `places` of them -/
def withPoint (digits : List Char) (places : Nat) (keepPoint : Bool) : List Char :=
  let digits := List.replicate (places + 1 - digits.length) '0' ++ digits
  let whole := digits.take (digits.length - places)
  let fraction := digits.drop (digits.length - places)
  if fraction.isEmpty then (if keepPoint then whole ++ ['.'] else whole) else whole ++ '.' :: fraction

/-- with a fixed number of places -/
def fixedText (f : Float) (places : Nat) (keepPoint : Bool) : List Char :=
  withPoint (Nat.toDigits 10 (scaled f places)) places keepPoint

/-- with an exponent -/
def scientificText (f : Float) (places : Nat) (keepPoint upper : Bool) : List Char :=
  let (digits, x) := significantDigits f (places + 1)
  let x := if (binaryParts f).1 = 0 then 0 else x
  withPoint digits places keepPoint ++ exponentText upper x

/-- with some significant digits, in whichever of the two forms is shorter; `keepZeros` keeps zeros at the end -/
def generalText (f : Float) (precision : Nat) (keepZeros upper : Bool) : List Char :=
  let precision := max precision 1
  let (digits, x) := significantDigits f precision
  if x < -4 || x ≥ precision then
    let fraction := digits.drop 1
    let fraction := if keepZeros then fraction else dropTrailingZeros fraction
    digits.take 1 ++ (if fraction.isEmpty && !keepZeros then [] else '.' :: fraction) ++ exponentText upper x
  else
    let places := ((precision : Int) - 1 - x).toNat
    let text := withPoint digits places keepZeros
    if keepZeros || places = 0 then text
    else
      let cut := dropTrailingZeros text
      if cut.getLast? = some '.' then cut.dropLast else cut

/-- the text of a number that is infinite or none -/
def unusualText? (f : Float) : Option (List Char) :=
  if f.isNaN then some ['n', 'a', 'n'] else if f.isInf then some ['i', 'n', 'f'] else none

/-- puts a sign before a text; what is no number counts as negative -/
def signed (f : Float) (cs : List Char) : List Char := if isNegative f || f.isNaN then '-' :: cs else cs

/-- the text of a number as a value -/
def floatText (f : Float) : String :=
  match unusualText? f with
  | some cs => String.ofList (signed f cs)
  | none =>
    let cs := generalText f 14 false false
    let cs := if cs.all fun c => c.isDigit then cs ++ ['.', '0'] else cs
    String.ofList (signed f cs)

def intText (i : Int64) : String := toString i.toInt

/-! ## Conversions -/

/-- the float nearest to an integer -/
def intToFloat (i : Int64) : Float := Float.ofInt i.toInt

/-- the integer a float is, if it is one -/
def floatToInt? (f : Float) : Option Int64 :=
  if f.isNaN || f.isInf then none
  else if f ≥ -9223372036854775808.0 && f < 9223372036854775808.0 && f.floor == f then
    let (m, e) := binaryParts f
    let n : Int := if e ≥ 0 then m * Int.pow 2 e.toNat else (m / Nat.pow 2 (-e).toNat : Nat)
    some (Int64.ofInt (if isNegative f then -n else n))
  else none

/-! ## Reading -/

def hexValue? (c : Char) : Option Nat :=
  if c.isDigit then some (c.toNat - 48)
  else if 'a' ≤ c ∧ c ≤ 'f' then some (c.toNat - 87)
  else if 'A' ≤ c ∧ c ≤ 'F' then some (c.toNat - 55)
  else none

inductive Number where
  | int (i : Int64)
  | float (f : Float)

def digitsValue (base : Nat) (cs : List Char) : Nat :=
  cs.foldl (fun n c => n * base + (hexValue? c).getD 0) 0

/-- a sign and digits -/
def readExponent? (cs : List Char) : Option Int :=
  let (negative, digits) := match cs with
    | '-' :: rest => (true, rest)
    | '+' :: rest => (false, rest)
    | _ => (false, cs)
  if digits.isEmpty || !digits.all Char.isDigit then none
  else
    let n : Int := digitsValue 10 (digits.take 8)
    some (if negative then -n else n)

/-- `m · 2 ^ e` as a float, rounded -/
def scaleBinary (m : Nat) (e : Int) : Float :=
  let bits := Nat.log2 m + 1
  -- keeps 64 bits and the information whether anything lies below them
  let (m, e) :=
    if bits > 64 then
      let shift := bits - 64
      let low := if m % Nat.pow 2 shift = 0 then 0 else 1
      ((m / Nat.pow 2 shift) / 2 * 2 + (if (m / Nat.pow 2 shift) % 2 = 1 || low = 1 then 1 else 0), e + shift)
    else (m, e)
  (Float.ofNat m).scaleB e

def decimalFloat (digits : List Char) (exponent : Int) : Float :=
  let m := digitsValue 10 digits
  if m = 0 || exponent < -1000000 then 0.0
  else if exponent > 100000 then 1.0 / 0.0
  else if exponent ≥ 0 then Float.ofScientific m false exponent.toNat
  else Float.ofScientific m true (-exponent).toNat

/-- a numeral without sign and blanks -/
def readNumeral? (cs : List Char) : Option Number :=
  match cs with
  | '0' :: x :: rest =>
    if x = 'x' || x = 'X' then
      let (whole, rest) := rest.span fun c => (hexValue? c).isSome
      let (fraction, rest, pointed) := match rest with
        | '.' :: more => let (f, r) := more.span fun c => (hexValue? c).isSome; (f, r, true)
        | _ => ([], rest, false)
      if whole.isEmpty && fraction.isEmpty then none
      else
        let m := digitsValue 16 (whole ++ fraction)
        match rest with
        | [] =>
          if pointed then some (.float (scaleBinary m (-4 * fraction.length)))
          else some (.int (Int64.ofInt (digitsValue 16 whole)))
        | p :: more =>
          if p = 'p' || p = 'P' then
            (readExponent? more).map fun e => .float (scaleBinary m (e - 4 * fraction.length))
          else none
    else decimal cs
  | _ => decimal cs
where
  decimal (cs : List Char) : Option Number :=
    let (whole, rest) := cs.span Char.isDigit
    let (fraction, rest, pointed) := match rest with
      | '.' :: more => let (f, r) := more.span Char.isDigit; (f, r, true)
      | _ => ([], rest, false)
    if whole.isEmpty && fraction.isEmpty then none
    else
      match rest with
      | [] =>
        if !pointed && digitsValue 10 whole < 1 <<< 63 then some (.int (Int64.ofInt (digitsValue 10 whole)))
        else some (.float (decimalFloat (whole ++ fraction) (-fraction.length)))
      | e :: more =>
        if e = 'e' || e = 'E' then
          (readExponent? more).map fun x => .float (decimalFloat (whole ++ fraction) (x - fraction.length))
        else none

def isSpace (c : Char) : Bool := c = ' ' || (9 ≤ c.toNat && c.toNat ≤ 13)

/-- a numeral with blanks around it and a sign -/
def readNumber? (cs : List Char) : Option Number :=
  let cs := ((cs.dropWhile isSpace).reverse.dropWhile isSpace).reverse
  match cs with
  | '-' :: rest => (readNumeral? rest).map fun
    | .int i => .int (-i)
    | .float f => .float (-f)
  | '+' :: rest => readNumeral? rest
  | _ => readNumeral? cs

end Gleaner.Lua
