/-
Arithmetic in shell programs: expressions over integers of 64 bits that wrap around. They may assign to variables, so
they are only read here; a variable stands for the expression its value reads as.
-/
import Gleaner.Shell.Syntax

namespace Gleaner.Shell

inductive ArithOp where
  | add | sub | mul | div | mod | pow
  | shl | shr | bitAnd | bitOr | bitXor
  | lt | le | gt | ge | eq | ne
  deriving DecidableEq

/-- what can be assigned to -/
structure ArithPlace where
  name : String
  /-- the text of the index -/
  index : Option (List Char) := none

inductive Arith where
  | number (n : Int64)
  | place (p : ArithPlace)
  | bin (op : ArithOp) (a b : Arith)
  | neg (a : Arith)
  | bitNot (a : Arith)
  | not (a : Arith)
  | both (a b : Arith)
  | either (a b : Arith)
  | choose (a b c : Arith)
  | comma (a b : Arith)
  | assign (p : ArithPlace) (op : Option ArithOp) (value : Arith)
  /-- adds to a variable; the value is the one before or the one after -/
  | step (p : ArithPlace) (by_ : Int64) (before : Bool)
  deriving Inhabited

namespace Arith

/-- what is wrong with an expression -/
inductive Fault where
  | syntaxError
  | divisionByZero
  | negativeExponent
  | tooDeep
  deriving DecidableEq

abbrev Read := StateT (List Char) (Except Fault)

def isNameStart (c : Char) : Bool := c.isAlpha || c = '_'

def isNamePart (c : Char) : Bool := c.isAlphanum || c = '_'

def skipSpace : Read Unit := modify (·.dropWhile fun c => c = ' ' || c = '\t' || c = '\n' || c = '\r')

/-- takes the first of some signs that the text goes on with -/
def sign? (signs : List String) : Read (Option String) := do
  skipSpace
  let cs ← get
  match signs.find? fun s => s.toList.isPrefixOf cs with
  | some s => set (cs.drop s.length); return some s
  | none => return none

/-- whether the text goes on with a sign -/
def peek (s : String) : Read Bool := do
  skipSpace
  return s.toList.isPrefixOf (← get)

/-- the value of a digit, in bases up to 64 -/
def digitValue? (base : Nat) (c : Char) : Option Nat :=
  let n := if c.isDigit then some (c.toNat - 48)
    else if c.isLower then some (c.toNat - 87)
    else if c.isUpper then some (if base ≤ 36 then c.toNat - 55 else c.toNat - 29)
    else if c = '@' then some 62
    else if c = '_' then some 63
    else none
  n.filter (· < base)

def digits? (base : Nat) (cs : List Char) : Option Int64 :=
  if cs.isEmpty then none
  else (cs.foldlM (fun n c => (digitValue? base c).map (n * base + ·)) 0).map Int64.ofNat

/-- a number as it is written -/
def numeral? (cs : List Char) : Option Int64 :=
  match cs with
  | '0' :: 'x' :: rest => digits? 16 rest
  | '0' :: 'X' :: rest => digits? 16 rest
  | '0' :: rest => if rest.isEmpty then some 0 else digits? 8 rest
  | cs =>
    match cs.span (· ≠ '#') with
    | (base, '#' :: rest) =>
      ((String.ofList base).toNat?.filter fun b => 2 ≤ b && b ≤ 64).bind fun b => digits? b rest
    | _ => digits? 10 cs

/-- the text in brackets behind a name, and the rest -/
def brackets : Nat → Nat → List Char → List Char → Option (List Char × List Char)
  | 0, _, _, _ => none
  | fuel + 1, depth, acc, cs =>
    match cs with
    | [] => none
    | ']' :: rest => if depth = 0 then some (acc.reverse, rest) else brackets fuel (depth - 1) (']' :: acc) rest
    | '[' :: rest => brackets fuel (depth + 1) ('[' :: acc) rest
    | c :: rest => brackets fuel depth (c :: acc) rest

def readPlace : Read ArithPlace := do
  let cs ← get
  let name := cs.takeWhile isNamePart
  set (cs.drop name.length)
  let p : ArithPlace := { name := String.ofList name }
  match cs.drop name.length with
  | '[' :: rest =>
    match brackets (rest.length + 1) 0 [] rest with
    | some (index, after) =>
      set after
      return { p with index := some index }
    | none => throw .syntaxError
  | _ => return p

/-- operators with two sides, from the loosest to the tightest; the longer signs of a level first -/
def levels : List (List (String × ArithOp)) :=
  [[("|", .bitOr)], [("^", .bitXor)], [("&", .bitAnd)], [("==", .eq), ("!=", .ne)],
   [("<=", .le), (">=", .ge), ("<", .lt), (">", .gt)], [("<<", .shl), (">>", .shr)], [("+", .add), ("-", .sub)],
   [("*", .mul), ("/", .div), ("%", .mod)]]

/-- signs that start with the sign of an operator without being that operator -/
def clashes (s : String) (rest : List Char) : Bool :=
  let more := rest.drop s.length
  match s with
  | "|" => more.head? = some '|' || more.head? = some '='
  | "&" => more.head? = some '&' || more.head? = some '='
  | "<" => more.head? = some '<'
  | ">" => more.head? = some '>'
  | "*" => more.head? = some '*' || more.head? = some '='
  | "==" => false
  | "!=" => false
  | "<=" => false
  | ">=" => false
  | _ => more.head? = some '='

def assignSigns : List (String × Option ArithOp) :=
  [("<<=", some .shl), (">>=", some .shr), ("+=", some .add), ("-=", some .sub), ("*=", some .mul), ("/=", some .div),
   ("%=", some .mod), ("&=", some .bitAnd), ("|=", some .bitOr), ("^=", some .bitXor), ("=", none)]

mutual
def comma_ : Nat → Read Arith
  | 0 => throw .tooDeep
  | fuel + 1 => do
    let a ← assignment fuel
    match ← sign? [","] with
    | some _ => return .comma a (← comma_ fuel)
    | none => return a

def assignment : Nat → Read Arith
  | 0 => throw .tooDeep
  | fuel + 1 => do
    skipSpace
    let cs ← get
    if cs.head?.any isNameStart then
      let p ← readPlace
      skipSpace
      let rest ← get
      match assignSigns.find? fun (s, _) => s.toList.isPrefixOf rest with
      | some (s, op) =>
        if s == "=" && rest[1]? = some '=' then
          set cs
          conditional fuel
        else
          set (rest.drop s.length)
          return .assign p op (← assignment fuel)
      | none =>
        set cs
        conditional fuel
    else conditional fuel

def conditional : Nat → Read Arith
  | 0 => throw .tooDeep
  | fuel + 1 => do
    let a ← either_ fuel
    match ← sign? ["?"] with
    | none => return a
    | some _ =>
      let b ← comma_ fuel
      match ← sign? [":"] with
      | none => throw .syntaxError
      | some _ => return .choose a b (← conditional fuel)

def either_ : Nat → Read Arith
  | 0 => throw .tooDeep
  | fuel + 1 => do
    let a ← both_ fuel
    match ← sign? ["||"] with
    | some _ => return .either a (← either_ fuel)
    | none => return a

def both_ : Nat → Read Arith
  | 0 => throw .tooDeep
  | fuel + 1 => do
    let a ← level fuel levels
    match ← sign? ["&&"] with
    | some _ => return .both a (← both_ fuel)
    | none => return a

def level : Nat → List (List (String × ArithOp)) → Read Arith
  | 0, _ => throw .tooDeep
  | fuel + 1, [] => power fuel
  | fuel + 1, ops :: tighter => do
    let a ← level fuel tighter
    levelTail fuel ops tighter a

def levelTail : Nat → List (String × ArithOp) → List (List (String × ArithOp)) → Arith → Read Arith
  | 0, _, _, _ => throw .tooDeep
  | fuel + 1, ops, tighter, a => do
    skipSpace
    let cs ← get
    match ops.find? fun (s, _) => s.toList.isPrefixOf cs && !clashes s cs with
    | none => return a
    | some (s, op) =>
      set (cs.drop s.length)
      levelTail fuel ops tighter (.bin op a (← level fuel tighter))

def power : Nat → Read Arith
  | 0 => throw .tooDeep
  | fuel + 1 => do
    let a ← unary fuel
    match ← sign? ["**"] with
    | some _ => return .bin .pow a (← power fuel)
    | none => return a

def unary : Nat → Read Arith
  | 0 => throw .tooDeep
  | fuel + 1 => do
    skipSpace
    match ← get with
    | '!' :: rest => set rest; return .not (← unary fuel)
    | '~' :: rest => set rest; return .bitNot (← unary fuel)
    | '+' :: '+' :: rest => stepBefore fuel 1 rest
    | '-' :: '-' :: rest => stepBefore fuel (-1) rest
    | '+' :: rest => set rest; unary fuel
    | '-' :: rest => set rest; return .neg (← unary fuel)
    | _ => primary fuel

/-- behind a double sign: it counts a variable, or is two signs -/
def stepBefore : Nat → Int64 → List Char → Read Arith
  | 0, _, _ => throw .tooDeep
  | fuel + 1, by_, rest => do
    set rest
    skipSpace
    if (← get).head?.any isNameStart then return .step (← readPlace) by_ false
    else
      let a ← unary fuel
      return if by_ < 0 then .neg (.neg a) else a

def primary : Nat → Read Arith
  | 0 => throw .tooDeep
  | fuel + 1 => do
    let cs ← get
    match cs with
    | '(' :: rest =>
      set rest
      let a ← comma_ fuel
      match ← sign? [")"] with
      | some _ => return a
      | none => throw .syntaxError
    | c :: _ =>
      if isNameStart c then
        let p ← readPlace
        match ← sign? ["++", "--"] with
        | some "++" => return .step p 1 true
        | some _ => return .step p (-1) true
        | none => return .place p
      else if c.isDigit then
        let digits := cs.takeWhile fun c => c.isAlphanum || c = '#' || c = '@' || c = '_'
        set (cs.drop digits.length)
        match numeral? digits with
        | some n => return .number n
        | none => throw .syntaxError
      else throw .syntaxError
    | [] => throw .syntaxError
end

/-- reads an expression; an empty one is zero -/
def parse (text : List Char) : Except Fault Arith := do
  if text.all fun c => c = ' ' || c = '\t' || c = '\n' then return .number 0
  let (a, rest) ← (comma_ (16 * text.length + 64)).run text
  if (rest.dropWhile fun c => c = ' ' || c = '\t' || c = '\n' || c = '\r').isEmpty then return a
  else throw .syntaxError

/-- a power by squaring; an exponent below `2 ^ fuel` -/
def power64 : Nat → Int64 → Nat → Int64
  | 0, _, _ => 1
  | fuel + 1, x, n =>
    if n = 0 then 1 else (if n % 2 = 1 then x else 1) * power64 fuel (x * x) (n / 2)

/-- an operation on two integers -/
def apply (op : ArithOp) (x y : Int64) : Except Fault Int64 :=
  let truth (b : Bool) : Except Fault Int64 := .ok (if b then 1 else 0)
  match op with
  | .add => .ok (x + y)
  | .sub => .ok (x - y)
  | .mul => .ok (x * y)
  | .div => if y = 0 then .error .divisionByZero else .ok (.ofInt (Int.tdiv x.toInt y.toInt))
  | .mod => if y = 0 then .error .divisionByZero else .ok (.ofInt (Int.tmod x.toInt y.toInt))
  | .pow =>
    if y < 0 then .error .negativeExponent
    else .ok (power64 64 x y.toInt.toNat)
  | .shl => .ok (.ofInt (x.toInt * Int.pow 2 (y.toInt.toNat % 64)))
  | .shr => .ok (.ofInt (Int.fdiv x.toInt (Int.pow 2 (y.toInt.toNat % 64))))
  | .bitAnd => .ok (x &&& y)
  | .bitOr => .ok (x ||| y)
  | .bitXor => .ok (x ^^^ y)
  | .lt => truth (x < y)
  | .le => truth (x ≤ y)
  | .gt => truth (x > y)
  | .ge => truth (x ≥ y)
  | .eq => truth (x = y)
  | .ne => truth (x ≠ y)

end Arith

end Gleaner.Shell
