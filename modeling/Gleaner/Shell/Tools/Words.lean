/-
Tools that work on their arguments: they write them, take them apart, compare them and compute with them.
-/
import Gleaner.Lua.Format
import Gleaner.Shell.Arithmetic
import Gleaner.Shell.PosixRegex
import Gleaner.Shell.Tools.Lines

namespace Gleaner.Shell.Tools

/-! ## Escapes -/

def octalValue (cs : List Char) : Nat := cs.foldl (fun n d => n * 8 + (d.toNat - 48)) 0

def isOctal (c : Char) : Bool := '0' ≤ c && c ≤ '7'

/-- the bytes of a code point, as characters -/
def codePoint (n : Nat) : List Char :=
  if n < 0x80 then [Char.ofNat n]
  else (Utf8.encode (String.singleton (Char.ofNat n))).map fun b => Char.ofNat b.toNat

def hexDigits (limit : Nat) (cs : List Char) : List Char :=
  (cs.takeWhile fun c => (Arith.digitValue? 16 c.toLower).isSome).take limit

def hexNumber (cs : List Char) : Nat :=
  cs.foldl (fun n c => n * 16 + (Arith.digitValue? 16 c.toLower).getD 0) 0

/-- an escape behind its backslash: the characters it means and the rest. Nothing if there is no such escape, and
`.error` if it ends the text. In `leading`, octal numbers start with a zero. -/
def escape? (leading : Bool) (cs : List Char) : Option (Except Unit (List Char × List Char)) :=
  let one (c : Char) (rest : List Char) : Option (Except Unit (List Char × List Char)) := some (.ok ([c], rest))
  match cs with
  | 'n' :: rest => one '\n' rest
  | 't' :: rest => one '\t' rest
  | 'r' :: rest => one '\r' rest
  | 'a' :: rest => one (Char.ofNat 7) rest
  | 'b' :: rest => one (Char.ofNat 8) rest
  | 'e' :: rest => one (Char.ofNat 27) rest
  | 'E' :: rest => one (Char.ofNat 27) rest
  | 'f' :: rest => one (Char.ofNat 12) rest
  | 'v' :: rest => one (Char.ofNat 11) rest
  | '\\' :: rest => one '\\' rest
  | 'c' :: _ => if leading then some (.error ()) else none
  | 'x' :: rest =>
    let digits := hexDigits 2 rest
    if digits.isEmpty then none else one (Char.ofNat (hexNumber digits)) (rest.drop digits.length)
  | 'u' :: rest =>
    let digits := hexDigits 4 rest
    if digits.isEmpty then none else some (.ok (codePoint (hexNumber digits), rest.drop digits.length))
  | 'U' :: rest =>
    let digits := hexDigits 8 rest
    if digits.isEmpty then none else some (.ok (codePoint (hexNumber digits), rest.drop digits.length))
  | '0' :: rest =>
    if leading then
      let digits := (rest.takeWhile isOctal).take 3
      one (Char.ofNat (octalValue digits % 256)) (rest.drop digits.length)
    else
      let digits := (('0' :: rest).takeWhile isOctal).take 3
      one (Char.ofNat (octalValue digits % 256)) (('0' :: rest).drop digits.length)
  | c :: rest =>
    if isOctal c && !leading then
      let digits := ((c :: rest).takeWhile isOctal).take 3
      one (Char.ofNat (octalValue digits % 256)) ((c :: rest).drop digits.length)
    else none
  | [] => none

/-- replaces escapes, and whether the text goes on behind them -/
def unescape (leading : Bool) : Nat → List Char → List Char × Bool
  | 0, cs => (cs, true)
  | _, [] => ([], true)
  | fuel + 1, '\\' :: rest =>
    match escape? leading rest with
    | some (.ok (here, rest)) =>
      let (more, on) := unescape leading fuel rest
      (here ++ more, on)
    | some (.error ()) => ([], false)
    | none =>
      let (more, on) := unescape leading fuel rest
      ('\\' :: more, on)
  | fuel + 1, c :: rest =>
    let (more, on) := unescape leading fuel rest
    (c :: more, on)

/-! ## Writing arguments -/

def echo (g : Given) : Result :=
  let isOption (a : String) : Bool :=
    match a.toList with
    | '-' :: c :: more => (c :: more).all ("neE".toList.contains ·)
    | _ => false
  let opts := (g.args.takeWhile isOption)
  let letters := opts.flatMap fun a => a.toList.drop 1
  let text := String.intercalate " " (g.args.drop opts.length)
  let escapes := (letters.filter (· ≠ 'n')).getLast? = some 'e'
  let (text, on) := if escapes then
      let (cs, on) := unescape true (text.length + 1) text.toList
      (String.ofList cs, on)
    else (text, true)
  { out := text ++ (if letters.contains 'n' || !on then "" else "\n"), used := .nothing }

/-- a text as the shell could read it again -/
def shellQuoted (s : String) : String :=
  let safe (c : Char) : Bool := c.isAlphanum || "_-./:=@%+,".toList.contains c
  if s.isEmpty then "''"
  else if s.toList.all safe then s
  else if s.toList.any fun c => c.toNat < 32 || c.toNat > 126 then
    let one (c : Char) : String :=
      match c with
      | '\n' => "\\n"
      | '\t' => "\\t"
      | '\r' => "\\r"
      | '\'' => "\\'"
      | '\\' => "\\\\"
      | c =>
        if c.toNat < 32 || c.toNat > 126 then
          let digits := Nat.toDigits 8 c.toNat
          "\\" ++ String.ofList (List.replicate (3 - digits.length) '0' ++ digits)
        else String.singleton c
    "$'" ++ String.join (s.toList.map one) ++ "'"
  else String.join (s.toList.map fun c => if safe c then String.singleton c else "\\" ++ String.singleton c)

structure PrintState where
  args : List String
  out : List Char := []
  status : Nat := 0
  /-- whether an argument has been used in this round -/
  used : Bool := false
  stopped : Bool := false

namespace PrintState

def take (s : PrintState) : String × PrintState :=
  match s.args with
  | a :: rest => (a, { s with args := rest, used := true })
  | [] => ("", s)

def put (cs : List Char) (s : PrintState) : PrintState := { s with out := s.out ++ cs }

end PrintState

/-- the integer an argument means, and whether it is one -/
def intArgument (a : String) : Int64 × Bool :=
  let cs := a.toList.dropWhile (inClass "space")
  match cs with
  | [] => (0, a.isEmpty)
  | '\'' :: c :: _ => (Int64.ofNat c.toNat, true)
  | '"' :: c :: _ => (Int64.ofNat c.toNat, true)
  | _ =>
    let (negative, body) := match cs with
      | '-' :: rest => (true, rest)
      | '+' :: rest => (false, rest)
      | _ => (false, cs)
    match Arith.numeral? body with
    | some n => (if body.contains '#' then 0 else if negative then -n else n, !body.contains '#')
    | none =>
      let digits := body.takeWhile Char.isDigit
      let n := Int64.ofNat ((String.ofList digits).toNat?.getD 0)
      (if negative then -n else n, false)

def floatArgument (a : String) : Float × Bool :=
  match Lua.readNumber? a.toList with
  | some (.int i) => (Lua.intToFloat i, true)
  | some (.float f) => (f, true)
  | none => (0.0, a.isEmpty)

/-- a width or precision that is given as an argument is filled in -/
def fillStars : Nat → List Char → PrintState → List Char × PrintState
  | 0, cs, s => (cs, s)
  | _, [], s => ([], s)
  | fuel + 1, c :: rest, s =>
    if c = '*' then
      let (a, s) := s.take
      let (more, s) := fillStars fuel rest s
      ((toString (intArgument a).1.toInt).toList ++ more, s)
    else
      let (more, s) := fillStars fuel rest s
      (c :: more, s)

/-- goes through a format once -/
def printOnce : Nat → List Char → PrintState → PrintState
  | 0, _, s => s
  | _, [], s => s
  | fuel + 1, '\\' :: rest, s =>
    match escape? false rest with
    | some (.ok (here, rest)) => printOnce fuel rest (s.put here)
    | some (.error ()) => { s with stopped := true }
    | none =>
      match rest with
      | '"' :: rest => printOnce fuel rest (s.put ['"'])
      | '\'' :: rest => printOnce fuel rest (s.put ['\''])
      | rest => printOnce fuel rest (s.put ['\\'])
  | fuel + 1, '%' :: '%' :: rest, s => printOnce fuel rest (s.put ['%'])
  | fuel + 1, '%' :: rest, s =>
    let spec := rest.takeWhile fun c => "-+ #0123456789.*".toList.contains c
    let after := (rest.drop spec.length).dropWhile fun c => "hlLjzt".toList.contains c
    match after with
    | [] => { s with status := 1, stopped := true }
    | conversion :: rest =>
      let (spec, s) := fillStars (spec.length + 1) spec s
      let kind := if conversion = 'b' || conversion = 'q' then 's' else conversion
      match Lua.Format.readDirective (spec ++ [kind]) with
      | .error _ => { s with status := 1, stopped := true }
      | .ok (d, _) =>
        let (a, s) := s.take
        let cutTo (cs : List Char) : List Char := match d.precision with
          | some n => cs.take n
          | none => cs
        if conversion = 's' then printOnce fuel rest (s.put (Lua.Format.pad d false [] (cutTo a.toList)))
        else if conversion = 'q' then
          printOnce fuel rest (s.put (Lua.Format.pad d false [] (cutTo (shellQuoted a).toList)))
        else if conversion = 'b' then
          let (cs, on) := unescape true (a.length + 1) a.toList
          let s := s.put (Lua.Format.pad d false [] (cutTo cs))
          if on then printOnce fuel rest s else { s with stopped := true }
        else if conversion = 'c' then printOnce fuel rest (s.put (Lua.Format.pad d false [] (a.toList.take 1)))
        else if "diuoxX".toList.contains conversion then
          let (n, good) := intArgument a
          let s := if good then s else { s with status := 1 }
          printOnce fuel rest (s.put (Lua.Format.intBody { d with conversion := if kind = 'u' then 'd' else kind } n))
        else if "eEfFgGaA".toList.contains conversion then
          let (f, good) := floatArgument a
          let s := if good then s else { s with status := 1 }
          printOnce fuel rest (s.put (Lua.Format.floatBody d f))
        else { s with status := 1, stopped := true }
  | fuel + 1, c :: rest, s => printOnce fuel rest (s.put [c])

/-- goes through a format as long as there are arguments -/
def printRounds (format : List Char) : Nat → PrintState → PrintState
  | 0, s => s
  | fuel + 1, s =>
    let s := printOnce (2 * format.length + 2) format { s with used := false }
    if s.stopped || s.args.isEmpty || !s.used then s else printRounds format fuel s

def printf (g : Given) : Result :=
  let args := if g.args.head? = some "--" then g.args.drop 1 else g.args
  match args with
  | [] => g.refuse 2 "usage: printf [-v var] format [arguments]"
  | format :: args =>
    let s := printRounds format.toList (args.length + 1) { args := args }
    { out := String.ofList s.out, status := s.status, used := .nothing }

/-! ## Names of files -/

def dropTrailingSlashes (s : String) : String :=
  let cs := (s.toList.reverse.dropWhile (· = '/')).reverse
  if cs.isEmpty && s.startsWith "/" then "/" else String.ofList cs

def lastName (s : String) : String :=
  let s := dropTrailingSlashes s
  if s == "/" then s else (s.splitOn "/").getLastD ""

def basename (g : Given) : Result :=
  let o := options "s" ["suffix"] g.args
  let suffix := o.value? ["s", "suffix"]
  let many := o.has ["a", "multiple"] || suffix.isSome
  let strip (suffix s : String) : String :=
    if s ≠ suffix && s.endsWith suffix then String.ofList (s.toList.take (s.length - suffix.length)) else s
  match many, o.operands with
  | _, [] => g.refuse 1 "missing operand"
  | true, names => { out := joinLines (names.map fun n => strip (suffix.getD "") (lastName n)), used := .nothing }
  | false, [n] => { out := lastName n ++ "\n", used := .nothing }
  | false, [n, suffix] => { out := strip suffix (lastName n) ++ "\n", used := .nothing }
  | false, _ :: _ :: x :: _ => g.refuse 1 ("extra operand '" ++ x ++ "'")

def directoryName (s : String) : String :=
  let s := dropTrailingSlashes s
  match (s.splitOn "/").dropLast with
  | [] => if s == "/" then "/" else "."
  | parts =>
    let d := dropTrailingSlashes (String.intercalate "/" parts)
    if d.isEmpty then "/" else d

def dirname (g : Given) : Result :=
  let o := options "" [] g.args
  if o.operands.isEmpty then g.refuse 1 "missing operand"
  else { out := joinLines (o.operands.map directoryName), used := .nothing }

/-! ## Conditions -/

/-- what conditions can ask about the outside -/
structure Asked where
  file : (op path : String) → Bool
  hasVariable : String → Bool

def compareInts (op : String) (a b : String) : Option Bool :=
  let read (s : String) : Option Int :=
    let cs := ((s.toList.dropWhile (inClass "space")).reverse.dropWhile (inClass "space")).reverse
    let cs := match cs with
      | '+' :: rest => rest
      | cs => cs
    (String.ofList cs).toInt?
  match read a, read b with
  | some x, some y =>
    match op with
    | "-eq" => some (x = y)
    | "-ne" => some (x ≠ y)
    | "-lt" => some (x < y)
    | "-le" => some (x ≤ y)
    | "-gt" => some (x > y)
    | "-ge" => some (x ≥ y)
    | _ => none
  | _, _ => none

def fileTests : List String :=
  ["-a", "-b", "-c", "-d", "-e", "-f", "-g", "-h", "-k", "-p", "-r", "-s", "-t", "-u", "-w", "-x", "-G", "-L", "-N",
   "-O", "-S"]

def testUnary (q : Asked) (op a : String) : Option Bool :=
  if op == "-n" then some !a.isEmpty
  else if op == "-z" then some a.isEmpty
  else if op == "-v" then some (q.hasVariable a)
  else if fileTests.contains op then some (q.file op a)
  else none

def testBinary (q : Asked) (op a b : String) : Option Bool :=
  match op with
  | "=" => some (a == b)
  | "==" => some (a == b)
  | "!=" => some (a != b)
  | "<" => some (a < b)
  | ">" => some (b < a)
  | "-nt" => some (q.file "-e" a && !q.file "-e" b)
  | "-ot" => some (!q.file "-e" a && q.file "-e" b)
  | "-ef" => some (a == b && q.file "-e" a)
  | op => compareInts op a b

def binaryOps : List String :=
  ["=", "==", "!=", "<", ">", "-eq", "-ne", "-lt", "-le", "-gt", "-ge", "-nt", "-ot", "-ef"]

mutual
def testOrs (q : Asked) : Nat → List String → Option (Bool × List String)
  | 0, _ => none
  | fuel + 1, args =>
    match testAnds q fuel args with
    | some (a, "-o" :: rest) => (testOrs q fuel rest).map fun (b, rest) => (a || b, rest)
    | r => r

def testAnds (q : Asked) : Nat → List String → Option (Bool × List String)
  | 0, _ => none
  | fuel + 1, args =>
    match testPrimary q fuel args with
    | some (a, "-a" :: rest) => (testAnds q fuel rest).map fun (b, rest) => (a && b, rest)
    | r => r

def testPrimary (q : Asked) : Nat → List String → Option (Bool × List String)
  | 0, _ => none
  | fuel + 1, args =>
    match args with
    | [] => none
    | a :: op :: b :: rest =>
      if binaryOps.contains op then (testBinary q op a b).map fun r => (r, rest)
      else testSimple q fuel args
    | args => testSimple q fuel args

def testSimple (q : Asked) : Nat → List String → Option (Bool × List String)
  | 0, _ => none
  | fuel + 1, args =>
    match args with
    | [] => none
    | "!" :: rest => if rest.isEmpty then some (true, []) else (testPrimary q fuel rest).map fun (a, rest) => (!a, rest)
    | "(" :: rest =>
      match testOrs q fuel rest with
      | some (a, ")" :: rest) => some (a, rest)
      | _ => none
    | a :: rest =>
      match rest with
      | b :: rest' =>
        match testUnary q a b with
        | some r => some (r, rest')
        | none => some (!a.isEmpty, rest)
      | [] => some (!a.isEmpty, [])
end

/-- evaluates a condition; nothing if it is none -/
def testArgs (q : Asked) (args : List String) : Option Bool :=
  match args with
  | [] => some false
  | [a] => some !a.isEmpty
  | ["!", a] => some a.isEmpty
  | [op, a] => testUnary q op a
  | [a, op, b] =>
    if binaryOps.contains op then testBinary q op a b
    else if op == "-a" then some (!a.isEmpty && !b.isEmpty)
    else if op == "-o" then some (!a.isEmpty || !b.isEmpty)
    else if a == "!" then (testUnary q op b).map (!·)
    else if a == "(" && b == ")" then some !op.isEmpty
    else none
  | args =>
    match testOrs q (4 * args.length + 4) args with
    | some (r, []) => some r
    | _ => none

/-! ## Computing -/

/-- an integer as it is written -/
def plainInt? (s : String) : Option Int := if s == "-" then none else s.toInt?

mutual
def exprOr : Nat → List String → Except String (String × List String)
  | 0, _ => .error "syntax error"
  | fuel + 1, args => do
    let (a, rest) ← exprAnd fuel args
    exprOrTail fuel a rest

def exprOrTail : Nat → String → List String → Except String (String × List String)
  | 0, _, _ => .error "syntax error"
  | fuel + 1, a, rest =>
    match rest with
    | "|" :: more => do
      let (b, rest) ← exprAnd fuel more
      let none_ (s : String) : Bool := s.isEmpty || s == "0"
      exprOrTail fuel (if !none_ a then a else if !none_ b then b else "0") rest
    | rest => .ok (a, rest)

def exprAnd : Nat → List String → Except String (String × List String)
  | 0, _ => .error "syntax error"
  | fuel + 1, args => do
    let (a, rest) ← exprCompare fuel args
    exprAndTail fuel a rest

def exprAndTail : Nat → String → List String → Except String (String × List String)
  | 0, _, _ => .error "syntax error"
  | fuel + 1, a, rest =>
    match rest with
    | "&" :: more => do
      let (b, rest) ← exprCompare fuel more
      let none_ (s : String) : Bool := s.isEmpty || s == "0"
      exprAndTail fuel (if none_ a || none_ b then "0" else a) rest
    | rest => .ok (a, rest)

def exprCompare : Nat → List String → Except String (String × List String)
  | 0, _ => .error "syntax error"
  | fuel + 1, args => do
    let (a, rest) ← exprSum fuel args
    match rest with
    | op :: more =>
      if ["<", "<=", "=", "==", "!=", ">=", ">"].contains op then
        let (b, rest) ← exprSum fuel more
        let o := match plainInt? a, plainInt? b with
          | some x, some y => compare x y
          | _, _ => compare a b
        let r : Bool := match op with
          | "<" => o == .lt
          | "<=" => o != .gt
          | ">" => o == .gt
          | ">=" => o != .lt
          | "!=" => o != .eq
          | _ => o == .eq
        return (if r then "1" else "0", rest)
      else return (a, rest)
    | [] => return (a, rest)

def exprSum : Nat → List String → Except String (String × List String)
  | 0, _ => .error "syntax error"
  | fuel + 1, args => do
    let (a, rest) ← exprProduct fuel args
    exprSumTail fuel a rest

def exprSumTail : Nat → String → List String → Except String (String × List String)
  | 0, _, _ => .error "syntax error"
  | fuel + 1, a, rest =>
    match rest with
    | op :: more =>
      if op == "+" || op == "-" then do
        let (b, rest) ← exprProduct fuel more
        match plainInt? a, plainInt? b with
        | some x, some y => exprSumTail fuel (toString (if op == "+" then x + y else x - y)) rest
        | _, _ => throw "non-integer argument"
      else .ok (a, rest)
    | [] => .ok (a, rest)

def exprProduct : Nat → List String → Except String (String × List String)
  | 0, _ => .error "syntax error"
  | fuel + 1, args => do
    let (a, rest) ← exprMatch fuel args
    exprProductTail fuel a rest

def exprProductTail : Nat → String → List String → Except String (String × List String)
  | 0, _, _ => .error "syntax error"
  | fuel + 1, a, rest =>
    match rest with
    | op :: more =>
      if op == "*" || op == "/" || op == "%" then do
        let (b, rest) ← exprMatch fuel more
        match plainInt? a, plainInt? b with
        | some x, some y =>
          if op ≠ "*" && y = 0 then throw "division by zero"
          let r := if op == "*" then x * y else if op == "/" then Int.tdiv x y else Int.tmod x y
          exprProductTail fuel (toString r) rest
        | _, _ => throw "non-integer argument"
      else .ok (a, rest)
    | [] => .ok (a, rest)

def exprMatch : Nat → List String → Except String (String × List String)
  | 0, _ => .error "syntax error"
  | fuel + 1, args => do
    let (a, rest) ← exprPrimary fuel args
    match rest with
    | ":" :: more =>
      let (b, rest) ← exprPrimary fuel more
      return (← matchResult a b, rest)
    | rest => return (a, rest)

def exprPrimary : Nat → List String → Except String (String × List String)
  | 0, _ => .error "syntax error"
  | fuel + 1, args =>
    match args with
    | [] => .error "missing operand"
    | "(" :: rest => do
      let (a, rest) ← exprOr fuel rest
      match rest with
      | ")" :: rest => return (a, rest)
      | _ => throw "syntax error: expecting ')'"
    | "length" :: s :: rest => .ok (toString s.length, rest)
    | "match" :: s :: p :: rest => do return (← matchResult s p, rest)
    | "index" :: s :: t :: rest =>
      .ok (toString (((s.toList.findIdx? fun c => t.toList.contains c).map (· + 1)).getD 0), rest)
    | "substr" :: s :: i :: n :: rest =>
      let part := match plainInt? i, plainInt? n with
        | some i, some n => if i < 1 || n < 1 then "" else String.ofList ((s.toList.drop (i.toNat - 1)).take n.toNat)
        | _, _ => ""
      .ok (part, rest)
    | "+" :: s :: rest => .ok (s, rest)
    | s :: rest => .ok (s, rest)

/-- what a match at the beginning of a text gives: its first group, or its length -/
def matchResult (s p : String) : Except String String := do
  let r ← Regex.parse false p.toList
  let text := s.toList.toArray
  let grouped := (p.splitOn "\\(").length > 1
  match Regex.matchFrom { text := text, fold := false } (40 * (text.size + 100)) r 0 (Array.replicate 10 none) with
  | some (j, groups) => return if grouped then String.ofList (Regex.groupText text groups 1) else toString j
  | none => return if grouped then "" else "0"
end

def expr (g : Given) : Result :=
  match exprOr (20 * g.args.length + 20) g.args with
  | .error e => g.refuse 2 e
  | .ok (v, []) =>
    { out := v ++ "\n", status := if v.isEmpty || v == "0" then 1 else 0, used := .nothing }
  | .ok (_, x :: _) => g.refuse 2 ("syntax error: unexpected argument '" ++ x ++ "'")

/-! ## Bytes in other ways of writing -/

def base64Digits : List Char :=
  (charRange 'A' 'Z') ++ (charRange 'a' 'z') ++ (charRange '0' '9') ++ ['+', '/']

def encode64 : List Char → List Char
  | [] => []
  | [a] => digits a.toNat 0 0 2 ++ ['=', '=']
  | [a, b] => digits a.toNat b.toNat 0 3 ++ ['=']
  | a :: b :: c :: rest => digits a.toNat b.toNat c.toNat 4 ++ encode64 rest
where
  digits (a b c n : Nat) : List Char :=
    let v := a * 65536 + b * 256 + c
    ([v / 262144, v / 4096 % 64, v / 64 % 64, v % 64].take n).map fun d => base64Digits.getD d 'A'

def decode64 (cs : List Char) : List Char :=
  let values := (cs.filter (· ≠ '=')).filterMap fun c => base64Digits.findIdx? (· = c)
  let rec go : List Nat → List Char
    | a :: b :: c :: d :: rest =>
      [a * 4 + b / 16, b % 16 * 16 + c / 4, c % 4 * 64 + d].map Char.ofNat ++ go rest
    | [a, b, c] => [a * 4 + b / 16, b % 16 * 16 + c / 4].map Char.ofNat
    | [a, b] => [a * 4 + b / 16].map Char.ofNat
    | _ => []
  go values

def base64 (g : Given) : Result :=
  let o := options "w" ["wrap"] g.args
  let i := inputs g o.operands
  if o.has ["d", "D", "decode"] then i.result (String.ofList (decode64 i.all.toList)) 0
  else
    let width := ((o.value? ["w", "wrap"]).bind String.toNat?).getD 76
    let cs := encode64 i.all.toList
    let rec rows : Nat → List Char → List String
      | 0, _ => []
      | fuel + 1, cs => if cs.isEmpty then [] else String.ofList (cs.take width) :: rows fuel (cs.drop width)
    i.result (if width = 0 then String.ofList cs else joinLines (rows (cs.length + 1) cs)) 0

def padZero (width : Nat) (cs : List Char) : List Char := List.replicate (width - cs.length) '0' ++ cs

/-- pieces of a length -/
def chunksOf {α : Type} (n : Nat) : Nat → List α → List (List α)
  | 0, _ => []
  | fuel + 1, xs => if xs.isEmpty then [] else xs.take n :: chunksOf n fuel (xs.drop n)

/-- the name of a byte in a dump of characters -/
def dumpName (c : Char) : String :=
  match c.toNat with
  | 0 => "\\0"
  | 7 => "\\a"
  | 8 => "\\b"
  | 9 => "\\t"
  | 10 => "\\n"
  | 11 => "\\v"
  | 12 => "\\f"
  | 13 => "\\r"
  | n => if 32 ≤ n && n < 127 then String.singleton c else String.ofList (padZero 3 (Nat.toDigits 8 n))

def od (g : Given) : Result :=
  let o := options "AtNjw" ["address-radix", "format", "read-bytes", "skip-bytes", "width"] g.args
  let i := inputs g o.operands
  let text := i.all.toList.drop (((o.value? ["j", "skip-bytes"]).bind String.toNat?).getD 0)
  let text := match (o.value? ["N", "read-bytes"]).bind String.toNat? with
    | some n => text.take n
    | none => text
  let type := if o.has ["c"] then "c" else if o.has ["b"] then "o1" else if o.has ["x"] then "x2"
    else if o.has ["d"] then "u2" else (o.value? ["t", "format"]).getD "o2"
  let kind := type.toList.headD 'o'
  let size := ((String.ofList ((type.toList.drop 1).filter Char.isDigit)).toNat?).getD
    (if kind = 'c' || kind = 'a' then 1 else if type.length = 1 then 4 else 1)
  let radix := (o.value? ["A", "address-radix"]).getD "o"
  let address (n : Nat) : String :=
    match radix with
    | "n" => ""
    | "d" => String.ofList (padZero 7 (toString n).toList)
    | "x" => String.ofList (padZero 6 (Nat.toDigits 16 n))
    | _ => String.ofList (padZero 7 (Nat.toDigits 8 n))
  let unit (cs : List Char) : String :=
    let n := (cs.reverse.foldl (fun n c => n * 256 + c.toNat) 0 : Nat)
    match kind with
    | 'c' => padLeft 4 (dumpName (cs.headD ' '))
    | 'a' => padLeft 4 (dumpName (cs.headD ' '))
    | 'x' => " " ++ String.ofList (padZero (2 * size) (Nat.toDigits 16 n))
    | 'd' => padLeft (if size = 1 then 5 else if size = 2 then 7 else 12)
        (toString (if n ≥ Nat.pow 2 (8 * size - 1) then (n : Int) - Int.pow 2 (8 * size) else n))
    | 'u' => padLeft (if size = 1 then 4 else if size = 2 then 6 else 11) (toString n)
    | _ => " " ++ String.ofList (padZero (if size = 1 then 3 else if size = 2 then 6 else 11) (Nat.toDigits 8 n))
  let width := ((o.value? ["w", "width"]).bind String.toNat?).getD 16
  let rows := (chunksOf width (text.length + 1) text).zipIdx.map fun (row, k) =>
    address (k * width) ++ String.join ((chunksOf size (row.length + 1) row).map unit)
  i.result (joinLines (rows ++ if radix == "n" then [] else [address text.length])) 0

end Gleaner.Shell.Tools
