/-
Programs of the tool that works on records and fields: what they are and how they are read.
-/
import Gleaner.Lua.Number
import Gleaner.Shell.PosixRegex
import Gleaner.Shell.Tools.Lines

namespace Gleaner.Shell.Tools.Awk

inductive Expr where
  | num (f : Float)
  | str (s : String)
  | regex (r : List Regex)
  | field (e : Expr)
  | var (name : String)
  | item (name : String) (keys : List Expr)
  | assign (op : String) (target value : Expr)
  /-- adds to a variable; the value is the one before or the one after -/
  | step (target : Expr) (by_ : Float) (before : Bool)
  | choose (a b c : Expr)
  | bin (op : String) (a b : Expr)
  | both (a b : Expr)
  | either (a b : Expr)
  | not (a : Expr)
  | neg (a : Expr)
  | plus (a : Expr)
  | matches_ (negated : Bool) (a r : Expr)
  | isIn (keys : List Expr) (name : String)
  | call (name : String) (args : List Expr)
  | getline (target : Option Expr) (file : Option Expr)
  | group (e : Expr)
  deriving Inhabited

inductive Stmt where
  | expr (e : Expr)
  | print (args : List Expr) (target : Option Expr)
  | printf (args : List Expr) (target : Option Expr)
  | if_ (cond : Expr) (yes no : Stmt)
  | while_ (cond : Expr) (body : Stmt)
  | doWhile (body : Stmt) (cond : Expr)
  | for_ (init : Stmt) (cond : Option Expr) (step body : Stmt)
  | forIn (var name : String) (body : Stmt)
  | block (body : List Stmt)
  | next
  | exit (status : Option Expr)
  | break_
  | continue_
  | return_ (value : Option Expr)
  | delete (name : String) (keys : List Expr)
  deriving Inhabited

inductive Pattern where
  | begin
  | end_
  | always
  | when (e : Expr)
  | between (a b : Expr)

structure Function where
  name : String
  params : List String
  body : Stmt

structure Program where
  rules : List (Pattern × Stmt) := []
  functions : List Function := []

/-! ## Words -/

inductive Token where
  | num (f : Float)
  | str (s : String)
  | regex (s : List Char)
  | name (s : String)
  /-- a name with a parenthesis right behind it -/
  | called (s : String)
  | sign (s : String)
  | keyword (s : String)
  | newline
  deriving Inhabited

def keywords : List String :=
  ["BEGIN", "END", "function", "func", "if", "else", "while", "for", "do", "break", "continue", "next", "exit",
   "return", "delete", "in", "getline", "print", "printf"]

def builtins : List String :=
  ["length", "substr", "index", "split", "sub", "gsub", "match", "sprintf", "tolower", "toupper", "int", "sqrt", "exp",
   "log", "sin", "cos", "atan2", "rand", "srand", "system", "close", "fflush"]

def signs : List String :=
  ["**=", "&&", "||", "==", "!=", "<=", ">=", "++", "--", "+=", "-=", "*=", "/=", "%=", "^=", "**", ">>", "!~", "+",
   "-", "*", "/", "%", "^", "<", ">", "=", "!", "~", "?", ":", ",", "(", ")", "[", "]", "\x7b", "\x7d", "$", ";", "|"]

/-- whether a slash behind a token divides -/
def dividesAfter : Option Token → Bool
  | some (.num _) => true
  | some (.str _) => true
  | some (.name _) => true
  | some (.sign s) => s == ")" || s == "]" || s == "++" || s == "--"
  | _ => false

/-- a text up to its quote -/
def quoted : List Char → List Char → Option (String × List Char)
  | _, [] => none
  | acc, '"' :: rest => some (String.ofList acc.reverse, rest)
  | acc, '\\' :: c :: rest =>
    match c with
    | '/' => quoted ('/' :: acc) rest
    | '"' => quoted ('"' :: acc) rest
    | '\n' => quoted acc rest
    | c =>
      if "ntrabfv\\01234567".toList.contains c then
        let digits := ((c :: rest).takeWhile fun d => '0' ≤ d && d ≤ '7').take 3
        if digits.length > 1 then
          -- an escape of several digits
          match digits, rest with
          | [a, b], _ :: rest => quoted (Char.ofNat ((a.toNat - 48) * 8 + (b.toNat - 48)) :: acc) rest
          | [a, b, d], _ :: _ :: rest =>
            quoted (Char.ofNat (((a.toNat - 48) * 64 + (b.toNat - 48) * 8 + (d.toNat - 48)) % 256) :: acc) rest
          | _, rest => quoted acc rest
        else quoted ((trEscape [c]).1 :: acc) rest
      else quoted (c :: '\\' :: acc) rest
  | acc, c :: rest => quoted (c :: acc) rest

/-- an expression between slashes -/
def slashed : Bool → List Char → List Char → Option (List Char × List Char)
  | _, _, [] => none
  | inSet, acc, '\\' :: c :: rest => slashed inSet (if c = '/' then '/' :: acc else c :: '\\' :: acc) rest
  | inSet, acc, c :: rest =>
    if c = '/' && !inSet then some (acc.reverse, rest)
    else if c = '[' then slashed true (c :: acc) rest
    else if c = ']' then slashed false (c :: acc) rest
    else slashed inSet (c :: acc) rest

def numeralLength (cs : List Char) : Nat :=
  let whole := (cs.takeWhile Char.isDigit).length
  let rest := cs.drop whole
  let part := match rest with
    | '.' :: more => (more.takeWhile Char.isDigit).length + 1
    | _ => 0
  let n := whole + part
  match cs.drop n with
  | e :: more =>
    if e = 'e' || e = 'E' then
      let sign := if more.head? = some '-' || more.head? = some '+' then 1 else 0
      let digits := ((more.drop sign).takeWhile Char.isDigit).length
      if digits > 0 then n + 1 + sign + digits else n
    else n
  | [] => n

/-- the number a text starts with, and how many characters it has -/
def leadingFloat (cs : List Char) : Float × Nat :=
  let blanks := (cs.takeWhile (inClass "space")).length
  let rest := cs.drop blanks
  let (negative, signed) := match rest with
    | '-' :: _ => (true, 1)
    | '+' :: _ => (false, 1)
    | _ => (false, 0)
  let body := rest.drop signed
  let n := numeralLength body
  if !(body.take n).any Char.isDigit then (0.0, 0)
  else
    let f := match Lua.readNumeral? (body.take n) with
      | some (.int i) => Lua.intToFloat i
      | some (.float f) => f
      | none => 0.0
    (if negative then -f else f, blanks + signed + n)

def isNamePart (c : Char) : Bool := c.isAlphanum || c = '_'

def tokensFrom : Nat → List Token → List Char → Except String (List Token)
  | 0, acc, _ => .ok acc.reverse
  | _, acc, [] => .ok acc.reverse
  | fuel + 1, acc, c :: rest =>
    if c = ' ' || c = '\t' || c = '\r' then tokensFrom fuel acc rest
    else if c = '\n' then tokensFrom fuel (.newline :: acc) rest
    else if c = '\\' && rest.head? = some '\n' then tokensFrom fuel acc (rest.drop 1)
    else if c = '#' then tokensFrom fuel acc (rest.dropWhile (· ≠ '\n'))
    else if c = '"' then
      match quoted [] rest with
      | some (s, rest) => tokensFrom fuel (.str s :: acc) rest
      | none => .error "unterminated string"
    else if c = '/' && !dividesAfter acc.head? then
      match slashed false [] rest with
      | some (s, rest) => tokensFrom fuel (.regex s :: acc) rest
      | none => .error "unterminated regexp"
    else if c.isDigit || (c = '.' && rest.head?.any Char.isDigit) then
      let n := numeralLength (c :: rest)
      tokensFrom fuel (.num (leadingFloat ((c :: rest).take n)).1 :: acc) ((c :: rest).drop n)
    else if c.isAlpha || c = '_' then
      let name := (c :: rest).takeWhile isNamePart
      let after := (c :: rest).drop name.length
      let s := String.ofList name
      let token := if keywords.contains s then Token.keyword s
        else if after.head? = some '(' || builtins.contains s then .called s
        else .name s
      tokensFrom fuel (token :: acc) after
    else
      match signs.find? fun s => s.toList.isPrefixOf (c :: rest) with
      | some s =>
        let s' := if s == "**" then "^" else if s == "**=" then "^=" else s
        tokensFrom fuel (.sign s' :: acc) ((c :: rest).drop s.length)
      | none => .error ("unexpected character '" ++ String.singleton c ++ "'")

/-! ## Reading programs -/

abbrev Read := StateT (List Token) (Except String)

def peek : Read (Option Token) := return (← get).head?

def skip : Read Unit := modify (·.drop 1)

def isSign (t : Option Token) (s : String) : Bool :=
  match t with
  | some (.sign u) => u == s
  | _ => false

def isKeyword (t : Option Token) (s : String) : Bool :=
  match t with
  | some (.keyword u) => u == s
  | _ => false

def sign? (s : String) : Read Bool := do
  if isSign (← peek) s then skip; return true else return false

def sign (s : String) : Read Unit := do
  if !(← sign? s) then throw ("syntax error: '" ++ s ++ "' expected")

def keyword? (s : String) : Read Bool := do
  if isKeyword (← peek) s then skip; return true else return false

def skipNewlines : Read Unit :=
  modify (·.dropWhile fun
    | .newline => true
    | _ => false)

/-- goes over ends of lines and semicolons -/
def skipEnds : Read Unit :=
  modify (·.dropWhile fun
    | .newline => true
    | .sign s => s == ";"
    | _ => false)

def isTarget : Expr → Bool
  | .var _ => true
  | .item _ _ => true
  | .field _ => true
  | _ => false

/-- whether a token can start another part of a text that is put together -/
def startsOperand : Option Token → Bool
  | some (.num _) => true
  | some (.str _) => true
  | some (.regex _) => true
  | some (.name _) => true
  | some (.called _) => true
  | some (.sign s) => s == "$" || s == "!" || s == "(" || s == "-" || s == "+" || s == "++" || s == "--"
  | _ => false

def comparisons : List String := ["<", "<=", "==", "!=", ">=", ">"]

/-- what is allowed where an expression stands: `in`, and a sign that could be a redirection -/
structure Place where
  noIn : Bool := false
  noGreater : Bool := false

mutual
def expr (p : Place) : Nat → Read Expr
  | 0 => throw "program too deep"
  | fuel + 1 => do
    let a ← ternary p fuel
    match ← peek with
    | some (.sign s) =>
      if isTarget a && ["=", "+=", "-=", "*=", "/=", "%=", "^="].contains s then
        skip
        skipNewlines
        return .assign s a (← expr p fuel)
      else return a
    | _ => return a

def ternary (p : Place) : Nat → Read Expr
  | 0 => throw "program too deep"
  | fuel + 1 => do
    let a ← orExpr p fuel
    if ← sign? "?" then
      skipNewlines
      let b ← expr p fuel
      skipNewlines
      sign ":"
      skipNewlines
      return .choose a b (← expr p fuel)
    else return a

def orExpr (p : Place) : Nat → Read Expr
  | 0 => throw "program too deep"
  | fuel + 1 => do
    let a ← andExpr p fuel
    if ← sign? "||" then
      skipNewlines
      return .either a (← orExpr p fuel)
    else return a

def andExpr (p : Place) : Nat → Read Expr
  | 0 => throw "program too deep"
  | fuel + 1 => do
    let a ← membership p fuel
    if ← sign? "&&" then
      skipNewlines
      return .both a (← andExpr p fuel)
    else return a

def membership (p : Place) : Nat → Read Expr
  | 0 => throw "program too deep"
  | fuel + 1 => do
    let a ← matching p fuel
    membershipTail p fuel a

def membershipTail (p : Place) : Nat → Expr → Read Expr
  | 0, _ => throw "program too deep"
  | fuel + 1, a => do
    if p.noIn then return a
    if ← keyword? "in" then
      match ← peek with
      | some (.name n) => skip; membershipTail p fuel (.isIn [a] n)
      | _ => throw "syntax error at 'in'"
    else return a

def matching (p : Place) : Nat → Read Expr
  | 0 => throw "program too deep"
  | fuel + 1 => do
    let a ← comparison p fuel
    if ← sign? "~" then return .matches_ false a (← comparison p fuel)
    else if ← sign? "!~" then return .matches_ true a (← comparison p fuel)
    else return a

def comparison (p : Place) : Nat → Read Expr
  | 0 => throw "program too deep"
  | fuel + 1 => do
    let a ← concatenation p fuel
    match ← peek with
    | some (.sign s) =>
      if comparisons.contains s && !(p.noGreater && s == ">") then
        skip
        return .bin s a (← concatenation p fuel)
      else return a
    | _ => return a

def concatenation (p : Place) : Nat → Read Expr
  | 0 => throw "program too deep"
  | fuel + 1 => do
    let a ← additive p fuel
    concatenationTail p fuel a

def concatenationTail (p : Place) : Nat → Expr → Read Expr
  | 0, _ => throw "program too deep"
  | fuel + 1, a => do
    let t ← peek
    if startsOperand t && !isSign t "+" && !isSign t "-" then
      concatenationTail p fuel (.bin " " a (← additive p fuel))
    else return a

def additive (p : Place) : Nat → Read Expr
  | 0 => throw "program too deep"
  | fuel + 1 => do
    let a ← multiplicative p fuel
    additiveTail p fuel a

def additiveTail (p : Place) : Nat → Expr → Read Expr
  | 0, _ => throw "program too deep"
  | fuel + 1, a => do
    if ← sign? "+" then additiveTail p fuel (.bin "+" a (← multiplicative p fuel))
    else if ← sign? "-" then additiveTail p fuel (.bin "-" a (← multiplicative p fuel))
    else return a

def multiplicative (p : Place) : Nat → Read Expr
  | 0 => throw "program too deep"
  | fuel + 1 => do
    let a ← unary p fuel
    multiplicativeTail p fuel a

def multiplicativeTail (p : Place) : Nat → Expr → Read Expr
  | 0, _ => throw "program too deep"
  | fuel + 1, a => do
    if ← sign? "*" then multiplicativeTail p fuel (.bin "*" a (← unary p fuel))
    else if ← sign? "/" then multiplicativeTail p fuel (.bin "/" a (← unary p fuel))
    else if ← sign? "%" then multiplicativeTail p fuel (.bin "%" a (← unary p fuel))
    else return a

def unary (p : Place) : Nat → Read Expr
  | 0 => throw "program too deep"
  | fuel + 1 => do
    if ← sign? "!" then return .not (← unary p fuel)
    else if ← sign? "-" then return .neg (← unary p fuel)
    else if ← sign? "+" then return .plus (← unary p fuel)
    else power p fuel

def power (p : Place) : Nat → Read Expr
  | 0 => throw "program too deep"
  | fuel + 1 => do
    let a ← postfixed p fuel
    if ← sign? "^" then return .bin "^" a (← unaryPower p fuel) else return a

def unaryPower (p : Place) : Nat → Read Expr
  | 0 => throw "program too deep"
  | fuel + 1 => do
    if ← sign? "-" then return .neg (← unaryPower p fuel)
    else if ← sign? "+" then unaryPower p fuel
    else power p fuel

def postfixed (p : Place) : Nat → Read Expr
  | 0 => throw "program too deep"
  | fuel + 1 => do
    let a ← primary p fuel
    if !isTarget a then return a
    else if ← sign? "++" then return .step a 1.0 true
    else if ← sign? "--" then return .step a (-1.0) true
    else return a

def primary (p : Place) : Nat → Read Expr
  | 0 => throw "program too deep"
  | fuel + 1 => do
    match ← peek with
    | some (.num f) => skip; return .num f
    | some (.str s) => skip; return .str s
    | some (.regex s) =>
      skip
      return .regex (← Regex.parse true s)
    | some (.name n) =>
      skip
      if ← sign? "[" then
        let keys ← exprList {} fuel
        sign "]"
        return .item n keys
      else return .var n
    | some (.called n) =>
      skip
      if ← sign? "(" then
        skipNewlines
        let args ← if isSign (← peek) ")" then pure [] else exprList {} fuel
        skipNewlines
        sign ")"
        return .call n args
      else return .call n []
    | some (.sign "$") => skip; return .field (← fieldOperand p fuel)
    | some (.sign "++") => skip; return .step (← primary p fuel) 1.0 false
    | some (.sign "--") => skip; return .step (← primary p fuel) (-1.0) false
    | some (.sign "(") =>
      skip
      skipNewlines
      let es ← exprList {} fuel
      skipNewlines
      sign ")"
      match es with
      | [e] => return .group e
      | es =>
        if ← keyword? "in" then
          match ← peek with
          | some (.name n) => skip; return .isIn es n
          | _ => throw "syntax error at 'in'"
        else throw "syntax error: list of expressions"
    | some (.sign "-") => skip; return .neg (← unary p fuel)
    | some (.sign "!") => skip; return .not (← unary p fuel)
    | some (.keyword "getline") =>
      skip
      let target ← match ← peek with
        | some (.name _) => (primary p fuel).map some
        | some (.sign "$") => (primary p fuel).map some
        | _ => pure none
      if ← sign? "<" then return .getline target (some (← primary p fuel)) else return .getline target none
    | _ => throw "syntax error"

/-- what a dollar sign is put before -/
def fieldOperand (p : Place) : Nat → Read Expr
  | 0 => throw "program too deep"
  | fuel + 1 => do
    if ← sign? "++" then return .step (← primary p fuel) 1.0 false
    else if ← sign? "--" then return .step (← primary p fuel) (-1.0) false
    else if ← sign? "-" then return .neg (← primary p fuel)
    else primary p fuel

def exprList (p : Place) : Nat → Read (List Expr)
  | 0 => throw "program too deep"
  | fuel + 1 => do
    let a ← expr p fuel
    skipListNewlines
    if ← sign? "," then
      skipNewlines
      return a :: (← exprList p fuel)
    else return [a]

/-- goes over ends of lines in front of a comma or a parenthesis -/
def skipListNewlines : Read Unit := do
  let rest := (← get).dropWhile fun
    | .newline => true
    | _ => false
  if isSign rest.head? "," then set rest
end

/-- whether a simple statement ends here -/
def endsSimple : Read Bool := do
  match ← peek with
  | none => return true
  | some .newline => return true
  | some (.sign s) => return s == ";" || s == "\x7d" || s == ">" || s == ">>" || s == "|"
  | some _ => return false

/-- the arguments of `print` and where they go -/
def outputParts (fuel : Nat) : Read (List Expr × Option Expr) := do
  let before ← get
  let plain : Read (List Expr) := do
    if ← endsSimple then return [] else exprList { noGreater := true } fuel
  let args ← if isSign before.head? "(" then do
      -- a list in parentheses, unless the parentheses are only the beginning of an expression
      let bracketed : Read (List Expr) := do
        skip
        let es ← exprList {} fuel
        sign ")"
        if ← endsSimple then return es else throw "not a list"
      match bracketed.run before with
      | .ok (es, rest) => do
        set rest
        pure es
      | .error _ => plain
    else plain
  if (← sign? ">") || (← sign? ">>") || (← sign? "|") then
    return (args, some (← concatenation { noGreater := true } fuel))
  else return (args, none)

mutual
def simple : Nat → Read Stmt
  | 0 => throw "program too deep"
  | fuel + 1 => do
    if ← keyword? "print" then
      let (args, target) ← outputParts fuel
      return .print args target
    else if ← keyword? "printf" then
      let (args, target) ← outputParts fuel
      return .printf args target
    else if ← keyword? "delete" then
      match ← peek with
      | some (.name n) =>
        skip
        if ← sign? "[" then
          let keys ← exprList {} fuel
          sign "]"
          return .delete n keys
        else return .delete n []
      | _ => throw "syntax error at 'delete'"
    else return .expr (← expr {} fuel)

def stmt : Nat → Read Stmt
  | 0 => throw "program too deep"
  | fuel + 1 => do
    let finish (s : Stmt) : Read Stmt := do
      match ← peek with
      | some .newline => skip; return s
      | some (.sign ";") => skip; return s
      | some (.sign "\x7d") => return s
      | none => return s
      | _ => throw "syntax error"
    if ← sign? "\x7b" then
      let body ← stmts fuel
      sign "\x7d"
      return .block body
    else if ← sign? ";" then return .block []
    else if ← keyword? "if" then
      sign "("
      let cond ← expr {} fuel
      sign ")"
      skipNewlines
      let yes ← stmt fuel
      let before ← get
      skipEnds
      if ← keyword? "else" then
        skipNewlines
        return .if_ cond yes (← stmt fuel)
      else
        set before
        return .if_ cond yes (.block [])
    else if ← keyword? "while" then
      sign "("
      let cond ← expr {} fuel
      sign ")"
      if ← sign? ";" then return .while_ cond (.block [])
      skipNewlines
      return .while_ cond (← stmt fuel)
    else if ← keyword? "do" then
      skipNewlines
      let body ← stmt fuel
      skipEnds
      if !(← keyword? "while") then throw "syntax error: 'while' expected"
      sign "("
      let cond ← expr {} fuel
      sign ")"
      finish (.doWhile body cond)
    else if ← keyword? "for" then
      sign "("
      match ← get with
      | .name v :: .keyword "in" :: .name a :: .sign ")" :: rest =>
        set rest
        skipNewlines
        return .forIn v a (← stmt fuel)
      | _ =>
        let init ← if isSign (← peek) ";" then pure (.block []) else simple fuel
        sign ";"
        skipNewlines
        let cond ← if isSign (← peek) ";" then pure none else (expr {} fuel).map some
        sign ";"
        skipNewlines
        let step ← if isSign (← peek) ")" then pure (.block []) else simple fuel
        sign ")"
        if ← sign? ";" then return .for_ init cond step (.block [])
        skipNewlines
        return .for_ init cond step (← stmt fuel)
    else if ← keyword? "next" then finish .next
    else if ← keyword? "break" then finish .break_
    else if ← keyword? "continue" then finish .continue_
    else if ← keyword? "exit" then
      if ← endsSimple then finish (.exit none) else finish (.exit (some (← expr {} fuel)))
    else if ← keyword? "return" then
      if ← endsSimple then finish (.return_ none) else finish (.return_ (some (← expr {} fuel)))
    else finish (← simple fuel)

def stmts : Nat → Read (List Stmt)
  | 0 => throw "program too deep"
  | fuel + 1 => do
    skipEnds
    if isSign (← peek) "\x7d" || (← peek).isNone then return []
    let s ← stmt fuel
    return s :: (← stmts fuel)
end

def params : Nat → Read (List String)
  | 0 => return []
  | fuel + 1 => do
    skipNewlines
    match ← peek with
    | some (.name n) =>
      skip
      let _ ← sign? ","
      return n :: (← params fuel)
    | _ => return []

def program (fuel : Nat) : Nat → Program → Read Program
  | 0, p => return p
  | more + 1, p => do
    skipEnds
    let body : Read Stmt := do
      if ← sign? "\x7b" then
        let b ← stmts fuel
        sign "\x7d"
        return .block b
      else return .print [] none
    let rule (pat : Pattern) : Read Program := do
      let b ← body
      program fuel more { p with rules := p.rules ++ [(pat, b)] }
    match ← peek with
    | none => return p
    | some (.keyword "BEGIN") => skip; rule .begin
    | some (.keyword "END") => skip; rule .end_
    | some (.keyword s) =>
      if s != "function" && s != "func" then throw "syntax error"
      skip
      let name ← match ← peek with
        | some (.name n) => skip; pure n
        | some (.called n) => skip; pure n
        | _ => throw "syntax error: name of function expected"
      sign "("
      let names ← params fuel
      skipNewlines
      sign ")"
      skipNewlines
      let b ← body
      program fuel more { p with functions := p.functions ++ [⟨name, names, b⟩] }
    | some (.sign "\x7b") => rule .always
    | some _ =>
      let a ← expr {} fuel
      if ← sign? "," then
        skipNewlines
        let b ← expr {} fuel
        rule (.between a b)
      else rule (.when a)

def parse (text : String) : Except String Program := do
  let tokens ← tokensFrom (text.length + 1) [] text.toList
  let fuel := 20 * tokens.length + 100
  let (p, _) ← (program fuel (tokens.length + 1) {}).run tokens
  return p

end Gleaner.Shell.Tools.Awk
