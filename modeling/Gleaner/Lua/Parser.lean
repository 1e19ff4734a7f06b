/-
From words to programs.

Operators are read by how tightly they bind. Programs that could never run right are refused here: marks on variables
that there are not, assignments to constants, jumps to labels that cannot be seen, and breaks outside loops.
-/
import Gleaner.Lua.Lexer

namespace Gleaner.Lua

/-- variables in scope, the innermost first, with whether they are constant -/
abbrev Scope := List (String × Bool)

structure ParserState where
  words : List Lexeme
  line : Nat := 1
  /-- in a function with variable arguments -/
  vararg : Bool := true
  inLoop : Bool := false
  scope : Scope := []

abbrev Parse := StateT ParserState (Except SyntaxError)

namespace Parse

def current : Parse Word := do
  match (← get).words with
  | l :: _ => return l.word
  | [] => return .eof

/-- the line of the word that comes next -/
def currentLine : Parse Nat := do
  match (← get).words with
  | l :: _ => return l.line
  | [] => return (← get).line

def fail {α : Type} (text : String) : Parse α := do throw ⟨← currentLine, text⟩

def skip : Parse Unit :=
  modify fun s =>
    match s.words with
    | l :: rest => { s with words := rest, line := l.line }
    | [] => s

def isSign (w : Word) (s : String) : Bool :=
  match w with
  | .sign t => t == s
  | _ => false

def isKeyword (w : Word) (s : String) : Bool :=
  match w with
  | .keyword t => t == s
  | _ => false

/-- takes a sign if it comes next -/
def sign? (s : String) : Parse Bool := do
  if isSign (← current) s then skip; return true else return false

def keyword? (s : String) : Parse Bool := do
  if isKeyword (← current) s then skip; return true else return false

def sign (s : String) : Parse Unit := do
  if !(← sign? s) then fail ("'" ++ s ++ "' expected")

def keyword (s : String) : Parse Unit := do
  if !(← keyword? s) then fail ("'" ++ s ++ "' expected")

def name : Parse String := do
  match ← current with
  | .name s => skip; return s
  | _ => fail "<name> expected"

/-- runs a part whose variables go out of scope behind it -/
def inScope {α : Type} (p : Parse α) : Parse α := do
  let before := (← get).scope
  let a ← p
  modify fun s => { s with scope := before }
  return a

def declare (names : List (String × Bool)) : Parse Unit :=
  modify fun s => { s with scope := names.reverse ++ s.scope }

/-- runs the body of a loop -/
def looped {α : Type} (p : Parse α) : Parse α := do
  let before := (← get).inLoop
  modify fun s => { s with inLoop := true }
  let a ← p
  modify fun s => { s with inLoop := before }
  return a

def binOp? (w : Word) : Option BinOp :=
  match w with
  | .sign s =>
    match s with
    | "+" => some .add
    | "-" => some .sub
    | "*" => some .mul
    | "/" => some .div
    | "//" => some .idiv
    | "%" => some .mod
    | "^" => some .pow
    | ".." => some .concat
    | "==" => some .eq
    | "~=" => some .ne
    | "<" => some .lt
    | "<=" => some .le
    | ">" => some .gt
    | ">=" => some .ge
    | "&" => some .bitAnd
    | "|" => some .bitOr
    | "~" => some .bitXor
    | "<<" => some .shl
    | ">>" => some .shr
    | _ => none
  | _ => none

def unOp? (w : Word) : Option UnOp :=
  match w with
  | .keyword "not" => some .lnot
  | .sign "-" => some .neg
  | .sign "#" => some .len
  | .sign "~" => some .bitNot
  | _ => none

/-- an operator between two expressions -/
inductive Connective where
  | op (o : BinOp)
  | both
  | either

def connective? (w : Word) : Option Connective :=
  match w with
  | .keyword "and" => some .both
  | .keyword "or" => some .either
  | w => (binOp? w).map .op

def Connective.priority : Connective → Nat × Nat
  | .op o => o.priority
  | .both => (andPriority, andPriority)
  | .either => (orPriority, orPriority)

/-- the most constructs that may stand inside one another -/
def maxDepth : Nat := 195

/-- words behind which a block ends -/
def endsBlock (w : Word) : Bool :=
  match w with
  | .eof => true
  | .keyword s => s == "end" || s == "else" || s == "elseif" || s == "until"
  | _ => false

/-- a negative numeral is one number -/
def foldNegative (line : Nat) (op : UnOp) (e : Expr) : Expr :=
  match op, e with
  | .neg, .int i => .int (-i)
  | .neg, .float f => .float (-f)
  | op, e => .un line op e

/-- whether an expression may stand left of an equals sign -/
def isTarget : Expr → Bool
  | .name _ _ => true
  | .index _ _ _ => true
  | _ => false

def isCall : Expr → Bool
  | .call _ _ _ => true
  | .method _ _ _ _ => true
  | _ => false

/-- whether the innermost variable of a name is constant -/
def isConstant (scope : Scope) (n : String) : Bool := (scope.find? (·.1 == n)).any (·.2)

def checkTarget (e : Expr) : Parse Unit := do
  match e with
  | .name _ n =>
    if isConstant (← get).scope n then fail ("attempt to assign to const variable '" ++ n ++ "'")
  | _ => if !isTarget e then fail "syntax error"

mutual
/-- an expression whose operators bind tighter than `limit` -/
def expr : Nat → (depth limit : Nat) → Parse Expr
  | 0, _, _ => fail "chunk has too many syntax levels"
  | fuel + 1, depth, limit => do
    if depth ≥ maxDepth then fail "C stack overflow"
    let line ← currentLine
    let left ← match unOp? (← current) with
      | some op => do
        skip
        let e ← expr fuel (depth + 1) unaryPriority
        pure (foldNegative line op e)
      | none => simple fuel depth
    connectives fuel depth limit left

/-- operators behind an expression -/
def connectives : Nat → (depth limit : Nat) → Expr → Parse Expr
  | 0, _, _, _ => fail "chunk has too many syntax levels"
  | fuel + 1, depth, limit, left => do
    match connective? (← current) with
    | none => return left
    | some op =>
      let (l, r) := op.priority
      if l ≤ limit then return left
      let line ← currentLine
      skip
      let right ← expr fuel (depth + 1) r
      let e := match op with
        | .op o => .bin line o left right
        | .both => .both left right
        | .either => .either left right
      connectives fuel depth limit e

def simple : Nat → (depth : Nat) → Parse Expr
  | 0, _ => fail "chunk has too many syntax levels"
  | fuel + 1, depth => do
    match ← current with
    | .int i => skip; return .int i
    | .float f => skip; return .float f
    | .text s => skip; return .text s
    | .keyword "nil" => skip; return .nil
    | .keyword "true" => skip; return .bool true
    | .keyword "false" => skip; return .bool false
    | .keyword "function" =>
      let line ← currentLine
      skip
      return .func (← funcBody fuel depth line false)
    | .sign "..." =>
      if !(← get).vararg then fail "cannot use '...' outside a vararg function"
      skip
      return .vararg
    | .sign "\x7b" => tableFields fuel depth
    | _ => suffixed fuel depth

/-- a name or an expression in parentheses, and what is done to it -/
def suffixed : Nat → (depth : Nat) → Parse Expr
  | 0, _ => fail "chunk has too many syntax levels"
  | fuel + 1, depth => do
    let line ← currentLine
    match ← current with
    | .name n => do
      skip
      suffixes fuel depth (.name line n)
    | .sign "(" => do
      skip
      let e ← expr fuel (depth + 1) 0
      sign ")"
      suffixes fuel depth (.paren e)
    | _ => fail "unexpected symbol"

def suffixes : Nat → (depth : Nat) → Expr → Parse Expr
  | 0, _, _ => fail "chunk has too many syntax levels"
  | fuel + 1, depth, e => do
    let line ← currentLine
    match ← current with
    | .sign "." => do
      skip
      let n ← name
      suffixes fuel depth (.index line e (.text (ofText n)))
    | .sign "[" => do
      skip
      let key ← expr fuel (depth + 1) 0
      sign "]"
      suffixes fuel depth (.index line e key)
    | .sign ":" => do
      skip
      let n ← name
      let args ← arguments fuel depth
      suffixes fuel depth (.method line e n args)
    | .sign "(" | .sign "\x7b" | .text _ => do
      let args ← arguments fuel depth
      suffixes fuel depth (.call line e args)
    | _ => return e

def arguments : Nat → (depth : Nat) → Parse (List Expr)
  | 0, _ => fail "chunk has too many syntax levels"
  | fuel + 1, depth => do
    match ← current with
    | .text s => skip; return [.text s]
    | .sign "\x7b" => return [← tableFields fuel depth]
    | .sign "(" => do
      skip
      if ← sign? ")" then return []
      let args ← exprs fuel depth
      sign ")"
      return args
    | _ => fail "function arguments expected"

/-- expressions with commas between them -/
def exprs : Nat → (depth : Nat) → Parse (List Expr)
  | 0, _ => fail "chunk has too many syntax levels"
  | fuel + 1, depth => do
    let e ← expr fuel (depth + 1) 0
    if ← sign? "," then return e :: (← exprs fuel depth) else return [e]

def tableFields : Nat → (depth : Nat) → Parse Expr
  | 0, _ => fail "chunk has too many syntax levels"
  | fuel + 1, depth => do
    let line ← currentLine
    sign "\x7b"
    return .table line (← fieldsFrom fuel depth)

def fieldsFrom : Nat → (depth : Nat) → Parse (List Field)
  | 0, _ => fail "chunk has too many syntax levels"
  | fuel + 1, depth => do
    if ← sign? "\x7d" then return []
    let field ← match ← current with
      | .sign "[" => do
        skip
        let key ← expr fuel (depth + 1) 0
        sign "]"
        sign "="
        pure (Field.named key (← expr fuel (depth + 1) 0))
      | .name n => do
        let before ← get
        skip
        if ← sign? "=" then pure (Field.named (.text (ofText n)) (← expr fuel (depth + 1) 0))
        else do
          set before
          pure (Field.item (← expr fuel (depth + 1) 0))
      | _ => do pure (Field.item (← expr fuel (depth + 1) 0))
    if (← sign? ",") || (← sign? ";") then return field :: (← fieldsFrom fuel depth)
    sign "\x7d"
    return [field]

/-- a function behind its keyword or name; a method has the parameter `self` -/
def funcBody : Nat → (depth line : Nat) → (isMethod : Bool) → Parse FuncBody
  | 0, _, _, _ => fail "chunk has too many syntax levels"
  | fuel + 1, depth, line, isMethod => do
    if depth ≥ maxDepth then fail "C stack overflow"
    sign "("
    let (params, isVararg) ← parameters fuel
    let params := if isMethod then "self" :: params else params
    let before ← get
    set { before with vararg := isVararg, inLoop := false }
    declare (params.map fun p => (p, false))
    let body ← blockFrom fuel (depth + 1)
    keyword "end"
    modify fun s => { s with vararg := before.vararg, inLoop := before.inLoop, scope := before.scope }
    return .mk line params isVararg body

/-- names of parameters up to the closing parenthesis -/
def parameters : Nat → Parse (List String × Bool)
  | 0 => fail "chunk has too many syntax levels"
  | fuel + 1 => do
    if ← sign? ")" then return ([], false)
    if ← sign? "..." then
      sign ")"
      return ([], true)
    let n ← name
    if ← sign? "," then
      if isSign (← current) ")" then fail "<name> expected"
      let (more, isVararg) ← parameters fuel
      return (n :: more, isVararg)
    sign ")"
    return ([n], false)

/-- statements up to a word that ends a block -/
def blockFrom : Nat → (depth : Nat) → Parse (List Stat)
  | 0, _ => fail "chunk has too many syntax levels"
  | fuel + 1, depth => do
    if endsBlock (← current) then return []
    if ← sign? ";" then return ← blockFrom fuel depth
    let line ← currentLine
    if ← keyword? "return" then
      let values ← if endsBlock (← current) || isSign (← current) ";" then pure [] else exprs fuel depth
      let _ ← sign? ";"
      if !endsBlock (← current) then fail "<eof> expected"
      return [.return_ line values]
    let s ← stat fuel (depth + 1)
    return s :: (← blockFrom fuel depth)

/-- a block with a scope of its own -/
def block : Nat → (depth : Nat) → Parse (List Stat)
  | 0, _ => fail "chunk has too many syntax levels"
  | fuel + 1, depth => inScope (blockFrom fuel depth)

def branches : Nat → (depth : Nat) → Parse (List (Expr × List Stat) × List Stat)
  | 0, _ => fail "chunk has too many syntax levels"
  | fuel + 1, depth => do
    let cond ← expr fuel depth 0
    keyword "then"
    let body ← block fuel depth
    if ← keyword? "elseif" then
      let (more, otherwise) ← branches fuel depth
      return ((cond, body) :: more, otherwise)
    let otherwise ← if ← keyword? "else" then block fuel depth else pure []
    keyword "end"
    return ([(cond, body)], otherwise)

/-- names of local variables with their marks -/
def attribNames : Nat → Parse (List (String × Attrib))
  | 0 => fail "chunk has too many syntax levels"
  | fuel + 1 => do
    let n ← name
    let a ← if ← sign? "<" then do
        let mark ← name
        sign ">"
        match mark with
        | "const" => pure Attrib.const
        | "close" => pure Attrib.close
        | _ => fail ("unknown attribute '" ++ mark ++ "'")
      else pure Attrib.regular
    if ← sign? "," then return (n, a) :: (← attribNames fuel) else return [(n, a)]

/-- targets of an assignment behind the first -/
def moreTargets : Nat → (depth : Nat) → Parse (List Expr)
  | 0, _ => fail "chunk has too many syntax levels"
  | fuel + 1, depth => do
    if ← sign? "," then
      let e ← suffixed fuel depth
      checkTarget e
      return e :: (← moreTargets fuel depth)
    return []

/-- the name of a function that is defined: fields by dots, at most one method -/
def funcName : Nat → Expr → Parse (Expr × Bool)
  | 0, _ => fail "chunk has too many syntax levels"
  | fuel + 1, e => do
    let line ← currentLine
    if ← sign? "." then
      let n ← name
      funcName fuel (.index line e (.text (ofText n)))
    else if ← sign? ":" then
      let n ← name
      return (.index line e (.text (ofText n)), true)
    else return (e, false)

def forNames : Nat → Parse (List String)
  | 0 => fail "chunk has too many syntax levels"
  | fuel + 1 => do
    let n ← name
    if ← sign? "," then return n :: (← forNames fuel) else return [n]

def stat : Nat → (depth : Nat) → Parse Stat
  | 0, _ => fail "chunk has too many syntax levels"
  | fuel + 1, depth => do
    if depth ≥ maxDepth then fail "C stack overflow"
    let line ← currentLine
    match ← current with
    | .keyword "if" => do
      skip
      let (bs, otherwise) ← branches fuel depth
      return .if_ bs otherwise
    | .keyword "while" => do
      skip
      let cond ← expr fuel depth 0
      keyword "do"
      let body ← looped (block fuel depth)
      keyword "end"
      return .while_ cond body
    | .keyword "do" => do
      skip
      let body ← block fuel depth
      keyword "end"
      return .block body
    | .keyword "for" => do
      skip
      let names ← forNames fuel
      match names with
      | [var] =>
        if ← sign? "=" then
          let start ← expr fuel depth 0
          sign ","
          let limit ← expr fuel depth 0
          let step ← if ← sign? "," then (some <$> expr fuel depth 0) else pure none
          keyword "do"
          let body ← looped (inScope do declare [(var, false)]; blockFrom fuel depth)
          keyword "end"
          return .forNum line var start limit step body
      | _ => pure ()
      if !(← keyword? "in") then fail "'=' or 'in' expected"
      let values ← exprs fuel depth
      keyword "do"
      let body ← looped (inScope do declare (names.map fun n => (n, false)); blockFrom fuel depth)
      keyword "end"
      return .forIn line names values body
    | .keyword "repeat" => do
      skip
      inScope do
        let body ← looped (blockFrom fuel depth)
        keyword "until"
        let cond ← expr fuel depth 0
        return .repeat_ body cond
    | .keyword "function" => do
      skip
      let n ← name
      let (target, isMethod) ← funcName fuel (.name line n)
      checkTarget target
      let body ← funcBody fuel depth line isMethod
      return .assign line [target] [.func body]
    | .keyword "local" => do
      skip
      if ← keyword? "function" then
        let n ← name
        declare [(n, false)]
        return .localFunc n (← funcBody fuel depth line false)
      let names ← attribNames fuel
      if (names.filter (·.2 = .close)).length > 1 then fail "multiple to-be-closed variables in local list"
      let values ← if ← sign? "=" then exprs fuel depth else pure []
      declare (names.map fun (n, a) => (n, a ≠ .regular))
      return .locals line names values
    | .sign "::" => do
      skip
      let n ← name
      sign "::"
      return .label n
    | .keyword "break" => do
      if !(← get).inLoop then fail "break outside a loop"
      skip
      return .break_
    | .keyword "goto" => do
      skip
      return .goto_ (← name)
    | _ => do
      let e ← suffixed fuel depth
      if isSign (← current) "=" || isSign (← current) "," then
        checkTarget e
        let more ← moreTargets fuel depth
        sign "="
        return .assign line (e :: more) (← exprs fuel depth)
      if isCall e then return .call e
      fail "syntax error"
end

/-! ## Labels -/

def labelsOf (body : List Stat) : List String :=
  body.filterMap fun
    | .label n => some n
    | _ => none

/-- whether nothing but labels is left of a block -/
def onlyLabels (body : List Stat) : Bool :=
  body.all fun
    | .label _ => true
    | _ => false

/-- the labels a jump may go to from one of the statements: not into the scope of a variable, unless nothing but labels
follows there -/
def visibleLabels (atEnd : Bool) : List Stat → List String
  | [] => []
  | .label n :: rest => n :: visibleLabels atEnd rest
  | .locals _ _ _ :: rest => if atEnd then trailing rest else []
  | .localFunc _ _ :: rest => if atEnd then trailing rest else []
  | _ :: rest => visibleLabels atEnd rest
where
  /-- labels at the end of a block -/
  trailing (rest : List Stat) : List String :=
    labelsOf ((rest.reverse.takeWhile fun s => onlyLabels [s]).reverse)

def duplicateLabel? (outer labels : List String) : Option String :=
  match labels with
  | [] => none
  | n :: rest => if outer.contains n || rest.contains n then some n else duplicateLabel? outer rest

mutual
/-- checks the jumps of a block; `seen` are the labels of the blocks around it that can be jumped to, `outer` all labels
of the function around it -/
def checkJumps : Nat → (atEnd : Bool) → (seen outer : List String) → List Stat → Bool
  | 0, _, _, _, _ => true
  | fuel + 1, atEnd, seen, outer, body =>
    let labels := labelsOf body
    (duplicateLabel? outer labels).isNone &&
      checkStats fuel atEnd seen (labels ++ outer) [] body

/-- `before` are the labels of the block before these statements -/
def checkStats : Nat → (atEnd : Bool) → (seen outer before : List String) → List Stat → Bool
  | 0, _, _, _, _, _ => true
  | _ + 1, _, _, _, _, [] => true
  | fuel + 1, atEnd, seen, outer, before, s :: rest =>
    let here := visibleLabels atEnd rest ++ before ++ seen
    let inner := checkJumps fuel true here outer
    (match s with
      | .goto_ n => here.contains n
      | .block b => inner b
      | .while_ _ b => inner b
      | .repeat_ b _ => checkJumps fuel false here outer b
      | .forNum _ _ _ _ _ b => inner b
      | .forIn _ _ _ b => inner b
      | .if_ bs otherwise => (bs.all fun (_, b) => inner b) && inner otherwise
      | _ => true) &&
    checkStats fuel atEnd seen outer (match s with | .label n => n :: before | _ => before) rest
end

mutual
/-- the bodies of all functions in an expression -/
def functionsOf : Nat → Expr → List (List Stat)
  | 0, _ => []
  | fuel + 1, e =>
    match e with
    | .func (.mk _ _ _ body) => body :: functionsIn fuel body
    | .index _ a b => functionsOf fuel a ++ functionsOf fuel b
    | .call _ f args => functionsOf fuel f ++ args.flatMap (functionsOf fuel)
    | .method _ o _ args => functionsOf fuel o ++ args.flatMap (functionsOf fuel)
    | .paren a => functionsOf fuel a
    | .bin _ _ a b => functionsOf fuel a ++ functionsOf fuel b
    | .un _ _ a => functionsOf fuel a
    | .both a b => functionsOf fuel a ++ functionsOf fuel b
    | .either a b => functionsOf fuel a ++ functionsOf fuel b
    | .table _ fields => fields.flatMap fun
      | .item v => functionsOf fuel v
      | .named k v => functionsOf fuel k ++ functionsOf fuel v
    | _ => []

/-- the bodies of all functions in statements -/
def functionsIn : Nat → List Stat → List (List Stat)
  | 0, _ => []
  | fuel + 1, body =>
    body.flatMap fun
      | .assign _ ts vs => ts.flatMap (functionsOf fuel) ++ vs.flatMap (functionsOf fuel)
      | .locals _ _ vs => vs.flatMap (functionsOf fuel)
      | .localFunc _ (.mk _ _ _ b) => b :: functionsIn fuel b
      | .call e => functionsOf fuel e
      | .block b => functionsIn fuel b
      | .while_ c b => functionsOf fuel c ++ functionsIn fuel b
      | .repeat_ b c => functionsIn fuel b ++ functionsOf fuel c
      | .if_ bs o => bs.flatMap (fun (c, b) => functionsOf fuel c ++ functionsIn fuel b) ++ functionsIn fuel o
      | .forNum _ _ a b c body =>
        functionsOf fuel a ++ functionsOf fuel b ++ (c.map (functionsOf fuel)).getD [] ++ functionsIn fuel body
      | .forIn _ _ vs b => vs.flatMap (functionsOf fuel) ++ functionsIn fuel b
      | .return_ _ vs => vs.flatMap (functionsOf fuel)
      | _ => []
end

/-- a whole program -/
def chunk (fuel : Nat) : Parse (List Stat) := do
  let body ← blockFrom fuel 1
  match ← current with
  | .eof => pure ()
  | _ => fail "<eof> expected"
  if !((body :: functionsIn 1000 body).all (checkJumps 1000 true [] [])) then fail "no visible label for goto"
  return body

end Parse

/-- the program that some bytes write -/
def parse (code : List Char) : Except SyntaxError FuncBody := do
  let ws ← words code
  let (body, _) ← (Parse.chunk (8 * ws.length + 100)).run { words := ws }
  return .mk 0 [] true body

end Gleaner.Lua
