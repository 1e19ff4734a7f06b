/-
Reading shell programs.

A program is read command by command, up to the end of a line at least, so that what stands in front of a mistake is
run before the mistake is found. `nextCommand` reads one. The text of a here document is taken out of the program when
its operator is read.
-/
import Gleaner.Shell.Syntax

namespace Gleaner.Shell

/-- what is wrong with a program -/
inductive SyntaxFault where
  | unexpected
  | unterminated
  deriving DecidableEq

abbrev Parse := StateT (List Char) (Except SyntaxFault)

namespace Parse

/-! ## Characters -/

def isBlank (c : Char) : Bool := c = ' ' || c = '\t'

/-- ends a word unless it is quoted -/
def isMeta (c : Char) : Bool := isBlank c || "\n;&|<>()".toList.contains c

def isNameStart (c : Char) : Bool := c.isAlpha || c = '_'

def isNamePart (c : Char) : Bool := c.isAlphanum || c = '_'

def isName (w : List Char) : Bool :=
  match w with
  | c :: rest => isNameStart c && rest.all isNamePart
  | [] => false

/-! ## Quotes and what is nested in words -/

/-- a part of the text and the rest behind it -/
abbrev Part := Except SyntaxFault (List Char × List Char)

/-- goes on to a single quote; the part is kept in reverse -/
def singleQuoted (acc : List Char) : List Char → Part
  | [] => .error .unterminated
  | '\'' :: rest => .ok ('\'' :: acc, rest)
  | c :: rest => singleQuoted (c :: acc) rest

/-- goes on to a single quote that is not escaped -/
def dollarQuoted (acc : List Char) : List Char → Part
  | [] => .error .unterminated
  | '\\' :: c :: rest => dollarQuoted (c :: '\\' :: acc) rest
  | '\'' :: rest => .ok ('\'' :: acc, rest)
  | c :: rest => dollarQuoted (c :: acc) rest

/-- goes on to a backquote -/
def backQuoted (acc : List Char) : List Char → Part
  | [] => .error .unterminated
  | '\\' :: c :: rest => backQuoted (c :: '\\' :: acc) rest
  | '`' :: rest => .ok ('`' :: acc, rest)
  | c :: rest => backQuoted (c :: acc) rest

/-- whether a text starts with a word -/
def startsWord (w : String) (cs : List Char) : Bool :=
  w.toList.isPrefixOf cs && ((cs.drop w.length).head?.all isMeta)

/-- what ends a nested part -/
inductive Closer where
  | quote
  | brace
  /-- a number of parentheses still open, and of cases whose patterns end with one -/
  | paren (open_ cases : Nat)
  deriving DecidableEq

/-- goes on to the end of a nested part, over the parts nested in it. `fresh` says that a word may start here. -/
def nested : Nat → Closer → (fresh : Bool) → List Char → List Char → Part
  | 0, _, _, _, _ => .error .unterminated
  | _, _, _, _, [] => .error .unterminated
  | fuel + 1, closer, fresh, acc, c :: rest => do
    let next (c : Char) : Bool := isMeta c || c = '`'
    match c, rest with
    | '\\', d :: rest => nested fuel closer false (d :: '\\' :: acc) rest
    | '"', _ =>
      if closer = .quote then return ('"' :: acc, rest)
      else
        let (acc, rest) ← nested fuel .quote false ('"' :: acc) rest
        nested fuel closer false acc rest
    | '`', _ =>
      let (acc, rest) ← backQuoted ('`' :: acc) rest
      nested fuel closer false acc rest
    | '$', '(' :: rest =>
      let (acc, rest) ← nested fuel (.paren 1 0) true ('(' :: '$' :: acc) rest
      nested fuel closer false acc rest
    | '$', '\x7b' :: rest =>
      let (acc, rest) ← nested fuel .brace false ('\x7b' :: '$' :: acc) rest
      nested fuel closer false acc rest
    | '$', '\'' :: tail =>
      if closer = .quote then nested fuel closer false ('$' :: acc) rest
      else
        let (acc, rest) ← dollarQuoted ('\'' :: '$' :: acc) tail
        nested fuel closer false acc rest
    | '\'', _ =>
      if closer = .quote then nested fuel closer false ('\'' :: acc) rest
      else
        let (acc, rest) ← singleQuoted ('\'' :: acc) rest
        nested fuel closer false acc rest
    | c, rest =>
      match closer with
      | .quote => nested fuel closer false (c :: acc) rest
      | .brace => if c = '\x7d' then return (c :: acc, rest) else nested fuel closer false (c :: acc) rest
      | .paren n cases =>
        if fresh && c = '#' then
          nested fuel closer false (((c :: rest).takeWhile (· ≠ '\n')).reverse ++ acc) (rest.dropWhile (· ≠ '\n'))
        else if fresh && startsWord "case" (c :: rest) then
          nested fuel (.paren n (cases + 1)) false ("case".toList.reverse ++ acc) (rest.drop 3)
        else if fresh && startsWord "esac" (c :: rest) then
          nested fuel (.paren n (cases - 1)) false ("esac".toList.reverse ++ acc) (rest.drop 3)
        else if c = '(' then nested fuel (.paren (n + 1) cases) true (c :: acc) rest
        else if c = ')' then
          if n = 1 && cases = 0 then return (c :: acc, rest)
          else if n = 1 then nested fuel closer true (c :: acc) rest
          else nested fuel (.paren (n - 1) cases) true (c :: acc) rest
        else nested fuel closer (next c) (c :: acc) rest

/-- whether a word so far is a name with an assignment sign -/
def awaitsArray (acc : List Char) : Bool :=
  match acc with
  | '=' :: '+' :: name => isName name.reverse
  | '=' :: name => isName name.reverse
  | _ => false

/-- reads a word in reverse. In `patterns`, parentheses behind some signs belong to it. -/
def wordFrom (patterns : Bool) : Nat → List Char → List Char → Part
  | 0, _, _ => .error .unterminated
  | fuel + 1, acc, cs => do
    let inner (closer : Closer) (opened : List Char) (rest : List Char) : Part :=
      nested (rest.length + 1) closer true (opened ++ acc) rest
    match cs with
    | [] => return (acc, [])
    | '\\' :: '\n' :: rest => wordFrom patterns fuel acc rest
    | '\\' :: c :: rest => wordFrom patterns fuel (c :: '\\' :: acc) rest
    | '\'' :: rest =>
      let (acc, rest) ← singleQuoted ('\'' :: acc) rest
      wordFrom patterns fuel acc rest
    | '"' :: rest =>
      let (acc, rest) ← inner .quote ['"'] rest
      wordFrom patterns fuel acc rest
    | '`' :: rest =>
      let (acc, rest) ← backQuoted ('`' :: acc) rest
      wordFrom patterns fuel acc rest
    | '$' :: '\'' :: rest =>
      let (acc, rest) ← dollarQuoted ('\'' :: '$' :: acc) rest
      wordFrom patterns fuel acc rest
    | '$' :: '(' :: rest =>
      let (acc, rest) ← inner (.paren 1 0) ['(', '$'] rest
      wordFrom patterns fuel acc rest
    | '$' :: '\x7b' :: rest =>
      let (acc, rest) ← inner .brace ['\x7b', '$'] rest
      wordFrom patterns fuel acc rest
    | '<' :: '(' :: rest =>
      if acc.isEmpty then
        let (acc, rest) ← inner (.paren 1 0) ['(', '<'] rest
        wordFrom patterns fuel acc rest
      else return (acc, cs)
    | '(' :: rest =>
      let opens := awaitsArray acc || (patterns && acc.head?.any ("?*+@!".toList.contains ·))
      if opens then
        let (acc, rest) ← inner (.paren 1 0) ['('] rest
        wordFrom patterns fuel acc rest
      else return (acc, cs)
    | c :: rest => if isMeta c then return (acc, cs) else wordFrom patterns fuel (c :: acc) rest

/-! ## Blanks and signs -/

/-- goes over blanks, joined lines and remarks -/
def skipBlanks : Parse Unit :=
  modify fun cs =>
    let rec go : Nat → List Char → List Char
      | 0, cs => cs
      | fuel + 1, cs =>
        match cs with
        | '\\' :: '\n' :: rest => go fuel rest
        | '#' :: rest => rest.dropWhile (· ≠ '\n')
        | c :: rest => if isBlank c then go fuel rest else cs
        | [] => []
    go (cs.length + 1) cs

/-- goes over blanks and ends of lines -/
def skipLines : Parse Unit := do
  let n := (← get).length
  let rec go : Nat → Parse Unit
    | 0 => return
    | fuel + 1 => do
      skipBlanks
      match ← get with
      | '\n' :: rest => set rest; go fuel
      | _ => return
  go (n + 1)

def unexpected {α : Type} : Parse α := throw .unexpected

def atEnd : Parse Bool := return (← get).isEmpty

/-- takes a sign if the text goes on with it -/
def sign? (s : String) : Parse Bool := do
  skipBlanks
  let cs ← get
  if s.toList.isPrefixOf cs then set (cs.drop s.length); return true else return false

/-- whether the text goes on with a sign -/
def peek (s : String) : Parse Bool := do
  skipBlanks
  return s.toList.isPrefixOf (← get)

def sign (s : String) : Parse Unit := do
  if !(← sign? s) then unexpected

/-- whether the text goes on with a word that is reserved -/
def peekWord (w : String) : Parse Bool := do
  skipBlanks
  return startsWord w (← get)

def word? (w : String) : Parse Bool := do
  if ← peekWord w then modify (·.drop w.length); return true else return false

/-- takes a reserved word behind any ends of lines -/
def keyword (w : String) : Parse Unit := do
  skipLines
  if !(← word? w) then if ← atEnd then throw .unterminated else unexpected

/-- reads a word; nothing if there is none -/
def anyWord (patterns : Bool) : Parse Word := do
  skipBlanks
  let cs ← get
  let (acc, rest) ← wordFrom patterns (cs.length + 1) [] cs
  set rest
  return acc.reverse

def aWord : Parse Word := do
  let w ← anyWord false
  if w.isEmpty then unexpected else return w

/-- words that cannot start a command -/
def reserved : List String :=
  ["then", "else", "elif", "fi", "do", "done", "esac", "in", "\x7d"]

/-- whether a list of commands ends here -/
def endsList : Parse Bool := do
  if ← atEnd then return true
  if (← peek ")") || (← peek ";;") || (← peek ";&") then return true
  reserved.anyM peekWord

/-! ## Redirections -/

/-- a word without its quotes, as the end of a here document is written -/
def plainWord : Word → List Char
  | '\\' :: c :: rest => c :: plainWord rest
  | '\'' :: rest => plainWord rest
  | '"' :: rest => plainWord rest
  | c :: rest => c :: plainWord rest
  | [] => []

/-- the lines of a here document, and what follows it -/
def hereLines (strip : Bool) (stop : List Char) : Nat → List Char → List Char → List Char × List Char
  | 0, acc, cs => (acc, cs)
  | fuel + 1, acc, cs =>
    if cs.isEmpty then (acc, [])
    else
      let line := cs.takeWhile (· ≠ '\n')
      let rest := (cs.dropWhile (· ≠ '\n')).drop 1
      let line := if strip then line.dropWhile (· = '\t') else line
      if line = stop then (acc, rest) else hereLines strip stop fuel (acc ++ line ++ ['\n']) rest

/-- takes the text of a here document out of the lines that follow -/
def hereText (strip : Bool) (stop : List Char) : Parse (List Char) := do
  let cs ← get
  let here := cs.takeWhile (· ≠ '\n')
  let (text, rest) := hereLines strip stop (cs.length + 1) [] ((cs.dropWhile (· ≠ '\n')).drop 1)
  set (here ++ '\n' :: rest)
  return text

/-- the signs of redirections, the longer ones first -/
def redirectSigns : List (String × RedirectKind) :=
  [("<<<", .hereWord), ("<&", .dupIn), ("<>", .readWrite), (">>", .append), (">&", .dupOut), (">|", .write),
   ("<", .read), (">", .write)]

/-- a number right before a redirection -/
def redirectNumber? (cs : List Char) : Option (Nat × List Char) :=
  let digits := cs.takeWhile Char.isDigit
  let rest := cs.drop digits.length
  if digits.isEmpty || !(rest.head?.any fun c => c = '<' || c = '>') then none
  else (String.ofList digits).toNat?.map fun n => (n, rest)

def redirect? : Parse (Option Redirect) := do
  skipBlanks
  if ← sign? "&>>" then return some ⟨none, .both true, ← aWord⟩
  if ← sign? "&>" then return some ⟨none, .both false, ← aWord⟩
  let cs ← get
  let (fd, rest) := match redirectNumber? cs with
    | some (n, rest) => (some n, rest)
    | none => (none, cs)
  if "<(".toList.isPrefixOf rest || ">(".toList.isPrefixOf rest then return none
  if "<<".toList.isPrefixOf rest && !"<<<".toList.isPrefixOf rest then
    set (rest.drop 2)
    let strip ← sign? "-"
    let stop ← aWord
    let verbatim := stop.any fun c => c = '\'' || c = '"' || c = '\\'
    let text ← hereText strip (plainWord stop)
    return some ⟨fd, .here verbatim, text⟩
  match redirectSigns.find? fun (s, _) => s.toList.isPrefixOf rest with
  | none => return none
  | some (s, kind) =>
    set (rest.drop s.length)
    return some ⟨fd, kind, ← aWord⟩

def redirects : Nat → Parse (List Redirect)
  | 0 => return []
  | fuel + 1 => do
    match ← redirect? with
    | none => return []
    | some r => return r :: (← redirects fuel)

def withRedirects (c : Command) : Parse Command := do
  match ← redirects ((← get).length + 1) with
  | [] => return c
  | rs => return .redirected c rs

/-! ## Simple commands -/

/-- whether a word assigns to a variable -/
def isAssignment (w : Word) : Bool :=
  let name := w.takeWhile isNamePart
  let rest := w.drop name.length
  let rest := match rest with
    | '[' :: inside => ((inside.dropWhile (· ≠ ']')).drop 1)
    | rest => rest
  isName name && (rest.head? = some '=' || rest.take 2 = ['+', '='])

structure Simple where
  assigns : List Word := []
  words : List Word := []
  redirects : List Redirect := []

/-- the parts of a simple command -/
def simpleParts : Nat → Simple → Parse Simple
  | 0, s => return s
  | fuel + 1, s => do
    match ← redirect? with
    | some r => simpleParts fuel { s with redirects := s.redirects ++ [r] }
    | none =>
      let w ← anyWord false
      if w.isEmpty then return s
      else if s.words.isEmpty && isAssignment w then simpleParts fuel { s with assigns := s.assigns ++ [w] }
      else simpleParts fuel { s with words := s.words ++ [w] }

/-! ## Conditions in double brackets -/

def unaryTests : List String :=
  ["-a", "-b", "-c", "-d", "-e", "-f", "-g", "-h", "-k", "-n", "-o", "-p", "-r", "-s", "-t", "-u", "-v", "-w", "-x",
   "-z", "-G", "-L", "-N", "-O", "-R", "-S"]

def binaryTests : List String :=
  ["=", "==", "!=", "=~", "-eq", "-ne", "-lt", "-le", "-gt", "-ge", "-nt", "-ot", "-ef"]

/-- the right side of a match with a regular expression; parentheses and bars belong to it -/
def regexWord : Nat → (depth : Nat) → List Char → List Char → Part
  | 0, _, _, _ => .error .unterminated
  | fuel + 1, depth, acc, cs => do
    match cs with
    | [] => return (acc, [])
    | '\\' :: c :: rest => regexWord fuel depth (c :: '\\' :: acc) rest
    | '\'' :: rest =>
      let (acc, rest) ← singleQuoted ('\'' :: acc) rest
      regexWord fuel depth acc rest
    | '"' :: rest =>
      let (acc, rest) ← nested (rest.length + 1) .quote false ('"' :: acc) rest
      regexWord fuel depth acc rest
    | '$' :: '\x7b' :: rest =>
      let (acc, rest) ← nested (rest.length + 1) .brace false ('\x7b' :: '$' :: acc) rest
      regexWord fuel depth acc rest
    | c :: rest =>
      if c = '(' then regexWord fuel (depth + 1) (c :: acc) rest
      else if c = ')' && depth > 0 then regexWord fuel (depth - 1) (c :: acc) rest
      else if depth = 0 && (isBlank c || c = '\n') then return (acc, cs)
      else regexWord fuel depth (c :: acc) rest

mutual
def testOr : Nat → Parse Test
  | 0 => throw .unterminated
  | fuel + 1 => do
    let a ← testAnd fuel
    skipLines
    if ← sign? "||" then skipLines; return .either a (← testOr fuel) else return a

def testAnd : Nat → Parse Test
  | 0 => throw .unterminated
  | fuel + 1 => do
    let a ← testOne fuel
    skipLines
    if ← sign? "&&" then skipLines; return .both a (← testAnd fuel) else return a

def testOne : Nat → Parse Test
  | 0 => throw .unterminated
  | fuel + 1 => do
    skipLines
    if ← word? "!" then return .not (← testOne fuel)
    else if ← sign? "(" then
      let t ← testOr fuel
      skipLines
      sign ")"
      return t
    else
      let a ← anyWord true
      if a.isEmpty then unexpected
      let op := String.ofList a
      if unaryTests.contains op && !(← peekWord "]]") then
        let other := (← get)
        let w ← anyWord true
        if w.isEmpty then set other; return .word a else return .unary op w
      else if ← sign? "<" then return .binary "<" a (← anyWord true)
      else if (← peek ">") then sign ">"; return .binary ">" a (← anyWord true)
      else if ← peekWord "]]" then return .word a
      else if (← peek "&&") || (← peek "||") || (← peek ")") || (← peek "\n") then return .word a
      else
        let op := String.ofList (← anyWord true)
        if op == "=~" then
          skipBlanks
          let cs ← get
          let (acc, rest) ← regexWord (cs.length + 1) 0 [] cs
          set rest
          return .binary op a acc.reverse
        else if binaryTests.contains op then return .binary op a (← anyWord true)
        else unexpected
end

/-! ## Commands -/

/-- the text up to two closing parentheses -/
def arithText (cs : List Char) : Option (List Char × List Char) :=
  match nested (cs.length + 1) (.paren 1 0) false [] cs with
  | .ok (_ :: acc, ')' :: rest) => some (acc.reverse, rest)
  | _ => none

/-- the three parts of a loop with arithmetic -/
def splitSemicolons (cs : List Char) : List (List Char) :=
  let (acc, last) := cs.foldl (fun (acc, cur) c =>
    if c = ';' then (acc ++ [cur.reverse], []) else (acc, c :: cur)) (([] : List (List Char)), ([] : List Char))
  acc ++ [last.reverse]

def wordsUntilEnd : Nat → Parse (List Word)
  | 0 => return []
  | fuel + 1 => do
    let w ← anyWord false
    if w.isEmpty then return [] else return w :: (← wordsUntilEnd fuel)

mutual
/-- commands up to a word or sign that ends them -/
def commandList : Nat → Parse Command
  | 0 => throw .unterminated
  | fuel + 1 => do
    skipLines
    if ← endsList then return .empty
    let first ← andOr fuel
    commandTail fuel first

/-- what follows a command in a list -/
def commandTail : Nat → Command → Parse Command
  | 0, _ => throw .unterminated
  | fuel + 1, first => do
    if (← peek ";;") || (← peek ";&") then return first
    let (first, more) ← if ← sign? ";" then pure (first, true)
      else if (← peek "&") && !(← peek "&&") then sign "&"; pure (.background first, true)
      else if ← peek "\n" then pure (first, true)
      else pure (first, false)
    if !more then return first
    skipLines
    if ← endsList then return first
    let next ← andOr fuel
    return .seq first (← commandTail fuel next)

/-- commands of which some are run depending on those before -/
def andOr : Nat → Parse Command
  | 0 => throw .unterminated
  | fuel + 1 => do
    let first ← pipeline fuel
    andOrTail fuel first

def andOrTail : Nat → Command → Parse Command
  | 0, _ => throw .unterminated
  | fuel + 1, first => do
    if ← sign? "&&" then
      skipLines
      andOrTail fuel (.andThen first (← pipeline fuel))
    else if ← sign? "||" then
      skipLines
      andOrTail fuel (.orElse first (← pipeline fuel))
    else return first

def pipeline : Nat → Parse Command
  | 0 => throw .unterminated
  | fuel + 1 => do
    if ← word? "!" then return .not (← pipeline fuel)
    if ← word? "time" then
      let _ ← word? "-p"
      if (← endsList) || (← peek "\n") || (← peek ";") then return .empty
      return ← pipeline fuel
    let first ← command fuel
    match ← pipeTail fuel first with
    | [c] => return c
    | stages => return .pipe stages

/-- the stages of a pipeline -/
def pipeTail : Nat → Command → Parse (List Command)
  | 0, _ => throw .unterminated
  | fuel + 1, first => do
    if ← peek "||" then return [first]
    let messages ← sign? "|&"
    if messages || (← sign? "|") then
      let first := if messages then .redirected first [⟨some 2, .dupOut, ['1']⟩] else first
      skipLines
      return first :: (← pipeTail fuel (← command fuel))
    else return [first]

def command : Nat → Parse Command
  | 0 => throw .unterminated
  | fuel + 1 => do
    skipBlanks
    let cs ← get
    if cs.isEmpty then throw .unterminated
    if "((".toList.isPrefixOf cs then
      match arithText (cs.drop 2) with
      | some (text, rest) => set rest; return ← withRedirects (.arith text)
      | none => pure ()
    if ← sign? "(" then
      let body ← commandList fuel
      skipLines
      sign ")"
      withRedirects (.subshell body)
    else if ← word? "\x7b" then
      let body ← commandList fuel
      keyword "\x7d"
      withRedirects (.group body)
    else if ← word? "if" then withRedirects (← branches fuel)
    else if ← word? "while" then withRedirects (← loop fuel false)
    else if ← word? "until" then withRedirects (← loop fuel true)
    else if ← word? "for" then withRedirects (← forLoop fuel)
    else if ← word? "case" then
      let w ← aWord
      keyword "in"
      let arms ← caseArms fuel
      withRedirects (.case_ w arms)
    else if ← word? "function" then
      let name ← aWord
      if ← sign? "(" then sign ")"
      skipLines
      return .func (String.ofList name) (← command fuel)
    else if ← word? "[[" then
      let t ← testOr ((← get).length + 1)
      skipLines
      if !(← word? "]]") then unexpected
      withRedirects (.test t)
    else if ← reserved.anyM peekWord then unexpected
    else
      let s ← simpleParts (cs.length + 1) {}
      match s with
      | ⟨[], [name], []⟩ =>
        if ← sign? "(" then
          sign ")"
          skipLines
          return .func (String.ofList name) (← command fuel)
        else return .simple [] [name]
      | ⟨[], [], []⟩ => unexpected
      | ⟨assigns, words, rs⟩ =>
        if ← peek "(" then unexpected
        return if rs.isEmpty then .simple assigns words else .redirected (.simple assigns words) rs

/-- what follows `if` or `elif` -/
def branches : Nat → Parse Command
  | 0 => throw .unterminated
  | fuel + 1 => do
    let cond ← commandList fuel
    keyword "then"
    let yes ← commandList fuel
    skipLines
    if ← word? "elif" then return .branch cond yes (← branches fuel)
    else if ← word? "else" then
      let no ← commandList fuel
      keyword "fi"
      return .branch cond yes no
    else
      keyword "fi"
      return .branch cond yes .empty

def loop : Nat → (until_ : Bool) → Parse Command
  | 0, _ => throw .unterminated
  | fuel + 1, until_ => do
    let cond ← commandList fuel
    return .loop until_ cond (← doBlock fuel)

def doBlock : Nat → Parse Command
  | 0 => throw .unterminated
  | fuel + 1 => do
    skipLines
    if ← word? "\x7b" then
      let body ← commandList fuel
      keyword "\x7d"
      return body
    else
      keyword "do"
      let body ← commandList fuel
      keyword "done"
      return body

def forLoop : Nat → Parse Command
  | 0 => throw .unterminated
  | fuel + 1 => do
    skipBlanks
    let cs ← get
    if "((".toList.isPrefixOf cs then
      match arithText (cs.drop 2) with
      | some (text, rest) =>
        set rest
        let _ ← sign? ";"
        match splitSemicolons text with
        | [init, cond, step] => return .forArith init cond step (← doBlock fuel)
        | _ => unexpected
      | none => unexpected
    else
      let name ← aWord
      if !isName name then unexpected
      skipLines
      if ← word? "in" then
        let words ← wordsUntilEnd ((← get).length + 1)
        if !(← sign? ";") && !(← peek "\n") then unexpected
        return .for_ (String.ofList name) (some words) (← doBlock fuel)
      else
        let _ ← sign? ";"
        return .for_ (String.ofList name) none (← doBlock fuel)

def caseArms : Nat → Parse (List (List Word × Command × ArmEnd))
  | 0 => throw .unterminated
  | fuel + 1 => do
    skipLines
    if ← word? "esac" then return []
    if ← atEnd then throw .unterminated
    let _ ← sign? "("
    let patterns ← casePatterns fuel
    sign ")"
    let body ← commandList fuel
    skipLines
    let next ← if ← sign? ";;&" then pure (some ArmEnd.testNext)
      else if ← sign? ";;" then pure (some ArmEnd.leave)
      else if ← sign? ";&" then pure (some ArmEnd.fallThrough)
      else pure none
    match next with
    | some e => return (patterns, body, e) :: (← caseArms fuel)
    | none =>
      keyword "esac"
      return [(patterns, body, .leave)]

def casePatterns : Nat → Parse (List Word)
  | 0 => throw .unterminated
  | fuel + 1 => do
    let w ← anyWord true
    if w.isEmpty then unexpected
    if ← sign? "|" then return w :: (← casePatterns fuel) else return [w]
end

/-- reads the commands up to the end of a line; none if the text is over -/
def nextCommand : Parse (Option Command) := do
  skipLines
  if ← atEnd then return none
  let fuel := (← get).length + 2
  let rec line : Nat → Command → Parse Command
    | 0, c => return c
    | more + 1, c => do
      if (← peek ";;") || (← peek ";&") then unexpected
      let (c, again) ← if ← sign? ";" then pure (c, true)
        else if (← peek "&") && !(← peek "&&") then sign "&"; pure (.background c, true)
        else pure (c, false)
      if (← atEnd) || (← peek "\n") then return c
      if !again then unexpected
      let next ← andOr fuel
      return .seq c (← line more next)
  let first ← andOr fuel
  return some (← line fuel first)

end Parse

/-- the first commands of a program and the rest of it -/
def readCommand (text : List Char) : Except SyntaxFault (Option Command × List Char) := Parse.nextCommand text

end Gleaner.Shell
