/-
Paths with variables. `$NAME` and `${NAME}` stand for a variable of the environment, `${NAME:-text}` for the text if the
variable is missing or empty, `$$` for a dollar, and a tilde at the beginning for the home directory. A variable that
is missing and has no text to stand for it is an error; an empty one in braces stays as it is written.
-/
import Gleaner.Unicode.Query

namespace Gleaner

/-- variables by name -/
structure Environment where
  vars : List (String × String)

namespace Environment

def get? (e : Environment) (name : String) : Option String := (e.vars.find? (·.1 == name)).map (·.2)

/-- sets a variable -/
def set (e : Environment) (name value : String) : Environment :=
  { vars := (name, value) :: e.vars.filter (·.1 != name) }

/-- the home directory of the user nobody has set one for -/
def defaultHome : String := "/root"

def home (e : Environment) : String := ((e.get? "HOME").filter (!·.isEmpty)).getD defaultHome

end Environment

namespace Expand

/-- letters of names of variables -/
def isNameChar (c : Char) : Bool := c = '_' || Unicode.alphabetic.contains c.toNat || Unicode.numbers.contains c.toNat

/-- the part of a text before two characters and the part behind them, unless they stand at its beginning -/
def splitDefault : List Char → List Char → Option (List Char × List Char)
  | before, ':' :: '-' :: rest => if before.isEmpty then none else some (before.reverse, rest)
  | before, c :: rest => splitDefault (c :: before) rest
  | _, [] => none

/-- what a name in braces stands for; the error is the name of a missing variable -/
def braced (e : Environment) (inside : List Char) : Except String (List Char) :=
  let (name, default) := match splitDefault [] inside with
    | some (name, default) => (String.ofList name, some default)
    | none => (String.ofList inside, none)
  match e.get? name, default with
  | some value, some text => .ok (if value.isEmpty then text else value.toList)
  | some value, none => .ok (if value.isEmpty then '$' :: '\x7b' :: inside ++ ['\x7d'] else value.toList)
  | none, some text => .ok text
  | none, none => .error name

/-- replaces variables; the error is the name of a missing one -/
def replaced (e : Environment) : Nat → List Char → Except String (List Char)
  | 0, cs => .ok cs
  | fuel + 1, cs =>
    match cs with
    | [] => .ok []
    | '$' :: '\x7b' :: rest =>
      match rest.span (· ≠ '\x7d') with
      | (inside, '\x7d' :: after) => do return (← braced e inside) ++ (← replaced e fuel after)
      | _ => do return '$' :: '\x7b' :: (← replaced e fuel rest)
    | '$' :: '$' :: rest => do return '$' :: (← replaced e fuel rest)
    | '$' :: rest =>
      match rest.span isNameChar with
      | ([], _) => do return '$' :: (← replaced e fuel rest)
      | (name, after) =>
        match e.get? (String.ofList name) with
        | some value => do return value.toList ++ (← replaced e fuel after)
        | none => .error (String.ofList name)
    | c :: rest => do return c :: (← replaced e fuel rest)

/-- replaces a tilde that is a whole first name -/
def tilde (e : Environment) (cs : List Char) : List Char :=
  match cs with
  | ['~'] => e.home.toList
  | '~' :: '/' :: rest => e.home.toList ++ '/' :: rest
  | _ => cs

/-- the path a text stands for. A tilde that comes out of a variable is kept. -/
def path (e : Environment) (text : String) : Except String String := do
  let cs := text.toList
  let expanded ← replaced e (cs.length + 1) cs
  if cs.head? ≠ some '~' && expanded.head? = some '~' && cs.contains '$' then return String.ofList expanded
  return String.ofList (tilde e expanded)

end Expand

end Gleaner
