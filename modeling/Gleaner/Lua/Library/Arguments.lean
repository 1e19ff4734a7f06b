/-
Arguments of library functions. Each is asked for by its number, counted from 0, as the kind of value that is wanted;
numbers and texts stand in for each other where they can. What is wrong with an argument is said under the name that
the function was called by.
-/
import Gleaner.Lua.Machine

namespace Gleaner.Lua

structure Arguments where
  values : Array Value
  name : String
  site : Option Site

namespace Arguments

def get (a : Arguments) (i : Nat) : Value := a.values.getD i .nil

def has (a : Arguments) (i : Nat) : Bool := i < a.values.size

/-- the name of a function without that of its library -/
def plainName (name : String) : String := (name.splitOn ".").getLastD name

/-- a message about argument `i` -/
def fault {α : Type} (a : Arguments) (i : Nat) (detail : String) : Except String α :=
  let (name, asMethod) := match a.site with
    | some s => (if s.name = "?" then plainName a.name else s.name, s.asMethod)
    | none => (plainName a.name, false)
  if asMethod && i = 0 then .error ("calling '" ++ name ++ "' on bad self")
  else
    let number := if asMethod then i else i + 1
    .error ("bad argument #" ++ toString number ++ " to '" ++ name ++ "' (" ++ detail ++ ")")

def wrongType {α : Type} (a : Arguments) (i : Nat) (wanted : String) : Except String α :=
  a.fault i (wanted ++ " expected, got " ++ if a.has i then (a.get i).typeName else "no value")

def any (a : Arguments) (i : Nat) : Except String Value :=
  if a.has i then .ok (a.get i) else a.fault i "value expected"

def text (a : Arguments) (i : Nat) : Except String Bytes :=
  match (a.get i).asText? with
  | some s => .ok s
  | none => a.wrongType i "string"

def number (a : Arguments) (i : Nat) : Except String Number :=
  match (a.get i).asNumber? with
  | some n => .ok n
  | none => a.wrongType i "number"

def float (a : Arguments) (i : Nat) : Except String Float := (a.number i).map Number.toFloat

def int (a : Arguments) (i : Nat) : Except String Int := do
  match (← a.number i).toInt? with
  | some n => return n.toInt
  | none => a.fault i "number has no integer representation"

def table (a : Arguments) (i : Nat) : Except String Nat :=
  match a.get i with
  | .table t => .ok t
  | _ => a.wrongType i "table"

def func (a : Arguments) (i : Nat) : Except String Value :=
  if (a.get i).isFunction then .ok (a.get i) else a.wrongType i "function"

/-- an argument that may be left out -/
def orElse {α : Type} (a : Arguments) (i : Nat) (default : α) (read : Nat → Except String α) : Except String α :=
  if (a.get i).isNil then .ok default else read i

def intOr (a : Arguments) (i : Nat) (default : Int) : Except String Int := a.orElse i default a.int

def textOr (a : Arguments) (i : Nat) (default : String) : Except String Bytes := a.orElse i (ofText default) a.text

end Arguments

/-- what library functions do -/
abbrev Action := Except String (Machine → Machine)

namespace Action

/-- carries out an action, or raises the message of its fault -/
def perform (site : Option Site) (act : Action) (m : Machine) : Machine :=
  match act with
  | .ok f => f m
  | .error message => m.fail site message

def give (values : List Value) : Action := .ok (Machine.give values)

def text (s : Bytes) : Action := .ok (Machine.giveBytes s)

def int (i : Int) : Action := .ok (Machine.giveInt i)

def bool (b : Bool) : Action := .ok (Machine.giveBool b)

end Action

end Gleaner.Lua
