/-
Operators on all values. An operator that a value has no meaning of its own for is asked for in its metatable; the first
operand is asked before the second.
-/
import Gleaner.Lua.Machine

namespace Gleaner.Lua.Machine

/-- an operation in a program: where it is, its operands as they are written, and the variables in scope -/
structure Operation where
  line : Nat
  left : Expr
  right : Expr
  env : Env

namespace Operation

def site (o : Operation) : Option Site := some { chunk := o.env.chunk, line := o.line }

/-- calls a metamethod with two values and takes its first result -/
def ask (h a b : Value) (m : Machine) : Machine := (m.push .first).call h [a, b] none

/-- the metamethod of the first of two values that has one -/
def handler (event : String) (a b : Value) (m : Machine) : Value :=
  let h := m.metamethod a event
  if h.isNil then m.metamethod b event else h

/-- says which of two operands cannot be worked with -/
def reject (o : Operation) (what : String) (leftFits : Bool) (a b : Value) (m : Machine) : Machine :=
  let (v, e) := if leftFits then (b, o.right) else (a, o.left)
  m.fail o.site ("attempt to " ++ what ++ " a " ++ m.typeLabel v ++ " value" ++ describe o.env e)

/-! ## Arithmetic and texts -/

def arithmetic (o : Operation) (op : BinOp) (a b : Value) (m : Machine) : Machine :=
  match a.asNumber?, b.asNumber? with
  | some x, some y =>
    match arith op x y with
    | .ok v => m.give1 v
    | .error e => m.fail o.site e
  | _, _ =>
    let h := handler op.event a b m
    if !h.isNil then ask h a b m
    else if op.isBitwise then o.reject "perform bitwise operation on" a.isNumber a b m
    else o.reject "perform arithmetic on" a.asNumber?.isSome a b m

def concatenation (o : Operation) (a b : Value) (m : Machine) : Machine :=
  match a.asText?, b.asText? with
  | some s, some t => m.giveBytes (s ++ t)
  | s, _ =>
    let h := handler "__concat" a b m
    if !h.isNil then ask h a b m else o.reject "concatenate" s.isSome a b m

/-! ## Comparisons -/

/-- whether two values are equal, or the opposite -/
def equality (negate : Bool) (a b : Value) (m : Machine) : Machine :=
  if a.rawEq b then m.giveBool !negate
  else
    match a, b with
    | .table _, .table _ =>
      let h := handler "__eq" a b m
      if h.isNil then m.giveBool negate else (m.push (.asBool negate)).call h [a, b] none
    | _, _ => m.giveBool negate

/-- compares two values in order -/
def ordering (o : Operation) (known : Option Bool) (event : String) (a b : Value) (m : Machine) : Machine :=
  match known with
  | some r => m.giveBool r
  | none =>
    let h := handler event a b m
    if !h.isNil then (m.push (.asBool false)).call h [a, b] none
    else
      let s := m.typeLabel a
      let t := m.typeLabel b
      let which := if s == t then "two " ++ s ++ " values" else s ++ " with " ++ t
      m.fail o.site ("attempt to compare " ++ which)

/-- applies an operator to two values -/
def apply (o : Operation) (op : BinOp) (a b : Value) (m : Machine) : Machine :=
  match op with
  | .concat => o.concatenation a b m
  | .eq => equality false a b m
  | .ne => equality true a b m
  | .lt => o.ordering (less? a b) "__lt" a b m
  | .gt => o.ordering (less? b a) "__lt" b a m
  | .le => o.ordering (lessEq? a b) "__le" a b m
  | .ge => o.ordering (lessEq? b a) "__le" b a m
  | op => o.arithmetic op a b m

/-! ## Operators on one value -/

/-- asks the metatable for an operator on one value; the value is given twice -/
def orAsk (o : Operation) (op : UnOp) (what : String) (a : Value) (m : Machine) : Machine :=
  let h := m.metamethod a op.event
  if h.isNil then o.reject what false a a m else ask h a a m

def applyOne (o : Operation) (op : UnOp) (a : Value) (m : Machine) : Machine :=
  match op with
  | .lnot => m.giveBool !a.truthy
  | .neg =>
    match a.asNumber? with
    | some (.int i) => m.give1 (.int (-i))
    | some (.float f) => m.give1 (.float (-f))
    | none => o.orAsk op "perform arithmetic on" a m
  | .bitNot =>
    match a.asNumber? with
    | some n =>
      match n.toInt? with
      | some i => m.give1 (.int (~~~i))
      | none => m.fail o.site "number has no integer representation"
    | none => o.orAsk op "perform bitwise operation on" a m
  | .len =>
    match a with
    | .text s => m.giveInt s.size
    | .table i =>
      let h := m.metamethod a op.event
      if h.isNil then m.giveInt (m.table i).length else ask h a a m
    | a => o.orAsk op "get length of" a m

end Operation

end Gleaner.Lua.Machine
