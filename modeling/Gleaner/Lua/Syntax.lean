/-
Lua programs.

Expressions and statements keep the line they were written on where running them can fail. A name is a variable if one
of that name is in scope where it is used, and a field of the table of globals otherwise.
-/

namespace Gleaner.Lua

/-- texts are bytes -/
abbrev Bytes := ByteArray

instance (priority := high) : DecidableEq Bytes := ByteArray.instDecidableEq

inductive BinOp where
  | add | sub | mul | div | idiv | mod | pow
  | concat
  | eq | ne | lt | le | gt | ge
  | bitAnd | bitOr | bitXor | shl | shr
  deriving DecidableEq, Repr, Inhabited

inductive UnOp where
  | neg | lnot | len | bitNot
  deriving DecidableEq, Repr, Inhabited

/-- marks on local variables -/
inductive Attrib where
  | regular | const | close
  deriving DecidableEq, Repr, Inhabited

mutual
inductive Expr where
  | nil
  | bool (b : Bool)
  | int (i : Int64)
  | float (f : Float)
  | text (s : Bytes)
  | vararg
  | func (body : FuncBody)
  | name (line : Nat) (n : String)
  | index (line : Nat) (obj key : Expr)
  | call (line : Nat) (f : Expr) (args : List Expr)
  | method (line : Nat) (obj : Expr) (name : String) (args : List Expr)
  | paren (e : Expr)
  | bin (line : Nat) (op : BinOp) (a b : Expr)
  | un (line : Nat) (op : UnOp) (a : Expr)
  | both (a b : Expr)
  | either (a b : Expr)
  | table (line : Nat) (fields : List Field)

inductive Field where
  | item (value : Expr)
  | named (key value : Expr)

inductive FuncBody where
  | mk (line : Nat) (params : List String) (isVararg : Bool) (body : List Stat)

inductive Stat where
  | assign (line : Nat) (targets values : List Expr)
  | locals (line : Nat) (names : List (String × Attrib)) (values : List Expr)
  | localFunc (name : String) (body : FuncBody)
  | call (e : Expr)
  | block (body : List Stat)
  | while_ (cond : Expr) (body : List Stat)
  | repeat_ (body : List Stat) (cond : Expr)
  | if_ (branches : List (Expr × List Stat)) (otherwise : List Stat)
  | forNum (line : Nat) (var : String) (start limit : Expr) (step : Option Expr) (body : List Stat)
  | forIn (line : Nat) (names : List String) (values : List Expr) (body : List Stat)
  | return_ (line : Nat) (values : List Expr)
  | break_
  | goto_ (label : String)
  | label (name : String)
end

instance : Inhabited Expr := ⟨.nil⟩
instance : Inhabited FuncBody := ⟨.mk 0 [] false []⟩
instance : Inhabited Stat := ⟨.break_⟩
instance : Inhabited Field := ⟨.item .nil⟩

/-- how tightly an operator binds to the left and to the right -/
def BinOp.priority : BinOp → Nat × Nat
  | .pow => (14, 13)
  | .mul | .div | .idiv | .mod => (11, 11)
  | .add | .sub => (10, 10)
  | .concat => (9, 8)
  | .shl | .shr => (7, 7)
  | .bitAnd => (6, 6)
  | .bitXor => (5, 5)
  | .bitOr => (4, 4)
  | .eq | .ne | .lt | .le | .gt | .ge => (3, 3)

def unaryPriority : Nat := 12
def andPriority : Nat := 2
def orPriority : Nat := 1

end Gleaner.Lua
