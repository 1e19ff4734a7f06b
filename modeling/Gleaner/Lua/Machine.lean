/-
The machine that runs Lua programs.

What is to be done next is in `control`, and what is to be done with its result is on a stack of frames, so that calls
may be as deep as they like and coroutines are stacks put aside. Tables, functions and variables are numbers of places
on a heap.

Values run down the stack to the frame that waits for them. A jump (a break, a goto, a return) and an error run down
past the frames that do not stop them; a frame that closes a variable holds them up until it is closed.
-/
import Gleaner.Lua.Operate
import Gleaner.Lua.Parser
import Gleaner.Files.Tree
import Gleaner.Files.Expand

namespace Gleaner.Lua

/-- what a program can reach outside, and what it has written -/
structure Host where
  files : FileNode
  env : Environment
  /-- pieces written to the output, the latest first -/
  printed : List Bytes := []
  /-- pieces written for the user, the latest first -/
  complaints : List Bytes := []

/-- where a function is called from -/
structure Site where
  chunk : String
  line : Nat
  /-- the name that the function is called by -/
  name : String := "?"
  asMethod : Bool := false

/-- how a block is left before its end -/
inductive Jump where
  | leave
  | label (name : String)
  | give (values : List Value)

/-- what is assigned to -/
inductive Target where
  | global (line : Nat) (name : String)
  | cell (at_ : Nat)
  | slot (line : Nat) (obj key : Value) (source : Expr)

/-- a label that has been passed, with what follows it -/
structure Passed where
  label : String
  rest : List Stat
  env : Env

/-- what is left of a block: statements, and the condition that is looked at behind them -/
structure Rest where
  stats : List Stat
  env : Env
  passed : List Passed := []
  condition : Option Expr := none

/-- what a replacement of matches knows: the text, the place it has come to, and the text so far -/
structure ReplaceState where
  text : Bytes
  pattern : Bytes
  anchored : Bool
  replacement : Value
  position : Nat
  /-- the end of the latest match -/
  ended : Option Nat
  count : Nat
  most : Nat
  out : Bytes
  /-- the match that is being replaced -/
  found : Bytes

inductive Frame where
  -- expressions
  | first
  | binRight (line : Nat) (op : BinOp) (a b : Expr) (env : Env)
  | binApply (line : Nat) (op : BinOp) (left : Value) (a b : Expr) (env : Env)
  | unApply (line : Nat) (op : UnOp) (a : Expr) (env : Env)
  | bothRight (b : Expr) (env : Env)
  | eitherRight (b : Expr) (env : Env)
  | indexKey (line : Nat) (obj key : Expr) (env : Env)
  | indexApply (line : Nat) (obj : Value) (source : Expr) (env : Env)
  | exprs (done : List Value) (rest : List Expr) (env : Env)
  | callArgs (line : Nat) (f : Expr) (args : List Expr) (env : Env) (tail : Bool)
  | callApply (site : Site) (f : Value) (source : Expr) (env : Env) (tail : Bool)
  | methodFind (line : Nat) (obj : Expr) (name : String) (args : List Expr) (env : Env) (tail : Bool)
  | methodArgs (line : Nat) (self : Value) (source : Expr) (args : List Expr) (env : Env) (tail : Bool)
  | methodApply (site : Site) (f self : Value) (source : Expr) (env : Env) (tail : Bool)
  | fieldItem (line : Nat) (table next : Nat) (rest : List Field) (env : Env)
  | fieldKey (line : Nat) (table next : Nat) (value : Expr) (rest : List Field) (env : Env)
  | fieldValue (line : Nat) (table next : Nat) (key : Value) (rest : List Field) (env : Env)
  | asBool (negate : Bool)
  -- statements
  | seq (rest : Rest)
  | discard
  | targetKey (line : Nat) (done : List Target) (source key : Expr) (rest values : List Expr) (env : Env)
  | targetSlot (line : Nat) (done : List Target) (obj : Value) (source : Expr) (rest values : List Expr) (env : Env)
  | assignAll (targets : List Target) (env : Env)
  | assignRest (pairs : List (Target × Value)) (env : Env)
  | bindLocals (names : List (String × Attrib)) (line : Nat) (rest : Rest)
  | ifTest (body : List Stat) (others : List (Expr × List Stat)) (otherwise : List Stat) (env : Env)
  | whileTest (cond : Expr) (body : List Stat) (env : Env)
  | whileLoop (cond : Expr) (body : List Stat) (env : Env)
  | repeatTest
  | repeatLoop (body : List Stat) (cond : Expr) (env : Env)
  | forStart (line : Nat) (var : String) (body : List Stat) (env : Env)
  | forInts (var : String) (i step : Int64) (left : Nat) (body : List Stat) (env : Env)
  | forFloats (var : String) (x limit step : Float) (body : List Stat) (env : Env)
  | forInStart (line : Nat) (names : List String) (body : List Stat) (env : Env)
  | forInTest (line : Nat) (names : List String) (f s : Value) (body : List Stat) (env : Env)
  | forInLoop (line : Nat) (names : List String) (f s control : Value) (body : List Stat) (env : Env)
  | giveBack
  -- boundaries
  | function (site : Option Site) (depth native : Nat)
  | closing (v : Value) (site : Site)
  | closed
  | closedJump (j : Jump)
  | closedError (e : Value)
  | guarded
  | guardedWith (handler : Value)
  | handled
  | resumed (thread : Nat) (wrapped : Bool) (site : Option Site)
  -- the library
  | adjust (count : Nat)
  | textOnly (site : Option Site)
  | printRest (done : List Bytes) (rest : List Value) (site : Option Site)
  | replacing (s : ReplaceState) (site : Option Site)
  | formatting (done rest : List Value) (site : Option Site)
  | itemAt (i : Int64)
  | loadPieces (done : List Bytes) (reader : Value) (chunk : String) (env : Option Value)
  | loaded (name : String)
  | sorting (args : List Value) (site : Option Site)

inductive Control where
  | eval (e : Expr) (env : Env)
  | give (values : List Value)
  | exec (rest : Rest)
  | done
  | jump (j : Jump)
  | raise (v : Value)
  | call (f : Value) (args : List Value) (site : Option Site)
  | halted (outcome : Except Value (List Value))

inductive ThreadStatus where
  | suspended
  | running
  | normal
  | dead
  deriving DecidableEq

structure Thread where
  status : ThreadStatus
  frames : List Frame
  /-- the function to be started -/
  start : Option Value
  parent : Nat := 0
  depth : Nat := 0
  native : Nat := 0

structure Machine where
  control : Control := .done
  frames : List Frame := []
  cells : Array Value := #[]
  tables : Array Table := #[]
  closures : Array Closure := #[]
  bounds : Array Bound := #[]
  files : Array OpenFile := #[]
  threads : Array Thread := #[]
  current : Nat := 0
  /-- calls that have not returned -/
  depth : Nat := 0
  /-- calls that the library has made and that have not returned -/
  native : Nat := 0
  globals : Nat := 0
  /-- the tables of texts and files -/
  textMeta : Nat := 0
  fileMeta : Nat := 0
  seed : UInt64 := 0x2545F4914F6CDD1D
  host : Host

namespace Machine

/-- the most calls of functions that have not returned -/
def maxDepth : Nat := 190000

/-- the most calls by the library that have not returned -/
def maxNative : Nat := 195

def push (f : Frame) (m : Machine) : Machine := { m with frames := f :: m.frames }

def set (c : Control) (m : Machine) : Machine := { m with control := c }

def give (values : List Value) (m : Machine) : Machine := m.set (.give values)

def give1 (v : Value) (m : Machine) : Machine := m.set (.give [v])

def giveText (s : String) (m : Machine) : Machine := m.give1 (.ofString s)

def giveBytes (s : Bytes) (m : Machine) : Machine := m.give1 (.text s)

def giveBool (b : Bool) (m : Machine) : Machine := m.give1 (.bool b)

def giveInt (i : Int) (m : Machine) : Machine := m.give1 (.int (.ofInt i))

def raise (v : Value) (m : Machine) : Machine := m.set (.raise v)

/-- the position of a site before a message; the library has none -/
def positioned (site : Option Site) (message : String) : String :=
  match site with
  | some s => if s.chunk.isEmpty then message else s.chunk ++ ":" ++ toString s.line ++ ": " ++ message
  | none => message

/-- raises a message with a position -/
def fail (site : Option Site) (message : String) (m : Machine) : Machine :=
  m.raise (.ofString (positioned site message))

/-- raises a message at a line of the function that runs -/
def failAt (env : Env) (line : Nat) (message : String) (m : Machine) : Machine :=
  m.fail (some { chunk := env.chunk, line := line }) message

def call (f : Value) (args : List Value) (site : Option Site) (m : Machine) : Machine := m.set (.call f args site)

/-! ## The heap -/

def newCell (v : Value) (m : Machine) : Nat × Machine := (m.cells.size, { m with cells := m.cells.push v })

def newTable (t : Table) (m : Machine) : Nat × Machine := (m.tables.size, { m with tables := m.tables.push t })

def table (i : Nat) (m : Machine) : Table := m.tables.getD i {}

def modifyTable (i : Nat) (f : Table → Table) (m : Machine) : Machine := { m with tables := m.tables.modify i f }

def setField (i : Nat) (name : String) (v : Value) (m : Machine) : Machine := m.modifyTable i (·.setText name v)

def newBound (b : Bound) (m : Machine) : Nat × Machine := (m.bounds.size, { m with bounds := m.bounds.push b })

/-- the metatable of a value -/
def metatable? (v : Value) (m : Machine) : Option Nat :=
  match v with
  | .table i => (m.table i).meta_
  | .text _ => some m.textMeta
  | .file _ => some m.fileMeta
  | _ => none

/-- the metamethod of a value; nil if it has none -/
def metamethod (v : Value) (event : String) (m : Machine) : Value :=
  match m.metatable? v with
  | some i => (m.table i).getText event
  | none => .nil

/-- adds variables to those in scope; the last is the innermost -/
def bind (names : List (String × Value)) (env : Env) (m : Machine) : Env × Machine :=
  names.foldl (fun (env, m) (name, v) =>
    let (cell, m) := m.newCell v
    ({ env with vars := (name, cell) :: env.vars }, m)) (env, m)

/-! ## Names of values in messages -/

/-- what a value of an expression is called -/
def describe (env : Env) (e : Expr) : String :=
  match e with
  | .name _ n =>
    match env.vars.findIdx? (·.1 == n) with
    | some i => if i + env.captured < env.vars.length then " (local '" ++ n ++ "')" else " (upvalue '" ++ n ++ "')"
    | none => " (global '" ++ n ++ "')"
  | .index _ _ (.text s) => " (field '" ++ String.ofList (byteChars s) ++ "')"
  | .method _ _ name _ => " (method '" ++ name ++ "')"
  | .text s => " (constant '" ++ String.ofList (byteChars s) ++ "')"
  | _ => ""

/-- the name of the type of a value in messages -/
def typeLabel (v : Value) (m : Machine) : String :=
  match v with
  | .text _ => "string"
  | _ =>
    match m.metamethod v "__name" with
    | .text s => String.ofList (byteChars s)
    | _ => v.typeName

/-- the name a function is called by -/
def calledName (f : Expr) : String :=
  match f with
  | .name _ n => n
  | .index _ _ (.text s) => String.ofList (byteChars s)
  | _ => "?"

/-! ## Indexing -/

/-- how many tables are looked through at most -/
def maxLookups : Nat := 2000

/-- looks a key up, following `__index` -/
def lookup (site : Option Site) (note : Unit → String) : Nat → Value → Value → Machine → Machine
  | 0, _, _, m => m.fail site "'__index' chain too long; possibly a loop"
  | fuel + 1, obj, key, m =>
    let follow (h : Value) : Machine :=
      if h.isFunction then (m.push .first).call h [obj, key] none else lookup site note fuel h key m
    match obj with
    | .table i =>
      let v := (m.table i).get key
      if !v.isNil then m.give1 v
      else
        let h := m.metamethod obj "__index"
        if h.isNil then m.give1 .nil else follow h
    | _ =>
      let h := m.metamethod obj "__index"
      if h.isNil then m.fail site ("attempt to index a " ++ m.typeLabel obj ++ " value" ++ note ()) else follow h

def index (site : Option Site) (note : Unit → String) (obj key : Value) (m : Machine) : Machine :=
  lookup site note maxLookups obj key m

/-- what is wrong with a key that nothing can be stored at -/
def keyFault? (key : Value) : Option String :=
  match key with
  | .nil => some "index is nil"
  | .float f => if f.isNaN then some "index is NaN" else none
  | _ => none

/-- stores a value without metamethods -/
def rawStore (site : Option Site) (i : Nat) (key v : Value) (m : Machine) : Machine :=
  match keyFault? key, key.key? with
  | some fault, _ => m.fail site ("table " ++ fault)
  | none, some k => (m.modifyTable i (·.setKey k v)).set .done
  | none, none => m.set .done

/-- stores a value, following `__newindex` -/
def assignFrom (site : Option Site) (note : Unit → String) (key v : Value) : Nat → Value → Machine → Machine
  | 0, _, m => m.fail site "'__newindex' chain too long; possibly a loop"
  | fuel + 1, obj, m =>
    let follow (h : Value) : Machine :=
      if h.isFunction then (m.push .discard).call h [obj, key, v] none else assignFrom site note key v fuel h m
    match obj with
    | .table i =>
      let t := m.table i
      if t.meta_.isNone then m.rawStore site i key v
      else if !(t.get key).isNil then m.rawStore site i key v
      else
        let h := m.metamethod obj "__newindex"
        if h.isNil then m.rawStore site i key v else follow h
    | _ =>
      let h := m.metamethod obj "__newindex"
      if h.isNil then m.fail site ("attempt to index a " ++ m.typeLabel obj ++ " value" ++ note ()) else follow h

def store (site : Option Site) (note : Unit → String) (obj key v : Value) (m : Machine) : Machine :=
  assignFrom site note key v maxLookups obj m

end Machine

end Gleaner.Lua
