/-
How expressions are evaluated, step by step: each step either gives the values of an expression or leaves a frame for
what is to be done with the values of a part of it.

An expression stands for a list of values. Calls and the rest of the arguments may have any number of them; where one is
wanted, it is the first, or nil.
-/
import Gleaner.Lua.Apply

namespace Gleaner.Lua.Machine

/-- where a name in an expression leads -/
def cell? (env : Env) (n : String) : Option Nat := (env.vars.find? (·.1 == n)).map (·.2)

def cellValue (i : Nat) (m : Machine) : Value := m.cells.getD i .nil

/-- the table that names which are no variables are looked up in -/
def globalTable (env : Env) (m : Machine) : Value :=
  match cell? env "_ENV" with
  | some i => m.cellValue i
  | none => .table m.globals

def siteAt (env : Env) (line : Nat) : Option Site := some { chunk := env.chunk, line := line }

/-! ## Expressions -/

def evalExpr (e : Expr) (env : Env) (m : Machine) : Machine := m.set (.eval e env)

/-- evaluates expressions from the left; only the last keeps all of its values -/
def evalList (es : List Expr) (env : Env) (m : Machine) : Machine :=
  match es with
  | [] => m.give []
  | [e] => m.evalExpr e env
  | e :: rest => (m.push (.exprs [] rest env)).evalExpr e env

/-- goes on with the fields of a table; item number `next` is the next -/
def evalFields (line table next : Nat) (fields : List Field) (env : Env) (m : Machine) : Machine :=
  match fields with
  | [] => m.give1 (.table table)
  | .item e :: rest => (m.push (.fieldItem line table next rest env)).evalExpr e env
  | .named key value :: rest => (m.push (.fieldKey line table next value rest env)).evalExpr key env

/-- what is evaluated first of a call -/
def evalCall (e : Expr) (tail : Bool) (env : Env) (m : Machine) : Machine :=
  match e with
  | .call line f args => (m.push (.callArgs line f args env tail)).evalExpr f env
  | .method line obj name args => (m.push (.methodFind line obj name args env tail)).evalExpr obj env
  | e => m.evalExpr e env

def newClosure (body : FuncBody) (env : Env) (m : Machine) : Value × Machine :=
  (.closure m.closures.size, { m with closures := m.closures.push ⟨body, env⟩ })

/-- a step of the evaluation of an expression -/
def stepExpr (e : Expr) (env : Env) (m : Machine) : Machine :=
  match e with
  | .nil => m.give1 .nil
  | .bool b => m.give1 (.bool b)
  | .int i => m.give1 (.int i)
  | .float f => m.give1 (.float f)
  | .text s => m.give1 (.text s)
  | .vararg => m.give env.varargs
  | .func body =>
    let (f, m) := m.newClosure body env
    m.give1 f
  | .name line n =>
    match cell? env n with
    | some i => m.give1 (m.cellValue i)
    | none => m.index (siteAt env line) (fun _ => describe env (.name line "_ENV")) (m.globalTable env) (.ofString n)
  | .index line obj key => (m.push (.indexKey line obj key env)).evalExpr obj env
  | .call .. => m.evalCall e false env
  | .method .. => m.evalCall e false env
  | .paren e => (m.push .first).evalExpr e env
  | .bin line op a b => (m.push (.binRight line op a b env)).evalExpr a env
  | .un line op a => (m.push (.unApply line op a env)).evalExpr a env
  | .both a b => (m.push (.bothRight b env)).evalExpr a env
  | .either a b => (m.push (.eitherRight b env)).evalExpr a env
  | .table line fields =>
    let (i, m) := m.newTable {}
    m.evalFields line i 1 fields env

/-! ## Calls -/

/-- what is behind the call that is being run, if only statements are left and none of them has to be done: the site and
the counts of the call -/
def behindTail : List Frame → Option (Option Site × Nat × Nat × List Frame)
  | .function site depth native :: rest => some (site, depth, native, rest)
  | .seq _ :: rest => behindTail rest
  | .giveBack :: rest => behindTail rest
  | .whileLoop .. :: rest => behindTail rest
  | .repeatLoop .. :: rest => behindTail rest
  | .forInts .. :: rest => behindTail rest
  | .forFloats .. :: rest => behindTail rest
  | .forInLoop .. :: rest => behindTail rest
  | _ => none

/-- calls what an expression gave; a call whose values are given back takes the place of the function it is in -/
def callValue (site : Site) (f : Value) (source : Expr) (env : Env) (tail : Bool) (args : List Value) (m : Machine) :
    Machine :=
  match f with
  | .closure _ =>
    match if tail then behindTail m.frames else none with
    | some (outer, depth, native, rest) =>
      { m with frames := rest, depth := depth, native := native }.call f args outer
    | none => m.call f args (some site)
  | .native _ => m.call f args (some site)
  | .bound _ => m.call f args (some site)
  | f =>
    let h := m.metamethod f "__call"
    if h.isNil then
      m.fail (some site) ("attempt to call a " ++ m.typeLabel f ++ " value" ++ describe env source)
    else m.call h (f :: args) (some site)

/-- evaluates the arguments of a call -/
def evalArgs (site : Site) (f : Value) (source : Expr) (args : List Expr) (env : Env) (tail : Bool) (m : Machine) :
    Machine :=
  match args with
  | [] => m.callValue site f source env tail []
  | args => (m.push (.callApply site f source env tail)).evalList args env

/-- enters a function: its parameters are new variables, and arguments without one are kept as the rest -/
def enter (c : Closure) (args : List Value) (site : Option Site) (m : Machine) : Machine :=
  if m.depth ≥ maxDepth then m.fail site "stack overflow"
  else if site.isNone && m.native ≥ maxNative then m.fail site "C stack overflow"
  else
    let .mk _ params isVararg body := c.body
    let m := m.push (.function site m.depth m.native)
    let m := { m with depth := m.depth + 1, native := if site.isNone then m.native + 1 else m.native }
    let count := params.length
    let env := { c.env with captured := c.env.vars.length, varargs := if isVararg then args.drop count else [] }
    let (env, m) := m.bind (params.zipIdx.map fun (p, i) => (p, args.getD i .nil)) env
    m.set (.exec { stats := body, env := env })

end Gleaner.Lua.Machine
