/-
How statements are executed, step by step.

The statements behind the one that is executed are kept in a frame, with the labels that have been passed, so that a
jump can find its way. A variable that is to be closed has a frame of its own below those of the statements that follow
it.
-/
import Gleaner.Lua.Evaluate

namespace Gleaner.Lua

/-- what is left of a block from a label on, if it is behind or ahead -/
def Rest.fromLabel? (name : String) (rest : Rest) : Option Rest :=
  let rec ahead : List Stat → List Passed → Option (List Stat × List Passed)
    | [], _ => none
    | .label l :: more, passed =>
      let passed := ⟨l, more, rest.env⟩ :: passed
      if l == name then some (more, passed) else ahead more passed
    | _ :: more, passed => ahead more passed
  let rec behind : List Passed → Option Rest
    | [] => none
    | p :: older =>
      if p.label == name then some { rest with stats := p.rest, env := p.env, passed := p :: older } else behind older
  match behind rest.passed with
  | some r => some r
  | none => (ahead rest.stats rest.passed).map fun (stats, passed) => { rest with stats := stats, passed := passed }

namespace Machine

/-! ## Assignments -/

/-- evaluates what is assigned to, and then the values; the targets that are done are kept with the last first -/
def evalTargets (done : List Target) (values : List Expr) (env : Env) (m : Machine) : List Expr → Machine
  | [] => (m.push (.assignAll done env)).evalList values env
  | .name line n :: rest =>
    match cell? env n with
    | some i => evalTargets (.cell i :: done) values env m rest
    | none => evalTargets (.global line n :: done) values env m rest
  | .index line obj key :: rest => (m.push (.targetKey line done obj key rest values env)).evalExpr obj env
  | _ :: rest => evalTargets done values env m rest

def assign (t : Target) (v : Value) (env : Env) (m : Machine) : Machine :=
  match t with
  | .cell i => { m with cells := m.cells.setIfInBounds i v, control := .done }
  | .global line n =>
    m.store (siteAt env line) (fun _ => describe env (.name line "_ENV")) (m.globalTable env) (.ofString n) v
  | .slot line obj key source => m.store (siteAt env line) (fun _ => describe env source) obj key v

def assignPairs (pairs : List (Target × Value)) (env : Env) (m : Machine) : Machine :=
  match pairs with
  | [] => m.set .done
  | [(t, v)] => m.assign t v env
  | (t, v) :: rest => (m.push (.assignRest rest env)).assign t v env

/-! ## Variables -/

/-- binds new variables and goes on with what follows them -/
def bindLocals (names : List (String × Attrib)) (line : Nat) (rest : Rest) (values : List Value) (m : Machine) :
    Machine :=
  let pairs := names.zipIdx.map fun ((n, _), i) => (n, values.getD i .nil)
  let (env, m) := m.bind pairs rest.env
  match names.findIdx? (·.2 == .close) with
  | none => m.set (.exec { rest with env := env })
  | some i =>
    let v := values.getD i .nil
    if !v.truthy then m.set (.exec { rest with env := env })
    else if (m.metamethod v "__close").isNil then
      let name := (names.map (·.1)).getD i ""
      m.fail (siteAt env line) ("variable '" ++ name ++ "' got a non-closable value")
    else
      let m := if rest.passed.isEmpty then m else m.push (.seq { stats := [], env := rest.env, passed := rest.passed })
      (m.push (.closing v { chunk := env.chunk, line := line })).set (.exec { rest with env := env, passed := [] })

/-! ## Loops -/

/-- runs the body of a loop with variables of its own -/
def runBody (vars : List (String × Value)) (body : List Stat) (env : Env) (m : Machine) : Machine :=
  let (env, m) := m.bind vars env
  m.set (.exec { stats := body, env := env })

def branch (branches : List (Expr × List Stat)) (otherwise : List Stat) (env : Env) (m : Machine) : Machine :=
  match branches with
  | [] => m.set (.exec { stats := otherwise, env := env })
  | (cond, body) :: rest => (m.push (.ifTest body rest otherwise env)).evalExpr cond env

def testWhile (cond : Expr) (body : List Stat) (env : Env) (m : Machine) : Machine :=
  (m.push (.whileTest cond body env)).evalExpr cond env

def startRepeat (body : List Stat) (cond : Expr) (env : Env) (m : Machine) : Machine :=
  (m.push (.repeatLoop body cond env)).set (.exec { stats := body, env := env, condition := some cond })

/-- a loop over integers with `left` rounds behind this one -/
def roundInts (var : String) (i step : Int64) (left : Nat) (body : List Stat) (env : Env) (m : Machine) : Machine :=
  (m.push (.forInts var i step left body env)).runBody [(var, .int i)] body env

/-- a loop over floats, if the next number is within the limit -/
def roundFloats (var : String) (x limit step : Float) (body : List Stat) (env : Env) (m : Machine) : Machine :=
  if (step > 0.0 && x ≤ limit) || (step < 0.0 && limit ≤ x) then
    (m.push (.forFloats var x limit step body env)).runBody [(var, .float x)] body env
  else m.set .done

/-- the integer that a loop over integers ends at; none if it has no rounds -/
def intLimit? (start step : Int64) (limit : Number) : Option Int64 :=
  let reached : Option Int64 := match limit with
    | .int i => some i
    | .float f =>
      if f.isNaN then none
      else
        match floatToInt? (if step < 0 then f.ceil else f.floor) with
        | some i => some i
        | none =>
          if f > 0.0 then (if step < 0 then none else some Int64.maxValue)
          else if step > 0 then none else some Int64.minValue
  reached.filter fun limit => if step > 0 then start ≤ limit else limit ≤ start

/-- starts a loop over numbers -/
def startFor (line : Nat) (var : String) (body : List Stat) (env : Env) (start limit step : Value) (m : Machine) :
    Machine :=
  let site := siteAt env line
  let bad (what : String) (v : Value) : Machine :=
    m.fail site ("bad 'for' " ++ what ++ " (number expected, got " ++ m.typeLabel v ++ ")")
  match start, step, limit.asNumber? with
  | .int i, .int s, number =>
    if s = 0 then m.fail site "'for' step is zero"
    else
      match number with
      | none => bad "limit" limit
      | some n =>
        match intLimit? i s n with
        | none => m.set .done
        | some last => m.roundInts var i s ((last.toInt - i.toInt).natAbs / s.toInt.natAbs) body env
  | _, _, none => bad "limit" limit
  | start, step, some n =>
    match step.asNumber?, start.asNumber? with
    | none, _ => bad "step" step
    | _, none => bad "initial value" start
    | some s, some x =>
      if s.toFloat == 0.0 then m.fail site "'for' step is zero"
      else m.roundFloats var x.toFloat n.toFloat s.toFloat body env

/-- asks the function of a loop for the next values -/
def askNext (line : Nat) (names : List String) (f s control : Value) (body : List Stat) (env : Env) (m : Machine) :
    Machine :=
  let site : Site := { chunk := env.chunk, line := line, name := "for iterator" }
  let m := m.push (.forInTest line names f s body env)
  if !f.isFunction && (m.metamethod f "__call").isNil then
    m.fail (some site) ("attempt to call a " ++ m.typeLabel f ++ " value")
  else m.call f [s, control] (some site)

/-- starts a loop over what a function gives; a fourth value is closed behind the loop -/
def startForIn (line : Nat) (names : List String) (body : List Stat) (env : Env) (values : List Value) (m : Machine) :
    Machine :=
  let value (i : Nat) : Value := values.getD i .nil
  let last := value 3
  if !last.truthy then m.askNext line names (value 0) (value 1) (value 2) body env
  else if (m.metamethod last "__close").isNil then
    m.fail (siteAt env line) "variable '(for state)' got a non-closable value"
  else
    (m.push (.closing last { chunk := env.chunk, line := line })).askNext line names (value 0) (value 1) (value 2)
      body env

/-! ## Statements -/

/-- keeps what is left of a block, if anything is -/
def keep (rest : Rest) (m : Machine) : Machine :=
  if rest.stats.isEmpty && rest.passed.isEmpty && rest.condition.isNone then m else m.push (.seq rest)

/-- executes one statement; `after` is what follows it -/
def stepStat (s : Stat) (env : Env) (after : Rest) (m : Machine) : Machine :=
  match s with
  | .label name => m.set (.exec { after with passed := ⟨name, after.stats, env⟩ :: after.passed })
  | .assign _ targets values => evalTargets [] values env (m.keep after) targets
  | .locals line names values => (m.push (.bindLocals names line after)).evalList values env
  | .localFunc name body =>
    let (env, m) := m.bind [(name, .nil)] env
    let (f, m) := m.newClosure body env
    let m := match env.vars with
      | (_, i) :: _ => { m with cells := m.cells.setIfInBounds i f }
      | [] => m
    m.set (.exec { after with env := env })
  | .call e => ((m.keep after).push .discard).evalExpr e env
  | .block body => (m.keep after).set (.exec { stats := body, env := env })
  | .while_ cond body => (m.keep after).testWhile cond body env
  | .repeat_ body cond => (m.keep after).startRepeat body cond env
  | .if_ branches otherwise => (m.keep after).branch branches otherwise env
  | .forNum line var start limit step body =>
    ((m.keep after).push (.forStart line var body env)).evalList
      [start, limit, step.elim (.int 1) Expr.paren] env
  | .forIn line names values body => ((m.keep after).push (.forInStart line names body env)).evalList values env
  | .return_ _ values =>
    match values with
    | [e] => (m.push .giveBack).evalCall e true env
    | values => (m.push .giveBack).evalList values env
  | .break_ => m.set (.jump .leave)
  | .goto_ label => (m.keep after).set (.jump (.label label))

/-- a step of what is left of a block -/
def stepRest (rest : Rest) (m : Machine) : Machine :=
  match rest.stats with
  | s :: more => m.stepStat s rest.env { rest with stats := more }
  | [] =>
    match rest.condition with
    | some c => (m.push .repeatTest).evalExpr c rest.env
    | none => m.set .done

end Machine

end Gleaner.Lua
