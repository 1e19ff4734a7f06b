/-
The steps of the machine, and running it to the end.

A step looks at the control and, where something has come to its end, at the topmost frame: `feed` hands it values,
`resume` goes on behind a statement, `leap` lets a jump pass it and `unwind` an error.
-/
import Gleaner.Lua.Execute
import Gleaner.Lua.Library.Basics

namespace Gleaner.Lua.Machine

/-- leaves a call: its counts go back to what they were -/
def leaveCall (depth native : Nat) (m : Machine) : Machine := { m with depth := depth, native := native }

/-- closes a variable; `e` is the error that leads out of its block -/
def close (v e : Value) (site : Site) (m : Machine) : Machine := m.call (m.metamethod v "__close") [v, e] (some site)

/-! ## Values -/

/-- hands values to a frame, which has been taken off the stack -/
def feed (f : Frame) (vs : List Value) (m : Machine) : Machine :=
  let v := vs.headD .nil
  match f with
  | .first => m.give1 v
  | .binRight line op a b env => (m.push (.binApply line op v a b env)).evalExpr b env
  | .binApply line op left a b env => Operation.apply ⟨line, a, b, env⟩ op left v m
  | .unApply line op a env => Operation.applyOne ⟨line, a, a, env⟩ op v m
  | .bothRight b env => if v.truthy then (m.push .first).evalExpr b env else m.give1 v
  | .eitherRight b env => if v.truthy then m.give1 v else (m.push .first).evalExpr b env
  | .indexKey line obj key env =>
    match key with
    | .text s => m.index (siteAt env line) (fun _ => describe env obj) v (.text s)
    | key => (m.push (.indexApply line v obj env)).evalExpr key env
  | .indexApply line obj source env => m.index (siteAt env line) (fun _ => describe env source) obj v
  | .exprs done rest env =>
    match rest with
    | [] => m.give (done.reverse ++ vs)
    | e :: rest => (m.push (.exprs (v :: done) rest env)).evalExpr e env
  | .callArgs line f args env tail =>
    m.evalArgs { chunk := env.chunk, line := line, name := calledName f } v f args env tail
  | .callApply site f source env tail => m.callValue site f source env tail vs
  | .methodFind line obj name args env tail =>
    (m.push (.methodArgs line v (.method line obj name args) args env tail)).index (siteAt env line)
      (fun _ => describe env obj) v (.ofString name)
  | .methodArgs line self source args env tail =>
    let name := match source with
      | .method _ _ name _ => name
      | _ => "?"
    let site : Site := { chunk := env.chunk, line := line, name := name, asMethod := true }
    match args with
    | [] => m.callValue site v source env tail [self]
    | args => (m.push (.methodApply site v self source env tail)).evalList args env
  | .methodApply site f self source env tail => m.callValue site f source env tail (self :: vs)
  | .fieldItem line table next rest env =>
    let values := if rest.isEmpty then vs else [v]
    let m := m.modifyTable table fun t =>
      values.zipIdx.foldl (fun t (v, i) => t.setKey (.int (.ofNat (next + i))) v) t
    m.evalFields line table (next + 1) rest env
  | .fieldKey line table next value rest env => (m.push (.fieldValue line table next v rest env)).evalExpr value env
  | .fieldValue line table next key rest env =>
    match keyFault? key, key.key? with
    | none, some k => (m.modifyTable table (·.setKey k v)).evalFields line table next rest env
    | fault, _ => m.failAt env line ("table " ++ fault.getD "index is nil")
  | .asBool negate => m.giveBool (v.truthy != negate)
  | .discard => m.set .done
  | .targetKey line done source key rest values env =>
    (m.push (.targetSlot line done v source rest values env)).evalExpr key env
  | .targetSlot line done obj source rest values env =>
    evalTargets (.slot line obj v source :: done) values env m rest
  | .assignAll targets env =>
    let n := targets.length
    m.assignPairs (targets.zipIdx.map fun (t, i) => (t, vs.getD (n - 1 - i) .nil)) env
  | .bindLocals names line rest => m.bindLocals names line rest vs
  | .ifTest body others otherwise env =>
    if v.truthy then m.set (.exec { stats := body, env := env }) else m.branch others otherwise env
  | .whileTest cond body env =>
    if v.truthy then (m.push (.whileLoop cond body env)).set (.exec { stats := body, env := env }) else m.set .done
  | .repeatTest => m.set (if v.truthy then .jump .leave else .done)
  | .forStart line var body env => m.startFor line var body env v (vs.getD 1 .nil) (vs.getD 2 .nil)
  | .forInStart line names body env => m.startForIn line names body env vs
  | .forInTest line names f s body env =>
    if v.isNil then m.set .done
    else
      (m.push (.forInLoop line names f s v body env)).runBody
        (names.zipIdx.map fun (n, i) => (n, vs.getD i .nil)) body env
  | .giveBack => m.set (.jump (.give vs))
  | .function _ depth native => (m.leaveCall depth native).give vs
  | .closed => m.set .done
  | .closedJump j => m.set (.jump j)
  | .closedError e => m.raise e
  | .guarded => m.give (.bool true :: vs)
  | .guardedWith _ => m.give (.bool true :: vs)
  | .handled => m.give [.bool false, v]
  | .adjust count => m.give ((List.range count).map fun i => vs.getD i .nil)
  | .textOnly site => Library.checkText v site m
  | .printRest done rest site => Library.printFrom (Library.plainText v :: done) rest site m
  | .replacing s site => Library.resumeReplace s site v m
  | .formatting done rest site => Library.formatFrom (v :: done) rest site m
  | .itemAt i => if v.isNil then m.give1 .nil else m.give [.int i, v]
  | .loadPieces done reader label env => Library.collectPieces done reader label env v m
  | .loaded name => Library.keepModule name v m
  | .sorting args site => m.call v args site
  | _ => m.give vs

/-! ## Ends of statements -/

/-- goes on with a frame behind a statement -/
def resume (f : Frame) (m : Machine) : Machine :=
  match f with
  | .seq rest => m.set (.exec rest)
  | .assignRest pairs env => m.assignPairs pairs env
  | .whileLoop cond body env => m.testWhile cond body env
  | .repeatLoop body cond env => m.startRepeat body cond env
  | .forInts var i step left body env =>
    match left with
    | 0 => m.set .done
    | left + 1 => m.roundInts var (i + step) step left body env
  | .forFloats var x limit step body env => m.roundFloats var (x + step) limit step body env
  | .forInLoop line names f s control body env => m.askNext line names f s control body env
  | .function _ depth native => (m.leaveCall depth native).give []
  | .closing v site => (m.push .closed).close v .nil site
  | f => feed f [] m

/-! ## Jumps -/

/-- lets a jump come to a frame -/
def leap (j : Jump) (f : Frame) (m : Machine) : Machine :=
  match j, f with
  | j, .closing v site => (m.push (.closedJump j)).close v .nil site
  | .leave, .whileLoop .. => m.set .done
  | .leave, .repeatLoop .. => m.set .done
  | .leave, .forInts .. => m.set .done
  | .leave, .forFloats .. => m.set .done
  | .leave, .forInLoop .. => m.set .done
  | .label name, .seq rest =>
    match rest.fromLabel? name with
    | some rest => m.set (.exec rest)
    | none => m.set (.jump j)
  | .give vs, .function _ depth native => (m.leaveCall depth native).give vs
  | j, _ => m.set (.jump j)

/-! ## Errors -/

/-- lets an error come to a frame -/
def unwind (e : Value) (f : Frame) (m : Machine) : Machine :=
  match f with
  | .function _ depth native => (m.leaveCall depth native).raise e
  | .guarded => m.give [.bool false, e]
  | .guardedWith handler => (m.push .handled).call handler [e] none
  | .handled => m.give [.bool false, e]
  | .closing v site => (m.push (.closedError e)).close v e site
  | .loadPieces .. => m.give [.nil, e]
  | _ => m.raise e

/-! ## Calls -/

def enterCall (f : Value) (args : List Value) (site : Option Site) (m : Machine) : Machine :=
  match f with
  | .closure i => m.enter (m.closures.getD i default) args site
  | .native name => Library.callNative name args site m
  | .bound i => Library.callBound i args site m
  | f =>
    let h := m.metamethod f "__call"
    if h.isNil then m.fail site ("attempt to call a " ++ m.typeLabel f ++ " value") else m.call h (f :: args) site

/-! ## Running -/

/-- ends the thread that runs; the machine halts with the first -/
def finish (outcome : Except Value (List Value)) (m : Machine) : Machine :=
  if m.current = 0 then m.set (.halted outcome) else Library.endThread outcome m

def step (m : Machine) : Machine :=
  match m.control with
  | .eval e env => m.stepExpr e env
  | .exec rest => m.stepRest rest
  | .call f args site => m.enterCall f args site
  | .give vs =>
    match m.frames with
    | [] => m.finish (.ok vs)
    | f :: rest => feed f vs { m with frames := rest }
  | .done =>
    match m.frames with
    | [] => m.finish (.ok [])
    | f :: rest => resume f { m with frames := rest }
  | .jump j =>
    match m.frames with
    | [] => m.finish (.ok [])
    | f :: rest => leap j f { m with frames := rest }
  | .raise e =>
    match m.frames with
    | [] => m.finish (.error e)
    | f :: rest => unwind e f { m with frames := rest }
  | .halted _ => m

/-- runs the machine until it halts -/
def run : Nat → Machine → Except Value (List Value) × Machine
  | 0, m => (.error .nil, m)
  | fuel + 1, m =>
    match m.control with
    | .halted outcome => (outcome, m)
    | _ => run fuel m.step

/-- more steps than any program is waited for -/
def maxSteps : Nat := Nat.pow 10 15

/-- calls a function from outside and runs the machine until it returns -/
def runCall (f : Value) (args : List Value) (m : Machine) : Except Value (List Value) × Machine :=
  run maxSteps { m with control := .call f args none, frames := [], current := 0, depth := 0, native := 0 }

end Gleaner.Lua.Machine
