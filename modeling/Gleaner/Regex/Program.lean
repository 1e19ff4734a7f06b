/-
Programs for matching: a list of instructions, each naming its successors by position.

`compile` builds an expression in front of the place where its match is to continue, so successors exist before they
are named; only a loop needs a place reserved for it first. The order of the two ways out of a `split` is the order of
preference between them. A loop over something that can match the empty text is entered through a split of its own:
otherwise a first pass that takes nothing would be preferred to leaving the loop.
-/
import Gleaner.Regex.Expr

namespace Gleaner.Regex

inductive Inst where
  | char (c : Char) (next : Nat)
  | set (s : CharSet) (next : Nat)
  | look (l : Look) (next : Nat)
  | split (first second : Nat)
  | save (slot : Nat) (next : Nat)
  | accept
  deriving Inhabited

structure Program where
  insts : Array Inst
  start : Nat
  /-- two slots for each capture group -/
  slots : Nat

/-- appends an instruction and gives its position -/
def emit (inst : Inst) : StateM (Array Inst) Nat :=
  fun insts => (insts.size, insts.push inst)

/-- a choice between going on with a repetition and leaving it -/
def emitChoice (greedy : Bool) (again leave : Nat) : StateM (Array Inst) Nat :=
  emit (if greedy then .split again leave else .split leave again)

/-- a loop: `body` is built in front of the choice between another pass and leaving. Gives the place of the choice
and the start of the body. -/
def emitLoop (greedy : Bool) (body : Nat → StateM (Array Inst) Nat) (leave : Nat) :
    StateM (Array Inst) (Nat × Nat) := do
  let choice ← emit .accept
  let inner ← body choice
  modify fun insts => insts.set! choice (if greedy then .split inner leave else .split leave inner)
  return (choice, inner)

/-- `count` copies one after the other -/
def emitCopies (body : Nat → StateM (Array Inst) Nat) : Nat → Nat → StateM (Array Inst) Nat
  | 0, next => return next
  | count + 1, next => do emitCopies body count (← body next)

/-- up to `count` copies, any of which may be the last -/
def emitOptional (greedy : Bool) (body : Nat → StateM (Array Inst) Nat) (leave : Nat) :
    Nat → Nat → StateM (Array Inst) Nat
  | 0, next => return next
  | count + 1, next => do
    let inner ← body next
    emitOptional greedy body leave count (← emitChoice greedy inner leave)

/-- tries the starts in order -/
def emitBranches : List Nat → StateM (Array Inst) Nat
  | [] => emit (.set CharSet.empty 0)
  | [only] => return only
  | first :: rest => do emit (.split first (← emitBranches rest))

mutual
/-- builds an expression in front of `next` and gives its start -/
def compile : Expr → Nat → StateM (Array Inst) Nat
  | .empty, next => return next
  | .char c, next => emit (.char c next)
  | .set s, next => emit (.set s next)
  | .look l, next => emit (.look l next)
  | .capture index _ e, next => do
    let close ← emit (.save (2 * index + 1) next)
    let inner ← compile e close
    emit (.save (2 * index) inner)
  | .concat parts, next => compileConcat parts next
  | .alternation branches, next => do emitBranches (← compileEach branches next)
  | .repetition min max greedy e, next =>
    match max with
    | some m => do
      let optional ← emitOptional greedy (compile e) next (m - min) next
      emitCopies (compile e) min optional
    | none =>
      if min = 0 then do
        let (choice, inner) ← emitLoop greedy (compile e) next
        if e.consumes then return choice
        else emitChoice greedy inner next
      else do
        let (_, inner) ← emitLoop greedy (compile e) next
        emitCopies (compile e) (min - 1) inner

def compileConcat : List Expr → Nat → StateM (Array Inst) Nat
  | [], next => return next
  | e :: rest, next => do compile e (← compileConcat rest next)

def compileEach : List Expr → Nat → StateM (Array Inst) (List Nat)
  | [], _ => return []
  | e :: rest, next => do
    let start ← compile e next
    return start :: (← compileEach rest next)
end

mutual
/-- the groups that are left in an expression, with their names -/
def Expr.captures : Expr → List (Nat × Option String)
  | .capture index name e => (index, name) :: e.captures
  | .repetition _ _ _ e => e.captures
  | .concat parts => Expr.capturesList parts
  | .alternation branches => Expr.capturesList branches
  | _ => []

def Expr.capturesList : List Expr → List (Nat × Option String)
  | [] => []
  | e :: rest => e.captures ++ Expr.capturesList rest
end

/-- the names of the groups by index; group 0 is the whole match. A group that was simplified away keeps its place if
a later one is left. -/
def Expr.groupNames (e : Expr) : Array (Option String) :=
  let found := e.captures
  let count := found.foldl (fun n entry => max n (entry.1 + 1)) 1
  found.foldl (fun names entry => names.set! entry.1 entry.2) (Array.replicate count none)

/-- the program of an expression, the whole match being group 0 -/
def Expr.program (e : Expr) : Program :=
  let (start, insts) := (do
    let done ← emit .accept
    compile (.capture 0 none e) done : StateM (Array Inst) Nat).run #[]
  { insts := insts, start := start, slots := 2 * e.groupNames.size }

end Gleaner.Regex
