/-
What the rules of a list give for one input: an entry for every output of every rule, or one that says why a rule has
none, marked with the number and name of the rule.
-/
import Gleaner.Json.Basic
import Gleaner.Match.Chain

namespace Gleaner

structure SelectionError where
  message : String
  unmatched : Bool
  cancelled : Bool
  deriving DecidableEq, Repr

def SelectionError.of (e : MatchError) : SelectionError := ⟨e.message, e.isUnmatched, e.isCancelled⟩

structure Selection where
  index : Nat
  name : String
  outcome : Except SelectionError String

namespace Selection

/-- the entries of rule number `index` -/
def expand (index : Nat) (name : String) : MatchResult → List Selection
  | .ok found => found.map fun s => ⟨index, name, .ok s⟩
  | .error e => [⟨index, name, .error (.of e)⟩]

def isCancelled (s : Selection) : Bool :=
  match s.outcome with
  | .error e => e.cancelled
  | .ok _ => false

/-- the fields that tell which rule gave an entry -/
def ruleFields (index : Int) (name : String) : List (String × Json) :=
  ("index", .ofInt index) :: if name.isEmpty then [] else [("name", .string name)]

def json (s : Selection) : Json :=
  let outcome := match s.outcome with
    | .ok text => ("result", Json.string text)
    | .error e => ("err", .string e.message)
  .object (ruleFields s.index s.name ++ [outcome])

/-! ## Lists of rules -/

/-- a result with the places around it, the innermost first -/
def located (places : List String) (r : MatchResult) : MatchResult :=
  r.mapError fun e => places.foldl MatchError.within e

/-- compiles the rules of a list, the first of them being number `i` -/
def compileRules {α β : Type} (what : String) (compile : Nat → α → Except ConfigError β) :
    Nat → List α → Except ConfigError (List β)
  | _, [] => .ok []
  | i, rule :: rest => do
    let r ← foundAt (indexed what i) (compile i rule)
    return r :: (← compileRules what compile (i + 1) rest)

/-- the entries of all rules, in order, the first of them being number `i` -/
def selectAll {α : Type} (name : α → String) (select : α → Act MatchResult) : Nat → List α → Act (List Selection)
  | _, [] => return []
  | i, rule :: rest => do
    let r ← select rule
    return Selection.expand i (name rule) r ++ (← selectAll name select (i + 1) rest)

end Selection

end Gleaner
