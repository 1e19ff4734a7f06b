/-
Normalizers. They are tried in order and the first that has a match rewrites the text; a text that none of them matches
stays as it is.
-/
import Gleaner.Rules.Selection

namespace Gleaner

structure Normalizer where
  name : String
  chain : Chain

/-- a rewritten text and the normalizer it comes from, if any -/
structure Normalized where
  index : Option Nat
  name : String
  result : String
  deriving DecidableEq, Repr

namespace Normalized

/-- the text itself -/
def identity (input : String) : Normalized := ⟨none, "", input⟩

/-- the number of the normalizer, -1 if there is none -/
def number (n : Normalized) : Int :=
  match n.index with
  | some i => i
  | none => -1

def json (n : Normalized) : Json :=
  .object (Selection.ruleFields n.number n.name ++ if n.result.isEmpty then [] else [("result", .string n.result)])

end Normalized

namespace Normalizer

/-- compiles normalizer number `i` of a part -/
def compile (env : Environment) (part : Part) (i : Nat) (rule : NormalizerRule) : Except ConfigError Normalizer :=
  (foundAt (labelled "named-matcher" rule.name) (Chain.compile env { part := part, rule := i } rule.matcher)).map
    (⟨rule.name, ·⟩)

/-- runs the chain of a normalizer -/
def run (n : Normalizer) (input : String) : Act MatchResult :=
  Act.measure ("named-normalizer-" ++ n.name) do
    let found ← Act.measure ("named-matcher-" ++ n.name) (n.chain.run input)
    return Selection.located [labelled "named-matcher" n.name] found

end Normalizer

/-- tries normalizers in order, the first of them being number `i` -/
def normalizeFrom (input : String) : Nat → List Normalizer → Act (Except MatchError (List Normalized))
  | _, [] => return .ok [.identity input]
  | i, n :: rest => do
    match ← n.run input with
    | .ok found => return .ok (found.map fun s => ⟨some i, n.name, s⟩)
    | .error e =>
      if e.isUnmatched then normalizeFrom input (i + 1) rest else return .error (e.within (indexed "normalizer" i))

def compileNormalizers (env : Environment) (part : Part) (rules : List NormalizerRule) :
    Except ConfigError (List Normalizer) :=
  Selection.compileRules "normalizer" (Normalizer.compile env part) 0 rules

def normalize (rules : List Normalizer) (input : String) : Act (Except MatchError (List Normalized)) :=
  normalizeFrom input 0 rules

end Gleaner
