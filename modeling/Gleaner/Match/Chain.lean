/-
Chains of stages.

A chain starts from one text. Each stage is applied to every text there is, in order, and their outputs are the texts
for the next stage. A text without a match is dropped, a stage that leaves nothing ends the chain without a match, and
a failure ends it at once. A chain without stages never matches.
-/
import Gleaner.Match.Stage

namespace Gleaner

structure Chain where
  /-- where the first stage stands -/
  place : Place
  stages : List Stage

namespace Chain

/-- the chain that never matches -/
def empty : Chain := ⟨{}, []⟩

/-- the stages of specifications, the first of them being number `i` -/
def compileFrom (env : Environment) : Nat → List StageSpec → Except ConfigError (List Stage)
  | _, [] => .ok []
  | i, spec :: rest => do
    let stage ← foundAt (indexed "matcher" i) do
      spec.validate
      Stage.ofSpec env spec
    return stage :: (← compileFrom env (i + 1) rest)

def compile (env : Environment) (place : Place) (specs : List StageSpec) : Except ConfigError Chain :=
  (compileFrom env 0 specs).map fun stages => ⟨place, stages⟩

/-- the reason why a stage leaves nothing, or the annotation of its failures -/
def stageLabel (i : Nat) : String := indexed "matcher chain" i

/-- applies a stage to texts, dropping those without a match. What the texts before gave is in `done`, the latest
first. -/
def applyFrom (s : Stage) (place : Place) (last : Bool) (done : List (List String)) : List String → Act MatchResult
  | [] => return .ok done.reverse.flatten
  | input :: rest => do
    match ← Act.measure ("matcher-" ++ s.kind) (s.apply place last input) with
    | .ok found => applyFrom s place last (found :: done) rest
    | .error e =>
      if e.isUnmatched then applyFrom s place last done rest
      else return .error (e.within (stageLabel place.stage))

/-- the outputs of a stage for several texts, one after the other -/
def applyAll (s : Stage) (place : Place) (last : Bool) (texts : List String) : Act MatchResult :=
  applyFrom s place last [] texts

/-- runs texts through stages, the first of them standing at a place -/
def runFrom : Place → List Stage → List String → Act MatchResult
  | _, [], texts => return .ok texts
  | place, s :: rest, texts => do
    match ← applyAll s place rest.isEmpty texts with
    | .error e => return .error e
    | .ok [] => return .error (.unmatched (stageLabel place.stage))
    | .ok found => runFrom { place with stage := place.stage + 1 } rest found

/-- runs a text through a chain -/
def run (c : Chain) (input : String) : Act MatchResult :=
  if c.stages.isEmpty then return .error (.unmatched "empty matcher chain")
  else runFrom c.place c.stages [input]

end Chain

end Gleaner
