/-
Node rules. A rule applies to the files of the categories that its pattern matches and runs its chain on their lines.
-/
import Gleaner.Rules.Selection

namespace Gleaner

structure NodeSelector where
  name : String
  category : Regex.Pattern
  chain : Chain

namespace NodeSelector

/-- compiles rule number `i` -/
def compile (env : Environment) (i : Nat) (rule : NodeRule) : Except ConfigError NodeSelector :=
  (foundAt (labelled "node" rule.name) (Chain.compile env { part := .node, rule := i } rule.matcher)).map fun chain =>
    ⟨rule.name, rule.category, chain⟩

/-- the nodes in a line of a file of a category -/
def select (s : NodeSelector) (category content : String) : Act MatchResult := do
  let label := "node category " ++ category
  let found ← Act.measure ("named-node-selector-" ++ s.name) <|
    if s.category.isMatch category then
      return Selection.located [label] (← s.chain.run content)
    else
      return .error (.unmatched (label ++ " does not match " ++ s.category.source))
  return Selection.located [labelled "node" s.name] found

end NodeSelector

def compileNodes (env : Environment) (rules : List NodeRule) : Except ConfigError (List NodeSelector) :=
  Selection.compileRules "node" (NodeSelector.compile env) 0 rules

def selectNodes (rules : List NodeSelector) (category content : String) : Act (List Selection) :=
  Selection.selectAll NodeSelector.name (fun rule => rule.select category content) 0 rules

end Gleaner
