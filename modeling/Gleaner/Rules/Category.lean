/-
Category rules. A rule looks either at the path of a file or at its lines, where the first line that has a match
decides. Results are kept by path; they are not kept if the signal cut one of them short.
-/
import Gleaner.Rules.Selection

namespace Gleaner

inductive CategoryMode where
  | filename
  | text
  deriving DecidableEq

structure CategorySelector where
  name : String
  mode : CategoryMode
  chain : Chain

namespace CategorySelector

/-- compiles rule number `i` -/
def compile (env : Environment) (i : Nat) (rule : CategoryRule) : Except ConfigError CategorySelector :=
  let label := labelled "category" rule.name
  let chain (mode : CategoryMode) (stages : List StageSpec) : Except ConfigError CategorySelector :=
    (foundAt label (Chain.compile env { part := .category, rule := i } stages)).map (⟨rule.name, mode, ·⟩)
  match rule.filename.isEmpty, rule.text.isEmpty with
  | false, true => chain .filename rule.filename
  | true, false => chain .text rule.text
  | _, _ => .error (.invalidSelector (label ++ " should have only either filename or text"))

/-- runs a chain on lines up to the first that has a match -/
def firstMatch (c : Chain) : List ReadLine → Act MatchResult
  | [] => return .error (.unmatched "no line matched")
  | line :: rest => do
    match line.error with
    | some e => return .error (.stream e)
    | none =>
      match ← c.run line.text with
      | .ok found => return .ok found
      | .error e =>
        if e.isUnmatched then firstMatch c rest else return .error (e.within ("line " ++ toString line.number))

/-- runs a chain on the lines of a file -/
def scanFile (c : Chain) (path : String) : Act MatchResult := do
  match (← get).files.openFile path with
  | .error e =>
    Act.warn ("cannot open " ++ path ++ ": " ++ e.message)
    return .error (.unmatched ("cannot open: " ++ e.message))
  | .ok source => firstMatch c (← Act.readLines source)

/-- the categories of the file at a path -/
def select (s : CategorySelector) (path : String) : Act MatchResult := do
  let found ← Act.measure ("named-category-selector-" ++ s.name) <|
    match s.mode with
    | .filename => s.chain.run path
    | .text => scanFile s.chain path
  let what := match s.mode with
    | .filename => "file category "
    | .text => "text category "
  return Selection.located [what ++ path, labelled "category" s.name] found

end CategorySelector

def compileCategories (env : Environment) (rules : List CategoryRule) : Except ConfigError (List CategorySelector) :=
  Selection.compileRules "category" (CategorySelector.compile env) 0 rules

def selectCategories (rules : List CategorySelector) (path : String) : Act (List Selection) :=
  Selection.selectAll CategorySelector.name (fun rule => rule.select path) 0 rules

end Gleaner
