/-
Runs.

A run reads paths, one a line, and walks through the tree below each of them. Every line of every file gets the
categories of its file, rewritten by the category normalizers, and for each of them the nodes that the node rules find
in it, rewritten by the node normalizers. Each combination is one record.

A rule without a match adds nothing; any other failure ends the run. The signal is looked at before every path and
every line. Categories are kept by path and rewritten texts by text, over all runs of a pipeline.
-/
import Gleaner.Output
import Gleaner.Record
import Gleaner.Report
import Gleaner.Rules.Node
import Gleaner.Workspace

namespace Gleaner

structure Pipeline where
  ignore : Chain
  categories : List CategorySelector
  nodes : List NodeSelector
  categoryNormalizers : List Normalizer
  nodeNormalizers : List Normalizer
  /-- stops behind the categories -/
  categoryOnly : Bool := false

/-- compiles a configuration -/
def Pipeline.build (env : Environment) (c : Config) : Except ConfigError Pipeline := do
  let ignore ← foundAt "ignore" (Chain.compile env { part := .ignore } c.ignore)
  let categories ← compileCategories env c.category
  let nodes ← compileNodes env c.node
  let categoryNormalizers ←
    foundAt "normalizer.category" (compileNormalizers env .categoryNormalizer c.normalizer.category)
  let nodeNormalizers ← foundAt "normalizer.node" (compileNormalizers env .nodeNormalizer c.normalizer.node)
  return { ignore, categories, nodes, categoryNormalizers, nodeNormalizers }

/-! ## Runs -/

/-- how much a run has done -/
structure Summary where
  roots : Nat := 0
  lines : Nat := 0
  records : Nat := 0
  deriving DecidableEq, Repr

structure RunState where
  workspace : Workspace
  output : Output := {}
  summary : Summary := {}

abbrev Run := ExceptT RunError (StateM RunState)

namespace Run

def lift {α : Type} (a : StateM Workspace α) : Run α :=
  modifyGet fun s =>
    let (r, ws) := a s.workspace
    (r, { s with workspace := ws })

def act {α : Type} (a : Act α) : Run α := lift (Workspace.act a)

/-- fails if the signal is up -/
def checkSignal : Run Unit := do
  if ← act Act.cancelled then throw .cancelled

def count (add : Summary → Summary) : Run Unit := modify fun s => { s with summary := add s.summary }

/-- writes pieces; `wrap` makes the error of a write that is refused -/
def write (wrap : IoError → RunError) (pieces : List String) : Run Unit := do
  match ← modifyGet fun s =>
      let (output, e) := s.output.writeAll pieces
      (e, { s with output := output }) with
  | none => return
  | some e => throw (wrap e)

end Run

namespace Pipeline

def writeRecord (r : Record) : Run Unit := do
  Run.write (fun e => .encode e.message) r.json.pieces
  Run.write .output ["\n"]
  Run.count fun s => { s with records := s.records + 1 }

/-- the text of an entry, none if its rule has no match; any other failure ends the run -/
def selected? (stage : String) (line : FileLine) (s : Selection) : Run (Option String) :=
  match s.outcome with
  | .ok text => return some text
  | .error e => if e.unmatched then return none else throw (.selection stage line.render e.message)

/-- the rewritten texts; a failure ends the run -/
def normalized (stage : String) (line : FileLine) (act : StateM Workspace (Except MatchError (List Normalized))) :
    Run (List Normalized) := do
  match ← Run.lift act with
  | .ok found => return found
  | .error e => throw (.selection stage line.render e.message)

/-- the records of the nodes in a line of a file of a category -/
def processNodes (p : Pipeline) (root : ReadLine) (line : FileLine) (category : Selected) : Run Unit := do
  for node in ← Run.act (selectNodes p.nodes category.normalized.result line.content) do
    match ← selected? "node" line node with
    | none => pure ()
    | some value =>
      for n in ← normalized "node normalizer" line (Workspace.normalizeNode p.nodeNormalizers value) do
        writeRecord ⟨root, line, category, some ⟨node, n⟩⟩

/-- the records of a line -/
def processLine (p : Pipeline) (root : ReadLine) (line : FileLine) : Run Unit := do
  let categories ← Run.lift (Workspace.selectCategories p.categories line.path)
  if categories.any Selection.isCancelled then throw .cancelled
  for category in categories do
    match ← selected? "category" line category with
    | none => pure ()
    | some label =>
      let found ← normalized "category normalizer" line (Workspace.normalizeCategory p.categoryNormalizers label)
      for n in found do
        let chosen : Selected := ⟨category, n⟩
        if p.categoryOnly then writeRecord ⟨root, line, chosen, none⟩ else p.processNodes root line chosen

/-- the records of walked lines -/
def processLines (p : Pipeline) (root : ReadLine) : List FileLine → Run Unit
  | [] => Run.checkSignal
  | line :: rest => do
    Run.checkSignal
    match line.error with
    | some e => throw (.ofStream line.render e)
    | none =>
      Run.count fun s => { s with lines := s.lines + 1 }
      p.processLine root line
      p.processLines root rest

/-- the records of the tree below a path -/
def processRoot (p : Pipeline) (root : ReadLine) : Run Unit := do
  Run.count fun s => { s with roots := s.roots + 1 }
  p.processLines root (← Run.act (Walker.walk ⟨root.text, p.ignore⟩))

/-- the records of the trees below paths -/
def processRoots (p : Pipeline) : List ReadLine → Run Unit
  | [] => Run.checkSignal
  | root :: rest => do
    Run.checkSignal
    match root.error with
    | some e => throw (.ofStream ("input line " ++ toString root.number) e)
    | none =>
      if !Text.isBlank root.text then p.processRoot root
      p.processRoots rest

/-- the records of all paths of an input -/
def run (p : Pipeline) (input : Source) : Run Summary := do
  p.processRoots (← Run.act (Act.readLines input))
  return (← get).summary

end Pipeline

end Gleaner
