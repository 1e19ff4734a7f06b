/-
What is kept between the runs of a pipeline: the world and the results of rules. Categories are kept by path, rewritten
texts by text.
-/
import Gleaner.Memo
import Gleaner.Rules.Category
import Gleaner.Rules.Normalizer

namespace Gleaner

/-- the world and the results that are kept -/
structure Workspace where
  world : World := {}
  categories : Memo (List Selection) := .empty
  categoryNormalizers : Memo (List Normalized) := .empty
  nodeNormalizers : Memo (List Normalized) := .empty

namespace Workspace

def act {α : Type} (a : Act α) : StateM Workspace α :=
  fun ws =>
    let (r, world) := a ws.world
    (r, { ws with world := world })

/-- the categories of a path; they are not kept if the signal cut one short -/
def selectCategories (rules : List CategorySelector) (path : String) : StateM Workspace (List Selection) :=
  fun ws =>
    let compute (ws : Workspace) : Except (List Selection) (List Selection) × Workspace :=
      let (found, ws) := act (Gleaner.selectCategories rules path) ws
      (if found.any Selection.isCancelled then .error found else .ok found, ws)
    match Memo.getOrTry (·.categories) (fun ws m => { ws with categories := m }) path compute ws with
    | (.ok found, ws) => (found, ws)
    | (.error found, ws) => (found, ws)

def normalizeCategory (rules : List Normalizer) (label : String) :
    StateM Workspace (Except MatchError (List Normalized)) :=
  Memo.getOrTry (·.categoryNormalizers) (fun ws m => { ws with categoryNormalizers := m }) label
    (act (normalize rules label))

def normalizeNode (rules : List Normalizer) (value : String) :
    StateM Workspace (Except MatchError (List Normalized)) :=
  Memo.getOrTry (·.nodeNormalizers) (fun ws m => { ws with nodeNormalizers := m }) value
    (act (normalize rules value))

end Workspace

end Gleaner
