/-
Records: what a run writes, one line of JSON for every node it finds, or for every category if it does not look for
nodes.
-/
import Gleaner.Rules.Normalizer
import Gleaner.Walk

namespace Gleaner

/-- what a rule gave, and what it was rewritten to -/
structure Selected where
  origin : Selection
  normalized : Normalized

def Selected.json (s : Selected) : Json := .object [("origin", s.origin.json), ("normalized", s.normalized.json)]

structure Record where
  root : ReadLine
  line : FileLine
  category : Selected
  node : Option Selected

namespace Record

def rootJson (r : ReadLine) : Json := .object [("linum", .ofNat r.number), ("text", .string r.text)]

def lineJson (l : FileLine) : Json :=
  .object [("linum", .ofNat l.number), ("content", .string l.content), ("path", .string l.path)]

def json (r : Record) : Json :=
  .object ([("path", rootJson r.root), ("line", lineJson r.line), ("category", r.category.json)] ++
    (r.node.map fun n => ("node", n.json)).toList)

end Record

end Gleaner
