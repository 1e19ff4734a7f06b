/-
Patterns ready for use. A pattern remembers its text, and two patterns are equal when their texts are.

`compile` refuses a text that is no pattern, is nested too deeply or is too large. A match gives the text of every
group, the whole match being group 0; a group that took no part in the match has no text.
-/
import Gleaner.Regex.Parser
import Gleaner.Regex.Search
import Gleaner.Regex.Size
import Gleaner.Regex.Template

namespace Gleaner.Regex

structure Pattern where
  source : String
  program : Program
  groupNames : Array (Option String)

instance : BEq Pattern := ⟨fun a b => a.source == b.source⟩

/-- the groups of a match -/
structure Match where
  groups : List (Option String)
  names : Array (Option String)

namespace Pattern

def compile (source : String) : Except PatternError Pattern := do
  let ast ← parse source
  let (e, _) ← translate {} ast
  if !e.fits then throw .tooLarge
  return { source := source, program := e.program, groupNames := e.groupNames }

/-- the text between two positions -/
def slice (text : Array Char) (lo hi : Nat) : String :=
  String.ofList (text.extract lo hi).toList

/-- the texts of the groups of a match -/
def groupTexts (text : Array Char) (slots : Slots) : List (Option String) :=
  (List.range (slots.size / 2)).map fun i => do
    let lo ← slots.getD (2 * i) none
    let hi ← slots.getD (2 * i + 1) none
    return slice text lo hi

/-- all matches in a text that do not overlap, from left to right -/
def findAll (p : Pattern) (text : String) : List Match :=
  let chars := text.toList.toArray
  (p.program.findAll chars).map fun slots => { groups := groupTexts chars slots, names := p.groupNames }

def isMatch (p : Pattern) (text : String) : Bool :=
  (p.program.search text.toList.toArray 0).isSome

end Pattern

namespace Match

/-- the text of a group; the empty text if it took no part -/
def group (m : Match) (i : Nat) : String := (m.groups.getD i none).getD ""

/-- the whole match -/
def whole (m : Match) : String := m.group 0

/-- the text of every group -/
def texts (m : Match) : List String := m.groups.map (·.getD "")

/-- the group a reference means -/
def lookup (m : Match) : GroupRef → Option String
  | .number n => m.groups.getD n none
  | .name text => do
    let i ← m.names.findIdx? (· == some text)
    m.groups.getD i none

/-- a template filled in from a match -/
def expand (m : Match) (template : String) : String := Template.expand template m.lookup

end Match

end Gleaner.Regex
