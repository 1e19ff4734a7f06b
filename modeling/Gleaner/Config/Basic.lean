/-
Configurations: the rules of a run, as they are written down.

A stage of a chain is written with the fields that it uses; `Config.Validate` says which combinations mean something.
Two configurations are merged list by list, so merging is associative and the empty configuration changes nothing.
-/
import Gleaner.Regex.Pattern

namespace Gleaner

/-- a Lua script and the function of it that is called -/
structure LuaSpec where
  source : Option String := none
  file : Option String := none
  entry : String := ""
  deriving BEq

/-- a stage of a chain -/
structure StageSpec where
  regex : Option Regex.Pattern := none
  negated : Option Regex.Pattern := none
  shell : Option String := none
  glob : Option String := none
  lua : Option LuaSpec := none
  template : Option String := none
  values : List String := []
  deriving BEq

/-- a rule that classifies files, by their paths or by their lines -/
structure CategoryRule where
  name : String := ""
  filename : List StageSpec := []
  text : List StageSpec := []
  deriving BEq

/-- a rule that finds nodes in the lines of files of some categories -/
structure NodeRule where
  name : String := ""
  category : Regex.Pattern
  matcher : List StageSpec := []
  deriving BEq

/-- a rule that rewrites categories or nodes -/
structure NormalizerRule where
  name : String := ""
  matcher : List StageSpec := []
  deriving BEq

structure Normalizers where
  category : List NormalizerRule := []
  node : List NormalizerRule := []
  deriving BEq

def Normalizers.isEmpty (n : Normalizers) : Bool := n.category.isEmpty && n.node.isEmpty

structure Config where
  /-- matches the paths a walk leaves out -/
  ignore : List StageSpec := []
  category : List CategoryRule := []
  node : List NodeRule := []
  normalizer : Normalizers := {}
  deriving BEq

/-- the lists of one configuration followed by those of another -/
def Config.merge (a b : Config) : Config where
  ignore := a.ignore ++ b.ignore
  category := a.category ++ b.category
  node := a.node ++ b.node
  normalizer := {
    category := a.normalizer.category ++ b.normalizer.category,
    node := a.normalizer.node ++ b.normalizer.node }

/-! ## Building stages -/

namespace StageSpec

def ofRegex (p : Regex.Pattern) : StageSpec := { regex := some p }
def ofNegated (p : Regex.Pattern) : StageSpec := { negated := some p }
def ofShell (body : String) : StageSpec := { shell := some body }
def ofGlob (pattern : String) : StageSpec := { glob := some pattern }
def ofLua (source entry : String) : StageSpec := { lua := some { source := some source, entry := entry } }
def withValues (s : StageSpec) (values : List String) : StageSpec := { s with values := values }
def withTemplate (s : StageSpec) (template : String) : StageSpec := { s with template := some template }
def ofValues (values : List String) : StageSpec := withValues {} values

end StageSpec

end Gleaner
