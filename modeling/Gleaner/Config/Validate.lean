/-
Which configurations mean something.

A stage has one of the fields `r`, `not`, `sh`, `glob` and `lua`, or `val` alone. `tmpl` goes with `r`, `val` with `r`
or `not`, and not both. A category rule has either stages for paths or stages for lines. The first fault in the order
of the sections is reported with its place.
-/
import Gleaner.Config.Basic
import Gleaner.Config.Error
import Gleaner.Text.Blank

namespace Gleaner

def invalid (reason : String) : Except ConfigError Unit := .error (.invalidMatcher reason)

def LuaSpec.validate (l : LuaSpec) : Except ConfigError Unit :=
  if Text.isBlank l.entry then invalid "lua requires entry"
  else if l.source.isSome == l.file.isSome then invalid "lua requires exactly one of src or file"
  else .ok ()

namespace StageSpec

/-- how many of the fields are set that say what a stage does -/
def primaries (s : StageSpec) : Nat :=
  [s.regex.isSome, s.negated.isSome, s.shell.isSome, s.glob.isSome, s.lua.isSome].count true

/-- the first of the texts that may not be blank and is -/
def blankField? (s : StageSpec) : Option String :=
  ([("sh", s.shell), ("glob", s.glob), ("tmpl", s.template)].find? fun (_, value) => value.any Text.isBlank).map (·.1)

def validate (s : StageSpec) : Except ConfigError Unit :=
  match s.blankField? with
  | some key => invalid (key ++ " must not be empty")
  | none =>
    let hasValues := !s.values.isEmpty
    match s.primaries with
    | 0 =>
      if s.template.isSome then invalid "tmpl requires r"
      else if hasValues then .ok ()
      else invalid "empty matcher"
    | 1 =>
      if s.template.isSome && s.regex.isNone then invalid "tmpl requires r"
      else if s.template.isSome && hasValues then invalid "tmpl and val cannot be combined"
      else if hasValues && s.regex.isNone && s.negated.isNone then invalid "val can only accompany r or not"
      else
        match s.lua with
        | some lua => lua.validate
        | none => .ok ()
    | _ => invalid "only one of r, not, sh, glob, lua can be specified"

end StageSpec

/-- checks the items of a list in order, the first of them being number `i` -/
def validateFrom {α : Type} (what : String) (check : α → Except ConfigError Unit) :
    Nat → List α → Except ConfigError Unit
  | _, [] => .ok ()
  | i, x :: rest => do
    foundAt (indexed what i) (check x)
    validateFrom what check (i + 1) rest

def validateAll {α : Type} (what : String) (check : α → Except ConfigError Unit) (xs : List α) :
    Except ConfigError Unit :=
  validateFrom what check 0 xs

def validateChain (stages : List StageSpec) : Except ConfigError Unit := validateAll "matcher" StageSpec.validate stages

def CategoryRule.validate (r : CategoryRule) : Except ConfigError Unit :=
  if r.filename.isEmpty == r.text.isEmpty then
    .error (.invalidSelector (labelled "category" r.name ++ " should have only either filename or text"))
  else
    foundAt (labelled "category" r.name) do
      validateChain r.filename
      validateChain r.text

def NodeRule.validate (r : NodeRule) : Except ConfigError Unit :=
  foundAt (labelled "node" r.name) (validateChain r.matcher)

def NormalizerRule.validate (r : NormalizerRule) : Except ConfigError Unit :=
  foundAt (labelled "normalizer" r.name) (validateChain r.matcher)

def Config.validate (c : Config) : Except ConfigError Unit := do
  foundAt "ignore" (validateChain c.ignore)
  validateAll "category" CategoryRule.validate c.category
  validateAll "node" NodeRule.validate c.node
  validateAll "category normalizer" NormalizerRule.validate c.normalizer.category
  validateAll "node normalizer" NormalizerRule.validate c.normalizer.node

end Gleaner
