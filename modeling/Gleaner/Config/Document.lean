/-
Configurations as documents.

`Config.tree` writes a configuration down and `Config.ofTree?` reads it back. Lists that are empty and fields that are
absent are left out, except for `category` and `node` of a configuration, the stages of rules and the entry of a Lua
script. Patterns are compiled as they are read, so a document with a bad pattern cannot be read.

`readDocument` takes a text in YAML, JSON or TOML, whichever fits first.
-/
import Gleaner.Config.Validate
import Gleaner.Json.Reader
import Gleaner.Yaml.Node
import Gleaner.Yaml.Printer
import Gleaner.Toml

namespace Gleaner

/-! ## Writing -/

namespace Tree

/-- a field that is left out if it has no value -/
def optionalField (key : String) (value : Option String) : List (String × Tree) :=
  (value.map fun s => (key, Tree.text s)).toList

/-- a field that is left out if it is an empty text -/
def textField (key : String) (s : String) : List (String × Tree) :=
  if s.isEmpty then [] else [(key, .text s)]

/-- a field that is left out if it is an empty list -/
def listField {α : Type} (key : String) (write : α → Tree) (xs : List α) : List (String × Tree) :=
  if xs.isEmpty then [] else [(key, .list .items (xs.map write))]

end Tree

open Gleaner.Tree

def LuaSpec.tree (l : LuaSpec) : Tree :=
  .table (optionalField "src" l.source ++ optionalField "file" l.file ++ [("entry", .text l.entry)])

def StageSpec.tree (s : StageSpec) : Tree :=
  .table <|
    optionalField "r" (s.regex.map (·.source)) ++ optionalField "not" (s.negated.map (·.source)) ++
    optionalField "sh" s.shell ++ optionalField "glob" s.glob ++
    (s.lua.map fun l => ("lua", l.tree)).toList ++
    optionalField "tmpl" s.template ++ listField "val" Tree.text s.values

def CategoryRule.tree (r : CategoryRule) : Tree :=
  .table (textField "name" r.name ++ listField "filename" StageSpec.tree r.filename ++
    listField "text" StageSpec.tree r.text)

def NodeRule.tree (r : NodeRule) : Tree :=
  .table (textField "name" r.name ++
    [("category", .text r.category.source), ("matcher", .list .items (r.matcher.map StageSpec.tree))])

def NormalizerRule.tree (r : NormalizerRule) : Tree :=
  .table (textField "name" r.name ++ [("matcher", .list .items (r.matcher.map StageSpec.tree))])

def Normalizers.tree (n : Normalizers) : Tree :=
  .table (listField "category" NormalizerRule.tree n.category ++ listField "node" NormalizerRule.tree n.node)

def Config.tree (c : Config) : Tree :=
  .table (listField "ignore" StageSpec.tree c.ignore ++
    [("category", .list .items (c.category.map CategoryRule.tree)),
      ("node", .list .items (c.node.map NodeRule.tree))] ++
    (if c.normalizer.isEmpty then [] else [("normalizer", c.normalizer.tree)]))

/-- the JSON text of a configuration -/
def Config.json (c : Config) : String := c.tree.toJson.render

/-- the YAML text of a configuration -/
def Config.yaml (c : Config) : String := Yaml.print c.tree

/-! ## Reading -/

def readPattern (t : Tree) : Option Regex.Pattern := do
  (Regex.Pattern.compile (← t.asText?)).toOption

def LuaSpec.ofTree? (t : Tree) : Option LuaSpec := do
  let [source, file, entry] ← t.record? ["src", "file", "entry"] | none
  return {
    source := ← fieldOr none (asOptional? asText?) source,
    file := ← fieldOr none (asOptional? asText?) file,
    entry := ← fieldOr "" asText? entry }

def StageSpec.ofTree? (t : Tree) : Option StageSpec := do
  let [regex, negated, shell, glob, lua, template, values] ←
    t.record? ["r", "not", "sh", "glob", "lua", "tmpl", "val"] | none
  return {
    regex := ← fieldOr none (asOptional? readPattern) regex,
    negated := ← fieldOr none (asOptional? readPattern) negated,
    shell := ← fieldOr none (asOptional? asText?) shell,
    glob := ← fieldOr none (asOptional? asText?) glob,
    lua := ← fieldOr none (asOptional? LuaSpec.ofTree?) lua,
    template := ← fieldOr none (asOptional? asText?) template,
    values := ← fieldOr [] (asList? asText?) values }

/-- a field that holds stages -/
def stagesOf : Option Tree → Option (List StageSpec) := fieldOr [] (asList? StageSpec.ofTree?)

def CategoryRule.ofTree? (t : Tree) : Option CategoryRule := do
  let [name, filename, text] ← t.record? ["name", "filename", "text"] | none
  return { name := ← fieldOr "" asText? name, filename := ← stagesOf filename, text := ← stagesOf text }

def NodeRule.ofTree? (t : Tree) : Option NodeRule := do
  let [name, category, matcher] ← t.record? ["name", "category", "matcher"] | none
  return { name := ← fieldOr "" asText? name, category := ← category >>= readPattern, matcher := ← stagesOf matcher }

def NormalizerRule.ofTree? (t : Tree) : Option NormalizerRule := do
  let [name, matcher] ← t.record? ["name", "matcher"] | none
  return { name := ← fieldOr "" asText? name, matcher := ← stagesOf matcher }

def Normalizers.ofTree? (t : Tree) : Option Normalizers := do
  let [category, node] ← t.record? ["category", "node"] | none
  return {
    category := ← fieldOr [] (asList? NormalizerRule.ofTree?) category,
    node := ← fieldOr [] (asList? NormalizerRule.ofTree?) node }

def Config.ofTree? (t : Tree) : Option Config := do
  let [ignore, category, node, normalizer] ← t.record? ["ignore", "category", "node", "normalizer"] | none
  return {
    ignore := ← stagesOf ignore,
    category := ← fieldOr [] (asList? CategoryRule.ofTree?) category,
    node := ← fieldOr [] (asList? NodeRule.ofTree?) node,
    normalizer := ← fieldOr {} Normalizers.ofTree? normalizer }

/-! ## Texts -/

/-- what a text says in the first notation that fits: YAML, JSON, TOML -/
def readDocument {α : Type} (read : Tree → Option α) (text : String) : Except ConfigError α :=
  let yaml := (Yaml.parse text).toOption.bind read
  let json := fun () => ((Json.parse text).toOption.map Tree.ofJson).bind read
  let toml := fun () => (Toml.parse text).toOption.bind read
  match yaml.or (json ()) |>.or (toml ()) with
  | some a => .ok a
  | none => .error (.unreadable none)

def Config.parse (text : String) : Except ConfigError Config := readDocument Config.ofTree? text

/-- a configuration that means something -/
def Config.parseValid (text : String) : Except ConfigError Config := do
  let c ← Config.parse text
  c.validate
  return c

end Gleaner
