/-
Templates: text in which a dollar sign introduces the text of a capture group, by number or name, with or without
braces. Two dollar signs stand for one. A dollar sign that introduces nothing stands for itself, and a group that does
not exist or took no part in the match gives the empty text.
-/

namespace Gleaner.Regex

inductive GroupRef where
  | number (n : Nat)
  | name (text : String)
  deriving DecidableEq, Repr

inductive TemplatePart where
  | text (c : Char)
  | group (ref : GroupRef)
  deriving DecidableEq, Repr

def isRefChar (c : Char) : Bool := c.isAlphanum || c = '_'

/-- a reference is a number if it reads as one that fits a machine word, a plus sign before it allowed -/
def GroupRef.ofText (cs : List Char) : GroupRef :=
  let digits := match cs with
    | '+' :: rest => rest
    | _ => cs
  let value := digits.foldl (fun n c => n * 10 + (c.toNat - '0'.toNat)) 0
  if !digits.isEmpty && digits.all Char.isDigit && value < 1 <<< 64 then .number value
  else .name (String.ofList cs)

/-- the reference behind a dollar sign and what follows it -/
def groupRef? (cs : List Char) : Option (GroupRef × List Char) :=
  match cs with
  | '\x7b' :: rest =>
    match rest.span (· != '\x7d') with
    | (name, _ :: after) => some (.ofText name, after)
    | (_, []) => none
  | _ =>
    match cs.span isRefChar with
    | ([], _) => none
    | (name, after) => some (.ofText name, after)

/-- the parts of a template; fuel is its length -/
def templateParts : Nat → List Char → List TemplatePart
  | 0, _ => []
  | _, [] => []
  | fuel + 1, '$' :: '$' :: rest => .text '$' :: templateParts fuel rest
  | fuel + 1, '$' :: rest =>
    match groupRef? rest with
    | some (ref, after) => .group ref :: templateParts fuel after
    | none => .text '$' :: templateParts fuel rest
  | fuel + 1, c :: rest => .text c :: templateParts fuel rest

def Template.parse (template : String) : List TemplatePart :=
  templateParts template.length template.toList

/-- fills in a template, given the text of each group -/
def Template.expand (template : String) (group : GroupRef → Option String) : String :=
  (Template.parse template).foldl (fun out part => match part with
    | .text c => out.push c
    | .group ref => out ++ (group ref).getD "") ""

end Gleaner.Regex
