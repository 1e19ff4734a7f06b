/-
Sets of characters by name, as patterns ask for them: a property, a category or a script by its bare name, or the
value of a property by `name=value`. Names are compared in lower case and without blanks, underscores, hyphens and a
leading "is".
-/
import Gleaner.Unicode.Property
import Gleaner.Unicode.Script

namespace Gleaner.Unicode

/-- the letters of a name that count in a comparison -/
def significant (name : List Char) : List Char :=
  (name.filter fun c => c != ' ' && c != '_' && c != '-' && c.toNat < 0x80).map Char.toLower

/-- the form of a name in which it is compared -/
def normalName (name : String) : String :=
  match name.toList with
  | a :: b :: rest =>
    if a.toLower = 'i' && b.toLower = 's' then
      let short := significant rest
      -- the category "C" has no spelling with a leading "is"
      String.ofList (if short = ['c'] then ['i', 's', 'c'] else short)
    else String.ofList (significant name.toList)
  | cs => String.ofList (significant cs)

/-- a bare name: properties go before categories, except for the three names that both could claim, and categories
before scripts -/
def named? (name : String) : Option CharSet :=
  let n := normalName name
  let ofProperty := if ["cf", "sc", "lc"].contains n then none else property? n
  ofProperty <|> category? n <|> script? n

/-- the value of a property -/
def valued? (name value : String) : Option CharSet :=
  let n := normalName name
  let v := normalName value
  if n = "gc" || n = "generalcategory" then category? v
  else if n = "sc" || n = "script" then script? v
  else if n = "scx" || n = "scriptextensions" then scriptUse? v
  else none

end Gleaner.Unicode
