/-
What can be wrong with a configuration. An error may be annotated with the places it was found at, the innermost one
first; annotations follow the text of the error.
-/

namespace Gleaner

inductive ConfigError where
  | invalidMatcher (reason : String)
  | invalidSelector (reason : String)
  /-- the reason is left out where it would be a description of the pattern language -/
  | invalidPattern (pattern : String) (reason : Option String)
  /-- no notation fits the text -/
  | unreadable (reason : Option String)
  | noConfig
  | context (place : String) (inner : ConfigError)
  deriving DecidableEq, Repr

namespace ConfigError

/-- a reason behind a colon -/
def because (reason : Option String) : String :=
  match reason with
  | some r => ": " ++ r
  | none => ""

def message : ConfigError → String
  | .invalidMatcher reason => "invalid matcher: " ++ reason
  | .invalidSelector reason => "invalid selector: " ++ reason
  | .invalidPattern pattern reason => "invalid pattern '" ++ pattern ++ "'" ++ because reason
  | .unreadable reason => "failed to parse config" ++ because reason
  | .noConfig => "no config given"
  | .context place inner => inner.message ++ ": " ++ place

/-- annotates an error with a place -/
def found (e : ConfigError) (place : String) : ConfigError := .context place e

/-- the error without its annotations -/
def innermost : ConfigError → ConfigError
  | .context _ inner => inner.innermost
  | e => e

end ConfigError

/-- annotates the error of a failed result with a place -/
def foundAt {α : Type} (place : String) (r : Except ConfigError α) : Except ConfigError α :=
  match r with
  | .ok a => .ok a
  | .error e => .error (e.found place)

/-- a place of a list: `matcher[3]` -/
def indexed (what : String) (i : Nat) : String := what ++ "[" ++ toString i ++ "]"

/-- a named part: `category(shell)` -/
def labelled (what name : String) : String := what ++ "(" ++ name ++ ")"

end Gleaner
