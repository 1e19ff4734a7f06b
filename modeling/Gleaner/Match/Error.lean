/-
Why an input has no match. That a pattern does not fit is no failure but a result; the other errors are failures.
Both may be annotated on the way: the places follow the text of a result that does not fit and precede that of a
failure.
-/
import Gleaner.Lines

namespace Gleaner

inductive MatchError where
  | unmatched (reason : String)
  | scriptLoad (reason : String)
  | scriptCall (entry reason : String)
  | invalidReturn (entry got : String)
  | io (e : IoError)
  | stream (e : StreamError)
  | context (place : String) (inner : MatchError)
  deriving DecidableEq, Repr

namespace MatchError

def message : MatchError → String
  | .unmatched reason => "unmatched: " ++ reason
  | .scriptLoad reason => "lua script failed to load: " ++ reason
  | .scriptCall entry reason => "lua call to '" ++ entry ++ "' failed: " ++ reason
  | .invalidReturn entry got => "lua function '" ++ entry ++ "' returned " ++ got ++ " but should return string"
  | .io e => e.message
  | .stream e => e.message
  | .context place inner => place ++ ": " ++ inner.message

def isUnmatched : MatchError → Bool
  | .unmatched _ => true
  | .context _ inner => inner.isUnmatched
  | _ => false

def isCancelled : MatchError → Bool
  | .stream .cancelled => true
  | .context _ inner => inner.isCancelled
  | _ => false

/-- annotates an error with the part it came from -/
def within (e : MatchError) (place : String) : MatchError :=
  match e with
  | .unmatched reason => .unmatched (reason ++ ": " ++ place)
  | e => .context place e

/-- the error without its annotations -/
def innermost : MatchError → MatchError
  | .context _ inner => inner.innermost
  | e => e

end MatchError

end Gleaner
