/-
Glob patterns over paths. A star and a question mark stay within one component of a path, as do classes; two stars
form a component of their own and stand for any number of components. A pattern that breaks these rules is refused,
with the position of the fault counted in characters.
-/

namespace Gleaner

namespace Glob

inductive GlobErrorKind where
  | tooManyStars
  | starsInsideComponent
  | invalidRange
  deriving DecidableEq, Repr

structure GlobError where
  kind : GlobErrorKind
  position : Nat
  deriving DecidableEq, Repr

def GlobErrorKind.message : GlobErrorKind → String
  | .tooManyStars => "wildcards are either regular `*` or recursive `**`"
  | .starsInsideComponent => "recursive wildcards must form a single path component"
  | .invalidRange => "invalid range pattern"

def GlobError.message (e : GlobError) : String :=
  "Pattern syntax error near position " ++ toString e.position ++ ": " ++ e.kind.message

/-- what is wrong with a pattern -/
def GlobError.describe (e : GlobError) (pattern : String) : String :=
  "Invalid glob pattern: " ++ pattern ++ ": " ++ e.message

inductive Token where
  | char (c : Char)
  | anyChar
  | within (ranges : List (Char × Char))
  | except (ranges : List (Char × Char))
  | star
  | components
  deriving DecidableEq, Repr

end Glob

structure Glob where
  source : String
  tokens : List Glob.Token
  deriving Repr

namespace Glob

instance : BEq Glob := ⟨fun a b => a.source == b.source⟩

/-- the members of a class: ranges and single characters -/
def ranges : List Char → List (Char × Char)
  | lo :: '-' :: hi :: rest => (lo, hi) :: ranges rest
  | c :: rest => (c, c) :: ranges rest
  | [] => []

/-- a class behind its opening bracket: the token, how many characters it takes, and the rest. The first member may be
a closing bracket. -/
def readClass? : List Char → Option (Token × Nat × List Char)
  | '!' :: first :: rest =>
    match rest.span (· != ']') with
    | (more, _ :: after) => some (.except (ranges (first :: more)), more.length + 3, after)
    | (_, []) => none
  | ['!'] => none
  | first :: rest =>
    match rest.span (· != ']') with
    | (more, _ :: after) => some (.within (ranges (first :: more)), more.length + 2, after)
    | (_, []) => none
  | [] => none

/-- reads the tokens from position `pos` on. `previous` is the character before it, and the tokens read so far are
kept in reverse. Two neighbouring component wildcards are one, unless they begin the pattern. -/
def readTokens : Nat → Nat → Option Char → List Token → List Char → Except GlobError (List Token)
  | 0, _, _, acc, _ => .ok acc.reverse
  | _, _, _, acc, [] => .ok acc.reverse
  | fuel + 1, pos, previous, acc, c :: rest =>
    if c = '?' then readTokens fuel (pos + 1) (some c) (.anyChar :: acc) rest
    else if c = '*' then
      match rest with
      | '*' :: '*' :: _ => .error ⟨.tooManyStars, pos + 2⟩
      | '*' :: after =>
        if previous.any (· != '/') then .error ⟨.starsInsideComponent, pos - 1⟩
        else
          let acc := if acc.length > 1 && acc.head? = some .components then acc else .components :: acc
          match after with
          | [] => .ok acc.reverse
          | d :: more =>
            if d = '/' then readTokens fuel (pos + 3) (some d) acc more
            else .error ⟨.starsInsideComponent, pos + 2⟩
      | _ => readTokens fuel (pos + 1) (some c) (.star :: acc) rest
    else if c = '[' then
      match readClass? rest with
      | some (token, taken, after) => readTokens fuel (pos + 1 + taken) (some ']') (token :: acc) after
      | none => .error ⟨.invalidRange, pos⟩
    else readTokens fuel (pos + 1) (some c) (.char c :: acc) rest

def compile (source : String) : Except GlobError Glob := do
  let tokens ← readTokens (source.length + 1) 0 none [] source.toList
  return { source := source, tokens := tokens }

/-- how an attempt ends: no match of the rest, or no hope for the whole because the text is too short -/
inductive Outcome where
  | matched
  | failed
  | exhausted
  deriving DecidableEq, Repr

/-- tries the rest of a pattern behind ever more characters of one component -/
def tryStar (rest : List Char → Outcome) : List Char → Outcome
  | [] => rest []
  | c :: cs =>
    match rest (c :: cs) with
    | .failed => if c = '/' then .failed else tryStar rest cs
    | outcome => outcome

/-- tries the rest of a pattern here and behind each further component; `fresh` says that a component starts here -/
def tryComponents (rest : List Char → Outcome) : Bool → List Char → Outcome
  | _, [] => rest []
  | true, c :: cs =>
    match rest (c :: cs) with
    | .failed => tryComponents rest (c = '/') cs
    | outcome => outcome
  | false, c :: cs => tryComponents rest (c = '/') cs

def inRanges (c : Char) (rs : List (Char × Char)) : Bool := rs.any fun (lo, hi) => lo ≤ c && c ≤ hi

/-- a token that takes one character -/
def Token.accepts (t : Token) (c : Char) : Bool :=
  match t with
  | .char d => c = d
  | .anyChar => c != '/'
  | .within rs => c != '/' && inRanges c rs
  | .except rs => c != '/' && !inRanges c rs
  | _ => false

def attempt : List Token → List Char → Outcome
  | [], cs => if cs.isEmpty then .matched else .failed
  | .star :: tokens, cs => tryStar (attempt tokens) cs
  | .components :: tokens, cs => tryComponents (attempt tokens) true cs
  | t :: tokens, cs =>
    match cs with
    | [] => .exhausted
    | c :: rest => if t.accepts c then attempt tokens rest else .failed

def isMatch (g : Glob) (path : String) : Bool := attempt g.tokens path.toList == .matched

end Glob

end Gleaner
