/-
Syntax trees of patterns, as written: flags are still items of the text and classes are still lists of items. The
nesting of a tree is measured here because patterns nested too deeply are refused before they are given a meaning.
-/
import Gleaner.Unicode.CharSet

namespace Gleaner.Regex

/-- what is wrong with a pattern -/
inductive PatternError where
  | unclosedGroup
  | unopenedGroup
  | unclosedClass
  | badClassRange
  | badClassItem
  | missingOperand
  | badRepetition
  | badEscape
  | badHex
  | backReference
  | lookAround
  | badGroupName
  | duplicateGroupName
  | badFlags
  | badWordBoundary
  | unknownProperty
  | notUtf8
  | needsUnicode
  | nestedTooDeeply
  | tooLarge
  deriving DecidableEq, Repr

inductive Flag where
  | caseInsensitive
  | multiLine
  | dotMatchesNewline
  | swapGreed
  | unicode
  | crlf
  | ignoreBlanks
  deriving DecidableEq, Repr

/-- one letter of a flag group; the flags after the minus sign are switched off -/
inductive FlagItem where
  | minus
  | flag (f : Flag)
  deriving DecidableEq, Repr

inductive Assertion where
  | startLine
  | endLine
  | startText
  | endText
  | wordBoundary
  | notWordBoundary
  | wordStart
  | wordEnd
  | wordStartHalf
  | wordEndHalf
  deriving DecidableEq, Repr

/-- a single character; `twoDigitHex` marks one written with exactly two hexadecimal digits, which can mean a byte -/
structure Literal where
  char : Char
  twoDigitHex : Bool := false
  deriving DecidableEq, Repr

inductive AsciiClass where
  | alnum | alpha | ascii | blank | cntrl | digit | graph | lower | print | punct | space | upper | word | xdigit
  deriving DecidableEq, Repr

inductive PerlClass where
  | digit
  | space
  | word
  deriving DecidableEq, Repr

inductive PropertyQuery where
  | named (name : String)
  | valued (name value : String) (unequal : Bool)
  deriving DecidableEq, Repr

inductive SetOp where
  | intersection
  | difference
  | symmetricDifference
  deriving DecidableEq, Repr

/-- what can stand between square brackets -/
inductive ClassSet where
  | empty
  | literal (l : Literal)
  | range (lo hi : Literal)
  | ascii (cls : AsciiClass) (negated : Bool)
  | perl (cls : PerlClass) (negated : Bool)
  | property (query : PropertyQuery) (negated : Bool)
  | bracketed (negated : Bool) (set : ClassSet)
  | union (items : List ClassSet)
  | op (kind : SetOp) (lhs rhs : ClassSet)

inductive GroupKind where
  | capture (index : Nat) (name : Option String)
  | flagged (flags : List FlagItem)

inductive Ast where
  | empty
  | setFlags (flags : List FlagItem)
  | literal (l : Literal)
  | dot
  | assertion (a : Assertion)
  | perl (cls : PerlClass) (negated : Bool)
  | property (query : PropertyQuery) (negated : Bool)
  | cls (negated : Bool) (set : ClassSet)
  | repetition (min : Nat) (max : Option Nat) (greedy : Bool) (ast : Ast)
  | group (kind : GroupKind) (ast : Ast)
  | alternation (branches : List Ast)
  | concat (parts : List Ast)

mutual
/-- how deeply class items are nested -/
def ClassSet.depth : ClassSet → Nat
  | .bracketed _ set => set.depth + 1
  | .union items => ClassSet.depthList items + 1
  | .op _ lhs rhs => max lhs.depth rhs.depth + 1
  | _ => 0

def ClassSet.depthList : List ClassSet → Nat
  | [] => 0
  | item :: rest => max item.depth (ClassSet.depthList rest)
end

mutual
/-- how deeply a pattern is nested; single characters and assertions do not count -/
def Ast.depth : Ast → Nat
  | .cls _ set => set.depth + 1
  | .repetition _ _ _ ast => ast.depth + 1
  | .group _ ast => ast.depth + 1
  | .alternation branches => Ast.depthList branches + 1
  | .concat parts => Ast.depthList parts + 1
  | _ => 0

def Ast.depthList : List Ast → Nat
  | [] => 0
  | ast :: rest => max ast.depth (Ast.depthList rest)
end

/-- one item stands for itself, none for nothing -/
def ClassSet.ofItems : List ClassSet → ClassSet
  | [] => .empty
  | [item] => item
  | items => .union items

def Ast.ofParts : List Ast → Ast
  | [] => .empty
  | [part] => part
  | parts => .concat parts

def Ast.ofBranches : List Ast → Ast
  | [] => .empty
  | [branch] => branch
  | branches => .alternation branches

/-- whether the flags of a group switch a flag on or off; the first mention decides -/
def flagState (f : Flag) : List FlagItem → Option Bool :=
  go true
where
  go (on : Bool) : List FlagItem → Option Bool
    | [] => none
    | .minus :: rest => go false rest
    | .flag g :: rest => if g = f then some on else go on rest

end Gleaner.Regex
