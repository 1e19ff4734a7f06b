/-
Shell programs.

A text is a list of bytes, each of them written as the character of that number. Words keep their quotes and are
expanded when they are needed, since what they stand for depends on what has been run before.
-/
import Gleaner.Text.Utf8

namespace Gleaner.Shell

/-- a word as it is written -/
abbrev Word := List Char

/-- the bytes of a text of characters below 256 -/
def toBytes (s : String) : Utf8.Bytes := s.toList.map fun c => c.toNat.toUInt8

def ofBytes (b : Utf8.Bytes) : String := String.ofList (b.map fun x => Char.ofNat x.toNat)

/-- a text as its bytes in UTF-8 -/
def ofText (s : String) : String := if s.toList.all (·.toNat < 128) then s else ofBytes (Utf8.encode s)

/-- the text that bytes stand for -/
def toText (s : String) : String := if s.toList.all (·.toNat < 128) then s else Utf8.decode (toBytes s)

inductive RedirectKind where
  | read
  | write
  | append
  | readWrite
  | dupIn
  | dupOut
  /-- output and messages together -/
  | both (append : Bool)
  /-- a text that follows in the program; it may be taken as it is written -/
  | here (verbatim : Bool)
  | hereWord
  deriving DecidableEq

structure Redirect where
  fd : Option Nat
  kind : RedirectKind
  word : Word

/-- how the arms of a case go on -/
inductive ArmEnd where
  | leave
  | fallThrough
  | testNext
  deriving DecidableEq

/-- conditions in double brackets -/
inductive Test where
  | word (w : Word)
  | unary (op : String) (w : Word)
  | binary (op : String) (a b : Word)
  | not (t : Test)
  | both (a b : Test)
  | either (a b : Test)

inductive Command where
  | empty
  | simple (assigns words : List Word)
  | redirected (c : Command) (redirects : List Redirect)
  | pipe (stages : List Command)
  | not (c : Command)
  | andThen (a b : Command)
  | orElse (a b : Command)
  | seq (a b : Command)
  | background (c : Command)
  | subshell (c : Command)
  | group (c : Command)
  | branch (cond yes no : Command)
  /-- as long as the condition is met, or until it is -/
  | loop (until_ : Bool) (cond body : Command)
  | for_ (name : String) (words : Option (List Word)) (body : Command)
  | forArith (init cond step : Word) (body : Command)
  | case_ (word : Word) (arms : List (List Word × Command × ArmEnd))
  | func (name : String) (body : Command)
  | test (t : Test)
  | arith (text : Word)

instance : Inhabited Command := ⟨.empty⟩
instance : Inhabited Test := ⟨.word []⟩

end Gleaner.Shell
