/-
Tools that scripts call: functions from arguments and input to output.

A tool reads its input as far as it wants and no further, since what it leaves is read by the next one. Input may go on
forever; a tool that reads to the end of such an input never ends.
-/
import Gleaner.Shell.Syntax

namespace Gleaner.Shell

/-- what a tool is given -/
structure Given where
  name : String
  args : List String
  input : List Char
  /-- the text of a file, or why it cannot be read -/
  read : String → Except String String
  vars : List (String × String) := []

/-- how much of its input a tool has read -/
inductive Used where
  | nothing
  | all
  | up_to (n : Nat)
  deriving DecidableEq

structure Result where
  out : String := ""
  messages : String := ""
  status : Nat := 0
  used : Used := .all
  /-- the output goes on forever -/
  endless : Bool := false

abbrev Tool := Given → Result

namespace Given

/-- a message of a tool and a status that is no success -/
def refuse (g : Given) (status : Nat) (message : String) : Result :=
  { messages := g.name ++ ": " ++ message ++ "\n", status := status, used := .nothing }

end Given

/-! ## Options -/

structure Options where
  flags : List (String × String) := []
  operands : List String := []

namespace Options

def has (o : Options) (names : List String) : Bool := o.flags.any fun (f, _) => names.contains f

/-- the last value of an option -/
def value? (o : Options) (names : List String) : Option String :=
  (o.flags.reverse.find? fun (f, _) => names.contains f).map (·.2)

def values (o : Options) (names : List String) : List String :=
  (o.flags.filter fun (f, _) => names.contains f).map (·.2)

end Options

/-- takes letters behind a dash apart; a letter of `valued` takes the rest as its value, or the next argument -/
def splitLetters (valued : List Char) : List Char → List String → List (String × String) × List String
  | [], args => ([], args)
  | c :: more, args =>
    if valued.contains c then
      if more.isEmpty then
        match args with
        | v :: rest => ([(String.singleton c, v)], rest)
        | [] => ([(String.singleton c, "")], [])
      else ([(String.singleton c, String.ofList more)], args)
    else
      let (flags, args) := splitLetters valued more args
      ((String.singleton c, "") :: flags, args)

/-- sorts arguments into options and others. Long options are called by their name without dashes; those in
`longValued` may take the next argument as their value. -/
def readOptions (valued : List Char) (longValued : List String) : Nat → List String → Options → Options
  | 0, _, o => o
  | _, [], o => o
  | fuel + 1, a :: rest, o =>
    let next := readOptions valued longValued fuel
    match a.toList with
    | ['-', '-'] => { o with operands := o.operands ++ rest }
    | '-' :: '-' :: long =>
      match long.span (· ≠ '=') with
      | (name, '=' :: v) => next rest { o with flags := o.flags ++ [(String.ofList name, String.ofList v)] }
      | (name, _) =>
        let name := String.ofList name
        match longValued.contains name, rest with
        | true, v :: rest => next rest { o with flags := o.flags ++ [(name, v)] }
        | _, _ => next rest { o with flags := o.flags ++ [(name, "")] }
    | '-' :: c :: letters =>
      let (flags, rest) := splitLetters valued (c :: letters) rest
      next rest { o with flags := o.flags ++ flags }
    | _ => next rest { o with operands := o.operands ++ [a] }

def options (valued : String) (longValued : List String) (args : List String) : Options :=
  readOptions valued.toList longValued (args.length + 1) args {}

/-! ## Inputs -/

/-- what the operands of a tool stand for: texts with their names, or messages about those that cannot be read -/
structure Inputs where
  texts : List (String × String) := []
  messages : String := ""
  fromInput : Bool := false

def inputs (g : Given) (names : List String) : Inputs :=
  let names := if names.isEmpty then ["-"] else names
  names.foldl (fun (acc : Inputs) name =>
    if name == "-" || name == "/dev/stdin" then
      let text := if acc.fromInput then "" else String.ofList g.input
      { acc with texts := acc.texts ++ [(name, text)], fromInput := true }
    else
      match g.read name with
      | .ok text => { acc with texts := acc.texts ++ [(name, text)] }
      | .error why => { acc with messages := acc.messages ++ g.name ++ ": " ++ name ++ ": " ++ why ++ "\n" }) {}

namespace Inputs

def all (i : Inputs) : String := String.join (i.texts.map (·.2))

/-- a result of a tool that has read these texts to the end -/
def result (i : Inputs) (out : String) (status : Nat) : Result :=
  { out := out, messages := i.messages, status := if i.messages.isEmpty then status else max status 1,
    used := if i.fromInput then .all else .nothing }

end Inputs

/-- the lines of a text, each without its line feed, and whether the last had one -/
def linesOf (s : String) : List String × Bool :=
  if s.isEmpty then ([], true)
  else
    let parts := s.splitOn "\n"
    if parts.getLast? = some "" then (parts.dropLast, true) else (parts, false)

def joinLines (lines : List String) : String := String.join (lines.map (· ++ "\n"))

/-- joins lines; the last ends as the text they come from did -/
def joinLike (ended : Bool) (lines : List String) : String :=
  if ended then joinLines lines else String.intercalate "\n" lines

/-- applies a function to each line -/
def mapLines (f : String → String) (s : String) : String :=
  let (lines, ended) := linesOf s
  joinLike ended (lines.map f)

/-- fills up on the left -/
def padLeft (width : Nat) (s : String) : String := String.ofList (List.replicate (width - s.length) ' ') ++ s

end Gleaner.Shell
