/-
The command line.

Flags may stand before and behind the name of a command and its arguments; behind `--` everything is an argument. A
flag is given at most once on each side of the name. The first fault from left to right is reported, and what is
missing only if there is no other fault.
-/

namespace Gleaner

inductive Command where
  | run (sources : List String) (categoryOnly : Bool)
  | configCheck (sources : List String) (json : Bool)
  | re (regex : String) (template : Option String)
  | skeleton
  deriving DecidableEq, Repr

structure Options where
  debug : Bool := false
  metrics : Bool := false
  command : Command
  deriving DecidableEq, Repr

/-- why a command line is not carried out -/
inductive UsageError where
  | missingArgument
  | unknownArgument
  | unknownCommand
  | repeatedFlag
  | needlessValue
  | missingCommand
  | nothingGiven
  | help
  | version
  deriving DecidableEq, Repr

inductive Flag where
  | debug
  | metrics
  | category
  | json
  | help
  | version
  deriving DecidableEq, Repr

/-- what a command line is read against: the program itself or one of its commands -/
inductive Level where
  | program
  | run
  | configCheck
  | re
  | skeleton
  deriving DecidableEq, Repr

namespace Level

def commandNames : List (String × Level) :=
  [("run", .run), ("configcheck", .configCheck), ("re", .re), ("skeleton", .skeleton)]

/-- the name of the command that explains others -/
def helpName : String := "help"

def longFlag? (level : Level) (name : String) : Option Flag :=
  match name, level with
  | "debug", _ => some .debug
  | "metrics", _ => some .metrics
  | "help", _ => some .help
  | "version", .program => some .version
  | "category", .run => some .category
  | "json", .configCheck => some .json
  | _, _ => none

def shortFlag? (level : Level) (c : Char) : Option Flag :=
  match c, level with
  | 'h', _ => some .help
  | 'V', .program => some .version
  | 'C', .run => some .category
  | _, _ => none

/-- how many arguments there may be -/
def maxValues? : Level → Option Nat
  | .program => some 0
  | .run => none
  | .configCheck => none
  | .re => some 2
  | .skeleton => some 0

/-- how many arguments there must be -/
def minValues : Level → Nat
  | .program => 0
  | .run => 1
  | .configCheck => 1
  | .re => 1
  | .skeleton => 0

end Level

/-- a command line as far as it belongs to one level -/
structure LevelArguments where
  flags : List Flag := []
  values : List String := []
  /-- the command and what follows its name -/
  command : Option (Level × List String) := none

namespace LevelArguments

def addFlag (a : LevelArguments) (flag : Flag) : Except UsageError LevelArguments :=
  match flag with
  | .help => .error .help
  | .version => .error .version
  | _ => if a.flags.contains flag then .error .repeatedFlag else .ok { a with flags := a.flags ++ [flag] }

def addValue (level : Level) (a : LevelArguments) (value : String) : Except UsageError LevelArguments :=
  if level.maxValues?.any (· ≤ a.values.length) then .error .unknownArgument
  else .ok { a with values := a.values ++ [value] }

/-- a flag behind two dashes, which takes no value -/
def addLong (level : Level) (a : LevelArguments) (text : String) : Except UsageError LevelArguments :=
  let (name, value) := text.toList.span (· ≠ '=')
  match level.longFlag? (String.ofList name) with
  | none => .error .unknownArgument
  | some flag => if value.isEmpty then a.addFlag flag else .error .needlessValue

/-- flags behind one dash -/
def addShort (level : Level) (a : LevelArguments) : List Char → Except UsageError LevelArguments
  | [] => .ok a
  | c :: rest =>
    match level.shortFlag? c with
    | none => .error .unknownArgument
    | some flag => do (← a.addFlag flag).addShort level rest

/-- what asking for help on something answers -/
def explain : List String → UsageError
  | [] => .help
  | name :: rest =>
    if (name == Level.helpName || (Level.commandNames.lookup name).isSome) && rest.isEmpty then .help
    else .unknownCommand

/-- the arguments of one level; all that follow `--` are values -/
def read (level : Level) (onlyValues : Bool) (a : LevelArguments) : List String → Except UsageError LevelArguments
  | [] => .ok a
  | arg :: rest =>
    let command := if level = .program then Level.commandNames.lookup arg else none
    if onlyValues then
      if level = .program then
        .error (if command.isSome || arg == Level.helpName then .unknownArgument else .unknownCommand)
      else do read level true (← a.addValue level arg) rest
    else
      match command with
      | some l => .ok { a with command := some (l, rest) }
      | none =>
        if level = .program && arg == Level.helpName then .error (explain rest)
        else
          match arg.toList with
          | ['-', '-'] => read level true a rest
          | '-' :: '-' :: text => do read level false (← a.addLong level (String.ofList text)) rest
          | ['-'] => value arg rest
          | '-' :: text => do read level false (← a.addShort level text) rest
          | _ => value arg rest
where
  value (arg : String) (rest : List String) : Except UsageError LevelArguments :=
    if level = .program then .error .unknownCommand else do read level false (← a.addValue level arg) rest

end LevelArguments

namespace Options

/-- the command of a level from its arguments -/
def commandOf (level : Level) (a : LevelArguments) : Command :=
  match level with
  | .run => .run a.values (a.flags.contains .category)
  | .configCheck => .configCheck a.values (a.flags.contains .json)
  | .re => .re (a.values.headD "") a.values[1]?
  | _ => .skeleton

def parse (args : List String) : Except UsageError Options := do
  let outer ← LevelArguments.read .program false {} args
  match outer.command with
  | none => throw (if outer.flags.isEmpty then .nothingGiven else .missingCommand)
  | some (level, rest) =>
    let inner ← LevelArguments.read level false {} rest
    if inner.values.length < level.minValues then throw .missingArgument
    let given (flag : Flag) : Bool := outer.flags.contains flag || inner.flags.contains flag
    return { debug := given .debug, metrics := given .metrics, command := commandOf level inner }

/-- the level of what is logged -/
def logLevel (o : Options) : String := if o.debug then "debug" else "info"

end Options

end Gleaner
