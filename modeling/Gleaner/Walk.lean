/-
Walks through file trees.

A walk visits a root and everything below it, depth first, each directory before its entries and these in the order of
their names. What the ignore chain matches is left out, a directory with everything below it. Every file that is left,
also one behind a link, gives its lines.

A link to a directory is entered only if it is the root. Such a root is no directory itself: if it is ignored, the
walk still goes on below it. An entry that cannot be looked at is skipped with a warning. A file that fails to be read
to its end ends with an item that says so, and the walk goes on; a failure of the ignore chain and the signal end it.
-/
import Gleaner.Match.Chain

namespace Gleaner

/-- a line of a file, or the error at the end of a stream -/
structure FileLine where
  number : Nat := 0
  content : String := ""
  path : String
  error : Option StreamError := none
  deriving DecidableEq, Repr

def FileLine.render (l : FileLine) : String := "at " ++ l.path ++ ":" ++ toString l.number ++ ":" ++ l.content

def FileLine.ofReadLine (path : String) (l : ReadLine) : FileLine :=
  { number := l.number, content := l.text, path := path, error := l.error }

/-! ## Order of entries -/

/-- puts an entry where it belongs among sorted ones -/
def insertByName (entry : String × FileNode) : List (String × FileNode) → List (String × FileNode)
  | [] => [entry]
  | other :: rest => if other.1 < entry.1 then other :: insertByName entry rest else entry :: other :: rest

mutual
/-- the same tree with the entries of every directory in the order of their names -/
def FileNode.arranged : FileNode → FileNode
  | .dir entries => .dir (arrangedEntries entries)
  | n => n

def arrangedEntries : List (String × FileNode) → List (String × FileNode)
  | [] => []
  | (name, n) :: rest => insertByName (name, n.arranged) (arrangedEntries rest)
end

/-! ## Walking -/

/-- the path of an entry of a directory -/
def joinPath (dir name : String) : String := if dir.endsWith '/' then dir ++ name else dir ++ "/" ++ name

/-- what a walk has found and left out, and whether it goes on -/
structure Walked where
  lines : List FileLine := []
  /-- the paths that the ignore chain has matched -/
  left : List String := []
  goesOn : Bool := true

/-- one part of a walk and another after it -/
def Walked.andThen (first others : Walked) : Walked :=
  { others with lines := first.lines ++ others.lines, left := first.left ++ others.left }

structure Walker where
  root : String
  ignore : Chain

namespace Walker

/-- one look at the signal: what the walk ends with if it is up -/
def interruption? (w : Walker) : Act (Option FileLine) := do
  if ← Act.cancelled then return some { path := w.root, error := some .cancelled } else return none

/-- whether a path is ignored, or what the walk ends with if that cannot be said -/
def isIgnored (w : Walker) (path : String) : Act (Except FileLine Bool) := do
  match ← w.ignore.run path with
  | .ok _ => return .ok true
  | .error e =>
    if e.isUnmatched then return .ok false
    else return .error { path := path, error := some (.ignore path e.message) }

/-- the lines of a file; the walk ends if the signal cut them short -/
def scanFile (path : String) : Act Walked := do
  match (← get).files.openFile path with
  | .error e =>
    Act.warn ("cannot open " ++ path ++ ": " ++ e.message)
    return {}
  | .ok source =>
    let items := (← Act.readLines source).map (FileLine.ofReadLine path)
    return { lines := items, goesOn := !items.any fun l => l.error == some .cancelled }

/-- visits an entry that has no entries to be visited -/
def visitLeaf (path : String) : Act Walked := do
  if (← get).files.isFile path then scanFile path else return {}

/-- visits an entry; `below` are the entries below it, and `prunes` tells whether they are left out with it -/
def visit (w : Walker) (path : String) (prunes : Bool) (below : Act Walked) : Act Walked := do
  match ← w.interruption? with
  | some stop => return { lines := [stop], goesOn := false }
  | none =>
    match ← w.isIgnored path with
    | .error stop => return { lines := [stop], goesOn := false }
    | .ok true =>
      let here : Walked := { left := [path] }
      if prunes then return here
      return here.andThen (← below)
    | .ok false =>
      let here ← visitLeaf path
      if !here.goesOn then return here
      return here.andThen (← below)

mutual
/-- walks from a node that a path leads to -/
def walkNode (w : Walker) (path : String) : FileNode → Act Walked
  | .dir entries => w.visit path true (walkEntries w path entries)
  | _ => w.visit path true (return {})

/-- walks through entries of a directory -/
def walkEntries (w : Walker) (dir : String) : List (String × FileNode) → Act Walked
  | [] => return {}
  | (name, n) :: rest => do
    let first ← walkNode w (joinPath dir name) n
    if !first.goesOn then return first
    return first.andThen (← walkEntries w dir rest)
end

/-- an entry that cannot be looked at -/
def skipEntry (w : Walker) (path : String) (e : IoError) : Act Walked := do
  match ← w.interruption? with
  | some stop => return { lines := [stop], goesOn := false }
  | none =>
    Act.warn ("skipping entry: IO error for operation on " ++ path ++ ": " ++ e.message)
    return {}

/-- the whole walk -/
def survey (w : Walker) : Act Walked := do
  let files := (← get).files
  match files.lookupEntry w.root, files.lookup w.root with
  | .ok (.link _), .ok (.dir entries) => w.visit w.root false (w.walkEntries w.root (arrangedEntries entries))
  | .ok (.link _), .error e => w.skipEntry w.root e
  | .ok n, _ => w.walkNode w.root n.arranged
  | .error e, _ => w.skipEntry w.root e

/-- the lines of all files of a walk -/
def walk (w : Walker) : Act (List FileLine) := do
  return (← w.survey).lines

end Walker

end Gleaner
