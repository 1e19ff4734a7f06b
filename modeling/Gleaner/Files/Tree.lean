/-
File trees.

A tree holds files, directories and symbolic links below the working directory, and paths lead into it from there.
What lies outside cannot be found. A link is followed wherever it stands on the way, at most forty in one path; whether
one at the end is followed is up to the caller.

A file may have a fault: it cannot be opened, or reading it fails behind its bytes. What is written anew has none.
-/
import Gleaner.Lines

namespace Gleaner

/-- what is wrong with a file -/
inductive FileFault where
  /-- it cannot be opened -/
  | refused (e : IoError)
  /-- reading it fails behind its bytes -/
  | broken (e : IoError)
  deriving DecidableEq, Repr

def FileFault.error : FileFault → IoError
  | .refused e => e
  | .broken e => e

inductive FileNode where
  | file (content : Utf8.Bytes) (fault : Option FileFault := none)
  | dir (entries : List (String × FileNode))
  | link (target : String)
  deriving Inhabited

namespace FileNode

def emptyDir : FileNode := .dir []

def isDir : FileNode → Bool
  | .dir _ => true
  | _ => false

def isRegular : FileNode → Bool
  | .file _ _ => true
  | _ => false

def child? (n : FileNode) (name : String) : Option FileNode :=
  match n with
  | .dir entries => (entries.find? (·.1 == name)).map (·.2)
  | _ => none

/-- the node at the end of some names, none of them followed as a link -/
def at? : List String → FileNode → Option FileNode
  | [], n => some n
  | name :: rest, n => (n.child? name).bind (at? rest)

/-! ## Paths -/

/-- the most links on the way of one path -/
def maxLinks : Nat := 40

def maxNameBytes : Nat := 255

def maxPathBytes : Nat := 4095

/-- the names in a path -/
def names (path : String) : List String := (path.toList.splitOn '/').map String.ofList

/-- whether a path leads on from the root of the file system -/
def isAbsolute (path : String) : Bool := path.toList.head? == some '/'

/-- goes on from the directory `here` along some names. An empty name stands for the directory itself. -/
def resolveFrom (root : FileNode) (follow : Bool) :
    Nat → (links : Nat) → (here names : List String) → Except IoError (List String)
  | 0, _, _, _ => .error .tooManyLinks
  | fuel + 1, links, here, names =>
    match names with
    | [] => .ok here
    | name :: rest =>
      match root.at? here with
      | none => .error .notFound
      | some (.dir entries) =>
        if name = "" || name = "." then resolveFrom root follow fuel links here rest
        else if name = ".." then
          if here.isEmpty then .error .notFound else resolveFrom root follow fuel links here.dropLast rest
        else if name.utf8ByteSize > maxNameBytes then .error .nameTooLong
        else
          match entries.find? (·.1 == name) with
          | none => .error .notFound
          | some (_, .link target) =>
            if rest.isEmpty && !follow then .ok (here ++ [name])
            else if links = 0 then .error .tooManyLinks
            else if isAbsolute target then .error .notFound
            else resolveFrom root follow fuel (links - 1) here (FileNode.names target ++ rest)
          | some _ => resolveFrom root follow fuel links (here ++ [name]) rest
      | some _ => .error .notDirectory

/-- the place a path leads to -/
def resolve (root : FileNode) (follow : Bool) (path : String) : Except IoError (List String) :=
  if path.toList.contains '\x00' then .error .nulInPath
  else if path.isEmpty || isAbsolute path then .error .notFound
  else if path.utf8ByteSize > maxPathBytes then .error .nameTooLong
  else
    let steps := (maxLinks + 1) * (maxPathBytes + 1)
    resolveFrom root follow steps maxLinks [] (names path)

/-- what a path leads to, links followed -/
def lookup (root : FileNode) (path : String) : Except IoError FileNode := do
  let place ← root.resolve true path
  match root.at? place with
  | some n => return n
  | none => throw .notFound

/-- what a path leads to, a link at its end not followed -/
def lookupEntry (root : FileNode) (path : String) : Except IoError FileNode := do
  let place ← root.resolve false path
  match root.at? place with
  | some n => return n
  | none => throw .notFound

/-! ## Reading -/

/-- what reading a node delivers, unless it cannot be opened; a directory can be opened but not read -/
def source : FileNode → Except IoError Source
  | .file content none => .ok { bytes := content }
  | .file content (some (.broken e)) => .ok { bytes := content, failure := some e }
  | .file _ (some (.refused e)) => .error e
  | .dir _ => .ok { bytes := [], failure := some .isDirectory }
  | .link _ => .error .notFound

def openFile (root : FileNode) (path : String) : Except IoError Source := root.lookup path >>= source

def isFile (root : FileNode) (path : String) : Bool :=
  match root.lookup path with
  | .ok n => n.isRegular
  | .error _ => false

/-- the whole text of a file -/
def readText (root : FileNode) (path : String) : Except IoError String := do
  let s ← root.openFile path
  match s.failure, Utf8.decode? s.bytes with
  | some e, _ => throw e
  | none, some text => return text
  | none, none => throw .notUtf8

/-! ## Writing -/

/-- puts a node at the end of some names, making directories on the way -/
def put (node : FileNode) : List String → FileNode → FileNode
  | [], _ => node
  | name :: rest, n =>
    let entries := match n with
      | .dir entries => entries
      | _ => []
    let inner := put node rest (((entries.find? (·.1 == name)).map (·.2)).getD emptyDir)
    if entries.any (·.1 == name) then .dir (entries.map fun (k, v) => if k == name then (k, inner) else (k, v))
    else .dir (entries ++ [(name, inner)])

/-- the names of a path without those that stand still -/
def plainNames (path : String) : List String := (names path).filter fun n => n ≠ "" && n ≠ "."

/-- the place a new node comes to: what of the path is there is followed, the rest is taken as it is -/
def placeFor (root : FileNode) (path : String) : List String :=
  match root.resolve true path with
  | .ok place => place
  | .error _ =>
    let all := plainNames path
    let dir := String.intercalate "/" all.dropLast
    match all.getLast?, root.resolve true dir with
    | some name, .ok place => place ++ [name]
    | _, _ => all

/-- writes a node; a directory that is there stays -/
def write (root : FileNode) (path : String) (node : FileNode) : FileNode :=
  let place := root.placeFor path
  match node, root.at? place with
  | .dir [], some (.dir _) => root
  | _, _ => put node place root

/-- takes away the node at the end of some names -/
def removeAt : List String → FileNode → FileNode
  | [], n => n
  | [name], .dir entries => .dir (entries.filter (·.1 != name))
  | name :: rest, .dir entries => .dir (entries.map fun (k, v) => if k == name then (k, removeAt rest v) else (k, v))
  | _, n => n

/-- a tree without the node at the end of some names -/
def remove (root : FileNode) (place : List String) : FileNode := removeAt place root

end FileNode

end Gleaner
