/-
Tools that look at the file tree and change it.
-/
import Gleaner.Shell.Expand

namespace Gleaner.Shell.Tools

/-- a tool that needs more than its arguments and its input -/
abbrev FileTool := Given → Run Result

def nodeAt (path : String) : Run (Except IoError FileNode) := do
  if path.isEmpty then return .error .notFound
  Run.lookup (← Run.placeOf (ofText (toText path)))

/-- what a path names, a link at its end not followed -/
def entryAt (path : String) : Run (Except IoError FileNode) := do
  let place ← Run.placeOf (ofText (toText path))
  return (← Run.tree place).lookupEntry place.path

/-- the special files that are always there -/
def devices : List String := ["/dev/null", "/dev/stdin", "/dev/stdout", "/dev/stderr", "/dev/zero", "/dev/tty"]

/-- what a condition asks about a file -/
def fileTest (op path : String) : Run Bool := do
  if op == "-t" then return false
  if devices.contains path then return ["-e", "-a", "-r", "-w", "-c"].contains op
  let node ← if op == "-h" || op == "-L" then entryAt path else nodeAt path
  match node with
  | .error _ => return false
  | .ok node =>
    let isDir := node.isDir
    match op with
    | "-d" => return isDir
    | "-f" => return !isDir
    | "-s" =>
      match node with
      | .file b _ => return !b.isEmpty
      | _ => return true
    | "-x" => return isDir
    | "-h" | "-L" =>
      match node with
      | .link _ => return true
      | _ => return false
    | "-b" | "-c" | "-p" | "-S" | "-g" | "-u" | "-k" => return false
    | _ => return true

/-! ## Looking -/

def sortedNames (names : List String) : List String := names.mergeSort fun a b => a ≤ b

def ls : FileTool := fun g => do
  let o := options "" [] g.args
  let paths := if o.operands.isEmpty then ["."] else sortedNames o.operands
  let all := o.has ["a", "all"]
  let almost := all || o.has ["A", "almost-all"]
  let classify := o.has ["F", "p"]
  let looked ← paths.mapM fun p => return (p, ← nodeAt p)
  let mark (n : FileNode) : String := if classify && n.isDir then "/" else ""
  let files := looked.filterMap fun (p, r) =>
    match r with
    | .ok n => if n.isDir && !o.has ["d", "directory"] then none else some (p ++ mark n)
    | .error _ => none
  let dirs := looked.filterMap fun (p, r) =>
    match r with
    | .ok (.dir entries) => if o.has ["d", "directory"] then none else some (p, entries)
    | _ => none
  let listing (entries : List (String × FileNode)) : List String :=
    let shown := entries.filterMap fun (n, node) =>
      if n.startsWith "." && !almost then none else some (ofText n ++ mark node)
    let shown := sortedNames ((if all then [".", ".."] else []) ++ shown)
    if o.has ["r", "reverse"] then shown.reverse else shown
  let faults := looked.filterMap fun (p, r) =>
    match r with
    | .error e => some ("ls: cannot access '" ++ p ++ "': " ++ Run.failureText e ++ "\n")
    | .ok _ => none
  let named := paths.length > 1
  let blocks := dirs.map fun (p, entries) => (if named then p ++ ":\n" else "") ++ joinLines (listing entries)
  let blocks := (if files.isEmpty then [] else [joinLines files]) ++ blocks
  return { out := String.intercalate "\n" blocks, messages := String.join faults,
           status := if faults.isEmpty then 0 else 2, used := .nothing }

/-- conditions of a search for files -/
structure FindPlan where
  types : List String := []
  names : List (Bool × List Wild) := []
  paths : List (List Wild) := []
  least : Nat := 0
  most : Nat := 1000
  ending : String := "\n"

/-- the pattern that a text without quotes is -/
def plainWild (s : String) : List Wild := wildOf false (s.toList.map fun c => (c, false))

def readFind : Nat → List String → FindPlan → FindPlan
  | 0, _, p => p
  | fuel + 1, args, p =>
    match args with
    | "-name" :: v :: rest => readFind fuel rest { p with names := p.names ++ [(false, plainWild v)] }
    | "-iname" :: v :: rest => readFind fuel rest { p with names := p.names ++ [(true, plainWild v)] }
    | "-path" :: v :: rest => readFind fuel rest { p with paths := p.paths ++ [plainWild v] }
    | "-type" :: v :: rest => readFind fuel rest { p with types := p.types ++ [v] }
    | "-maxdepth" :: v :: rest => readFind fuel rest { p with most := v.toNat?.getD 0 }
    | "-mindepth" :: v :: rest => readFind fuel rest { p with least := v.toNat?.getD 0 }
    | "-print0" :: rest => readFind fuel rest { p with ending := String.singleton (Char.ofNat 0) }
    | _ :: rest => readFind fuel rest p
    | [] => p

/-- the paths at and below a node that meet the conditions -/
def findFrom (p : FindPlan) : Nat → (depth : Nat) → (path name : String) → FileNode → List String
  | 0, _, _, _, _ => []
  | fuel + 1, depth, path, name, node =>
    let kind := match node with
      | .dir _ => "d"
      | .file _ _ => "f"
      | .link _ => "l"
    let good := p.types.all (· == kind) && p.names.all (fun (fold, w) => wildMatch fold w name.toList) &&
      p.paths.all (wildMatch false · path.toList) && depth ≥ p.least
    let here := if good then [path] else []
    match node with
    | .dir entries =>
      if depth ≥ p.most then here
      else here ++ entries.flatMap fun (n, child) =>
        findFrom p fuel (depth + 1) (if path.endsWith "/" then path ++ ofText n else path ++ "/" ++ ofText n) (ofText n)
          child
    | _ => here

def find : FileTool := fun g => do
  let paths := g.args.takeWhile fun a => !(a.startsWith "-" || a == "!" || a == "(")
  let plan := readFind (g.args.length + 1) (g.args.drop paths.length) {}
  let paths := if paths.isEmpty then ["."] else paths
  let found ← paths.mapM fun p => do
    match ← nodeAt p with
    | .ok n => return (findFrom plan 200 0 p (lastName p) n, "")
    | .error e => return ([], "find: '" ++ p ++ "': " ++ Run.failureText e ++ "\n")
  let messages := String.join (found.map (·.2))
  return { out := String.join ((found.flatMap (·.1)).map (· ++ plan.ending)), messages := messages,
           status := if messages.isEmpty then 0 else 1, used := .nothing }

def readlink : FileTool := fun g => do
  let o := options "" [] g.args
  let absolute (p : String) : Run String := do
    let place ← Run.placeOf p
    return if place.outside then "/" ++ place.path
      else "/" ++ String.intercalate "/" (Run.home ++ Run.normal (FileNode.names place.path))
  if g.name == "realpath" || o.has ["f", "e", "m", "canonicalize"] then
    return { out := joinLines (← o.operands.mapM absolute), used := .nothing }
  else
    let targets ← o.operands.mapM fun p => do
      match ← entryAt p with
      | .ok (.link t) => return some (ofText t)
      | _ => return none
    let found := targets.filterMap id
    return { out := joinLines found, status := if found.length = targets.length then 0 else 1, used := .nothing }

/-! ## Changing -/

/-- does something for each operand; the messages of those that it fails for are collected -/
def forEach (g : Given) (operands : List String) (act : String → Run (Option String)) : Run Result := do
  let faults := (← operands.mapM act).filterMap id
  return { messages := String.join (faults.map fun m => g.name ++ ": " ++ m ++ "\n"),
           status := if faults.isEmpty then 0 else 1, used := .nothing }

def putNode (path : String) (n : FileNode) : Run Unit := do
  let place ← Run.placeOf (ofText (toText path))
  Run.setTree place ((← Run.tree place).write place.path n)

def removeNode (path : String) : Run Unit := do
  let place ← Run.placeOf (ofText (toText path))
  let t ← Run.tree place
  match t.resolve false (String.ofList ((place.path.toList.reverse.dropWhile (· = '/')).reverse)) with
  | .ok names => Run.setTree place (t.remove names)
  | .error _ => return

def mkdir : FileTool := fun g => do
  let o := options "m" ["mode"] g.args
  let parents := o.has ["p", "parents"]
  forEach g o.operands fun p => do
    let p := dropTrailingSlashes p
    match ← nodeAt p with
    | .ok n =>
      return if parents && n.isDir then none else some ("cannot create directory '" ++ p ++ "': File exists")
    | .error _ =>
      if parents then
        putNode p FileNode.emptyDir
        return none
      match ← nodeAt (directoryName p) with
      | .ok (.dir _) =>
        putNode p FileNode.emptyDir
        return none
      | .ok _ => return some ("cannot create directory '" ++ p ++ "': Not a directory")
      | .error e => return some ("cannot create directory '" ++ p ++ "': " ++ Run.failureText e)

def rmdir : FileTool := fun g => do
  let o := options "" [] g.args
  forEach g o.operands fun p => do
    match ← nodeAt p with
    | .ok (.dir []) =>
      removeNode p
      return none
    | .ok (.dir _) => return some ("failed to remove '" ++ p ++ "': Directory not empty")
    | .ok _ => return some ("failed to remove '" ++ p ++ "': Not a directory")
    | .error e => return some ("failed to remove '" ++ p ++ "': " ++ Run.failureText e)

def rm : FileTool := fun g => do
  let o := options "" [] g.args
  let force := o.has ["f", "force"]
  if o.operands.isEmpty then return if force then { used := .nothing } else g.refuse 1 "missing operand"
  forEach g o.operands fun p => do
    match ← entryAt p with
    | .ok n =>
      if n.isDir && !o.has ["r", "R", "recursive"] then return some ("cannot remove '" ++ p ++ "': Is a directory")
      removeNode p
      return none
    | .error e => return if force then none else some ("cannot remove '" ++ p ++ "': " ++ Run.failureText e)

def touch : FileTool := fun g => do
  let o := options "drt" ["date", "reference"] g.args
  forEach g o.operands fun p => do
    match ← nodeAt p with
    | .ok _ => return none
    | .error _ =>
      if o.has ["c"] then return none
      match ← Run.writeFile (← Run.placeOf (ofText (toText p))) "" with
      | .ok () => return none
      | .error why => return some ("cannot touch '" ++ p ++ "': " ++ why)

/-- where something comes to: into a directory, under its own name, or to the path itself -/
def targetOf (target source : String) : Run String := do
  match ← nodeAt target with
  | .ok (.dir _) => return dropTrailingSlashes target ++ "/" ++ lastName source
  | _ => return target

def transfer (move : Bool) : FileTool := fun g => do
  let o := options "t" ["target-directory"] g.args
  let recursive := move || o.has ["r", "R", "a", "recursive", "archive"]
  match o.operands.reverse with
  | target :: sources =>
    if sources.isEmpty then return g.refuse 1 ("missing destination file operand after '" ++ target ++ "'")
    forEach g sources.reverse fun s => do
      match ← (if move then entryAt s else nodeAt s) with
      | .error e =>
        return some ((if move then "cannot stat '" else "cannot stat '") ++ s ++ "': " ++ Run.failureText e)
      | .ok n =>
        if n.isDir && !recursive then return some ("-r not specified; omitting directory '" ++ s ++ "'")
        let to_ ← targetOf target s
        match ← nodeAt (directoryName to_) with
        | .ok (.dir _) =>
          if move then removeNode s
          putNode to_ n
          return none
        | _ =>
          return some ("cannot create regular file '" ++ to_ ++ "': No such file or directory")
  | [] => return g.refuse 1 "missing file operand"

def ln : FileTool := fun g => do
  let o := options "t" [] g.args
  match o.operands with
  | [source, target] =>
    let to_ ← targetOf target source
    let exists_ := (← entryAt to_).toOption.isSome
    if exists_ && !o.has ["f", "force"] then
      return g.refuse 1 ("failed to create symbolic link '" ++ to_ ++ "': File exists")
    if exists_ then removeNode to_
    if o.has ["s", "symbolic"] then putNode to_ (.link (toText source))
    else
      match ← nodeAt source with
      | .ok n => putNode to_ n
      | .error e => return g.refuse 1 ("failed to access '" ++ source ++ "': " ++ Run.failureText e)
    return { used := .nothing }
  | _ => return g.refuse 1 "missing file operand"

def tee : FileTool := fun g => do
  let o := options "" [] g.args
  let text := String.ofList g.input
  let faults ← o.operands.mapM fun p => do
    if devices.contains p then return none
    let place ← Run.placeOf (ofText (toText p))
    let old ← if o.has ["a", "append"] then Run.fileText place else pure ""
    match ← Run.writeFile place (old ++ text) with
    | .ok () => return none
    | .error why => return some (g.name ++ ": " ++ p ++ ": " ++ why ++ "\n")
  let messages := String.join (faults.filterMap id)
  return { out := text, messages := messages, status := if messages.isEmpty then 0 else 1 }

def mktemp : FileTool := fun g => do
  let o := options "p" ["tmpdir", "suffix"] g.args
  let seed := (← get).seed
  modify fun s => { s with seed := s.seed * 6364136223846793005 + 1442695040888963407 }
  let letters := (charRange 'a' 'z' ++ charRange 'A' 'Z' ++ charRange '0' '9').toArray
  let template := (o.operands.head?).getD "/tmp/tmp.XXXXXXXXXX"
  let marks := (template.toList.reverse.takeWhile (· = 'X')).length
  let random := (List.range marks).map fun k => letters.getD ((seed.toNat / Nat.pow 7 (k + 1)) % 62) 'a'
  let path := String.ofList (template.toList.take (template.length - marks) ++ random)
  if o.has ["d", "directory"] then putNode path FileNode.emptyDir else putNode path (.file [])
  return { out := path ++ "\n", used := .nothing }

def split : FileTool := fun g => do
  let o := options "lba" ["lines", "bytes"] (lineCountArgs g.args)
  let i := inputs g (o.operands.take 1)
  let start := o.operands.getD 1 "x"
  let n := max 1 (((o.value? ["l", "lines", "n"]).bind String.toNat?).getD 1000)
  let (lines, _) := linesOf i.all
  let count := (lines.length + n - 1) / n
  for k in List.range count do
    let name := start ++ String.ofList [Char.ofNat (97 + k / 26), Char.ofNat (97 + k % 26)]
    let _ ← Run.writeFile (← Run.placeOf name) (joinLines ((lines.drop (k * n)).take n))
  return i.result "" 0

def fileTools : List (String × FileTool) :=
  [("ls", ls), ("find", find), ("readlink", readlink), ("realpath", readlink), ("mkdir", mkdir), ("rmdir", rmdir),
   ("rm", rm), ("unlink", rm), ("touch", touch), ("cp", transfer false), ("mv", transfer true), ("ln", ln),
   ("tee", tee), ("mktemp", mktemp), ("split", split)]

end Gleaner.Shell.Tools
