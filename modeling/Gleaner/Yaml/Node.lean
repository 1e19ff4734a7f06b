/-
The tree a YAML text writes.

A text holds one document at most. A name given to a node can be used for it once the node has ended; the uses are
limited to 100 times the number of nodes, list ends and table ends, a use counting once for every way that leads to it.
Keys are texts. A list is never read as a table.
-/
import Gleaner.Document.Tree
import Gleaner.Yaml.Token

namespace Gleaner.Yaml

/-- a tree, and how many uses of names are on all ways through it -/
structure Node where
  tree : Tree
  uses : Nat := 0

/-- what a number of a name stands for; no node while it is being read -/
structure Anchored where
  number : Nat
  mark : Nat
  node : Option Node

structure Reader where
  tokens : List Token
  shorthands : List (String × String) := []
  /-- the numbers of names: how many names there were when the name was last given -/
  names : List (String × Nat) := []
  anchored : List Anchored := []
  /-- how many nodes have been given a name -/
  marks : Nat := 0
  /-- nodes, list ends and table ends so far -/
  events : Nat := 0

/-! ## Leaves -/

/-- texts that write a null when they are not quoted -/
def isNullText (s : String) : Bool := s = "null" || s = "Null" || s = "NULL" || s = "~"

def nullTag : String := "tag:yaml.org,2002:null"

/-- the tree of a text -/
def scalarTree (s : String) (plain : Bool) (tag : Option String) : Tree :=
  if !plain then .text s
  else
    match tag with
    | none => if s.isEmpty then .missing else if isNullText s then .null (some s) else .text s
    | some t =>
      if t = nullTag then (if isNullText s then .null (some s) else .wrongNull s)
      else if s.isEmpty then .empty else .text s

namespace Reader

def peek (r : Reader) : Option Token := r.tokens.head?

def next (r : Reader) : Reader := { r with tokens := r.tokens.tail }

def count (r : Reader) : Reader := { r with events := r.events + 1 }

/-- a node where none is written -/
def emptyNode (r : Reader) : Node × Reader := ({ tree := .missing }, r.count)

def leaf (r : Reader) (t : Tree) : Except YamlError (Node × Reader) := .ok ({ tree := t }, r)

/-! ## Names and tags -/

/-- gives a name to the node that begins, and tells its number and mark -/
def giveName (r : Reader) (name : String) : Nat × Nat × Reader :=
  let number := r.names.length
  let names := if r.names.any (·.1 == name) then r.names.map fun (n, k) => if n == name then (n, number) else (n, k)
    else (name, number) :: r.names
  let mark := r.marks + 1
  let anchored := { number := number, mark := mark, node := none } :: r.anchored.filter (·.number ≠ number)
  (number, mark, { r with names := names, anchored := anchored, marks := mark })

/-- stores a node that has ended under its number, unless the number has gone to another one since -/
def keepNode (r : Reader) (number mark : Nat) (node : Node) : Reader :=
  { r with anchored := r.anchored.map fun a =>
      if a.number = number && a.mark = mark then { a with node := some node } else a }

/-- the node a name stands for -/
def named (r : Reader) (name : String) : Except YamlError Node := do
  let some (_, number) := r.names.find? (·.1 == name) | throw .unknownAnchor
  let some a := r.anchored.find? (·.number = number) | throw .unknownAnchor
  let some node := a.node | throw .unknownAnchor
  return { node with uses := node.uses + 1 }

/-- the whole tag a shorthand stands for -/
def resolveTag (r : Reader) (handle suffix : String) : Except YamlError String :=
  if handle.isEmpty then .ok suffix
  else
    match r.shorthands.find? (·.1 == handle) with
    | some (_, expansion) => .ok (expansion ++ suffix)
    | none => .error .undefinedTagHandle

/-- the name and the tag before a node, in either order -/
def properties (r : Reader) : Except YamlError ((Option String × Option String) × Reader) := do
  let tagAt (r : Reader) : Except YamlError (Option String × Reader) :=
    match r.peek with
    | some (.tag handle suffix) => do return (some (← r.resolveTag handle suffix), r.next)
    | _ => .ok (none, r)
  match r.peek with
  | some (.anchor name) =>
    let (tag, r) ← tagAt r.next
    return ((some name, tag), r)
  | _ =>
    let (tag, r) ← tagAt r
    match tag, r.peek with
    | some _, some (.anchor name) => return ((some name, tag), r.next)
    | _, _ => return ((none, tag), r)

/-! ## Nodes -/

/-- what has been read of a list or a table -/
structure Parts where
  items : List Tree := []
  fields : List (String × Tree) := []
  uses : Nat := 0

def Parts.addItem (p : Parts) (n : Node) : Parts := { p with items := n.tree :: p.items, uses := p.uses + n.uses }

def Parts.addField (p : Parts) (k v : Node) : Except YamlError Parts :=
  match k.tree.asText? with
  | some key => .ok { p with fields := (key, v.tree) :: p.fields, uses := p.uses + k.uses + v.uses }
  | none => .error .keyNotText

def Parts.list (p : Parts) : Node := { tree := .list .items p.items.reverse, uses := p.uses }

def Parts.table (p : Parts) : Node := { tree := .table p.fields.reverse, uses := p.uses }

/-- whether the next token is one of some -/
def sees (r : Reader) (ts : List Token) : Bool := r.peek.any (ts.contains ·)

mutual
/-- a node. Blocks begin only where `block` is set, and a list at the column of its table only where `level` is. -/
def node : Nat → (block level : Bool) → Reader → Except YamlError (Node × Reader)
  | 0, _, _, _ => .error .unexpectedToken
  | fuel + 1, block, level, r =>
    match r.peek with
    | some (.alias name) => do return (← r.named name, r.next.count)
    | _ => do
      let ((name, tag), r) ← r.properties
      let (number, mark, r) := match name with
        | some name => r.giveName name
        | none => (0, 0, r)
      let r := r.count
      let (n, r) ← match r.peek with
        | some (.text s plain) => r.next.leaf (scalarTree s plain tag)
        | some .flowListStart => flowItems fuel true {} r.next
        | some .flowTableStart => flowFields fuel true {} r.next
        | some .listEntry =>
          if level then levelItems fuel {} r else .error .unexpectedToken
        | some .blockListStart =>
          if block then blockItems fuel {} r.next else .error .unexpectedToken
        | some .blockTableStart =>
          if block then blockFields fuel {} r.next else .error .unexpectedToken
        | _ =>
          if name.isSome || tag.isSome then r.leaf (scalarTree "" true tag) else .error .unexpectedToken
      return (n, if name.isSome then r.keepNode number mark n else r)

/-- a node, or an empty one before one of some tokens -/
def nodeUnless : Nat → List Token → (block level : Bool) → Reader → Except YamlError (Node × Reader)
  | 0, _, _, _, _ => .error .unexpectedToken
  | fuel + 1, stops, block, level, r => if r.sees stops then .ok r.emptyNode else node fuel block level r

def blockItems : Nat → Parts → Reader → Except YamlError (Node × Reader)
  | 0, _, _ => .error .unexpectedToken
  | fuel + 1, parts, r =>
    match r.peek with
    | some .listEntry => do
      let (n, r) ← nodeUnless fuel [.listEntry, .blockEnd] true false r.next
      blockItems fuel (parts.addItem n) r
    | some .blockEnd => .ok (parts.list, r.next.count)
    | _ => .error .unexpectedToken

/-- the items of a list at the column of its table -/
def levelItems : Nat → Parts → Reader → Except YamlError (Node × Reader)
  | 0, _, _ => .error .unexpectedToken
  | fuel + 1, parts, r =>
    match r.peek with
    | some .listEntry => do
      let (n, r) ← nodeUnless fuel [.listEntry, .key, .value, .blockEnd] true false r.next
      levelItems fuel (parts.addItem n) r
    | _ => .ok (parts.list, r.count)

def blockFields : Nat → Parts → Reader → Except YamlError (Node × Reader)
  | 0, _, _ => .error .unexpectedToken
  | fuel + 1, parts, r =>
    match r.peek with
    | some .key => do
      let stops := [Token.key, .value, .blockEnd]
      let (k, r) ← nodeUnless fuel stops true true r.next
      let (v, r) ← if r.sees [.value] then nodeUnless fuel stops true true r.next else .ok r.emptyNode
      blockFields fuel (← parts.addField k v) r
    | some .blockEnd => .ok (parts.table, r.next.count)
    | _ => .error .unexpectedToken

/-- the items between square brackets. A key makes a table of one field. -/
def flowItems : Nat → Bool → Parts → Reader → Except YamlError (Node × Reader)
  | 0, _, _, _ => .error .unexpectedToken
  | fuel + 1, first, parts, r => do
    if r.sees [.flowListEnd] then return (parts.list, r.next.count)
    let r ← if first then pure r else if r.sees [.flowEntry] then pure r.next else throw .unexpectedToken
    if r.sees [.flowListEnd] then return (parts.list, r.next.count)
    if r.sees [.key] then
      let (n, r) ← pair fuel r.next.count
      flowItems fuel false (parts.addItem n) r
    else
      let (n, r) ← node fuel false false r
      flowItems fuel false (parts.addItem n) r

/-- the key and the value of a table of one field -/
def pair : Nat → Reader → Except YamlError (Node × Reader)
  | 0, _ => .error .unexpectedToken
  | fuel + 1, r => do
    let (k, r) ← if r.sees [.value, .flowEntry, .flowListEnd] then .ok r.next.emptyNode else node fuel false false r
    let (v, r) ←
      if r.sees [.value] then nodeUnless fuel [.flowEntry, .flowListEnd] false false r.next else .ok r.emptyNode
    return ((← Parts.addField {} k v).table, r.count)

/-- the fields between curly brackets -/
def flowFields : Nat → Bool → Parts → Reader → Except YamlError (Node × Reader)
  | 0, _, _, _ => .error .unexpectedToken
  | fuel + 1, first, parts, r => do
    if r.sees [.flowTableEnd] then return (parts.table, r.next.count)
    let r ← if first then pure r else if r.sees [.flowEntry] then pure r.next else throw .unexpectedToken
    if r.sees [.flowTableEnd] then return (parts.table, r.next.count)
    if r.sees [.key] then
      let (k, r) ← nodeUnless fuel [.value, .flowEntry, .flowTableEnd] false false r.next
      let (v, r) ←
        if r.sees [.value] then nodeUnless fuel [.flowEntry, .flowTableEnd] false false r.next else .ok r.emptyNode
      flowFields fuel false (← parts.addField k v) r
    else
      let (k, r) ← node fuel false false r
      let (v, r) := r.emptyNode
      flowFields fuel false (← parts.addField k v) r
end

/-! ## Documents -/

/-- the directives before a document; each kind of version and handle may occur once -/
def directives (versioned : Bool) : Nat → Reader → Except YamlError Reader
  | 0, r => .ok r
  | fuel + 1, r =>
    match r.peek with
    | some (.version major minor) =>
      if versioned || major ≠ 1 || (minor ≠ 1 && minor ≠ 2) then .error .badDirective
      else directives true fuel r.next
    | some (.tagShorthand handle expansion) =>
      if r.shorthands.any (·.1 == handle) then .error .badDirective
      else directives versioned fuel { r.next with shorthands := (handle, expansion) :: r.shorthands }
    | _ => .ok r

/-- the shorthands every document has unless it gives them another meaning -/
def defaultShorthands : List (String × String) := [("!", "!"), ("!!", "tag:yaml.org,2002:")]

def isDirective : Token → Bool
  | .version _ _ => true
  | .tagShorthand _ _ => true
  | _ => false

/-- the only document of a text -/
def document (r : Reader) : Except YamlError (Node × Reader) := do
  let fuel := 4 * r.tokens.length + 4
  if r.tokens.isEmpty then return ← r.leaf .missing
  let (n, r) ←
    if r.sees [.documentStart] || r.peek.any isDirective then do
      let r ← directives false fuel r
      if !r.sees [.documentStart] then throw .unexpectedToken
      let r := { r.next with shorthands := r.shorthands ++ defaultShorthands }
      if r.tokens.isEmpty || r.sees [.documentStart, .documentEnd] || r.peek.any isDirective then .ok r.emptyNode
      else node fuel true false r
    else node fuel true false { r with shorthands := defaultShorthands }
  if n.uses > 100 * r.events then throw .tooManyAliases
  if !(r.tokens.all (· == .documentEnd)) then throw .severalDocuments
  return (n, r)

end Reader

/-- the tree of a text -/
def parse (text : String) : Except YamlError Tree := do
  let (n, _) ← Reader.document { tokens := ← tokens text }
  return n.tree

end Gleaner.Yaml
