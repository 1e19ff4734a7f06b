/-
What a walk gives if the signal never goes up.

Below the root every entry has an address, the names that lead to it. Addresses are compared name by name, each in the
order of its bytes, and a directory comes before what is in it (`AddressLt`). A walk comes to the addresses of the tree
at and above which nothing is ignored, in this order, and gives the lines of each (`contribution`). The first path on
which the ignore chain fails ends it with one item.

Results:
- `mem_seenFrom`, `seenFrom_sorted`: the addresses a walk comes to, and their order;
- `nodeMoves_items`: what the moves of a walk give at these addresses;
- `walk_eq_listing`: an uncancelled walk from a root that is no link gives just that.
-/
import Gleaner.Proofs.Arrangement
import Gleaner.Proofs.Resolution
import Gleaner.Proofs.Tours
import Mathlib

namespace Gleaner

/-! ## Addresses -/

/-- the order of addresses -/
def AddressLt : List String → List String → Prop := List.Lex fun x y => Utf8.encode x < Utf8.encode y

mutual
/-- the addresses below a node at and above which nothing is ignored -/
def seenFrom (ignores : String → Bool) (path : String) : FileNode → List (List String)
  | .dir entries => if ignores path then [] else [] :: seenAmong ignores path entries
  | _ => if ignores path then [] else [[]]

def seenAmong (ignores : String → Bool) (dir : String) : List (String × FileNode) → List (List String)
  | [] => []
  | (name, n) :: rest => (seenFrom ignores (joinPath dir name) n).map (name :: ·) ++ seenAmong ignores dir rest
end

section

variable {ignores : String → Bool}

theorem mem_seenAmong {dir : String} {entries : List (String × FileNode)} {address : List String} :
    address ∈ seenAmong ignores dir entries ↔
      ∃ name n rest, (name, n) ∈ entries ∧ address = name :: rest ∧ rest ∈ seenFrom ignores (joinPath dir name) n := by
  induction entries with
  | nil => simp [seenAmong]
  | cons e others ih =>
    obtain ⟨name, n⟩ := e
    simp only [seenAmong, List.mem_append, List.mem_map, ih]
    constructor
    · rintro (⟨rest, hrest, rfl⟩ | ⟨other, m, rest, hm, rfl, hrest⟩)
      · exact ⟨name, n, rest, List.mem_cons_self, rfl, hrest⟩
      · exact ⟨other, m, rest, List.mem_cons_of_mem _ hm, rfl, hrest⟩
    · rintro ⟨other, m, rest, hm, rfl, hrest⟩
      rcases List.mem_cons.1 hm with heq | hm
      · cases heq
        exact .inl ⟨rest, hrest, rfl⟩
      · exact .inr ⟨other, m, rest, hm, rfl, hrest⟩

theorem nil_mem_seenFrom {path : String} {n : FileNode} :
    [] ∈ seenFrom ignores path n ↔ ignores path = false := by
  cases n <;> simp only [seenFrom] <;> split <;> simp_all

/-- what is above `name :: rest` is the node itself, or above `rest` from the entry -/
theorem forall_above_cons {path name : String} {rest : List String} :
    (∀ above, above <+: name :: rest → ignores (entryPath path above) = false) ↔
      ignores path = false ∧ ∀ above, above <+: rest → ignores (entryPath (joinPath path name) above) = false := by
  constructor
  · intro hall
    exact ⟨hall [] List.nil_prefix,
      fun above habove => hall (name :: above) (List.cons_prefix_cons.2 ⟨rfl, habove⟩)⟩
  · rintro ⟨hpath, hall⟩ above habove
    cases above with
    | nil => exact hpath
    | cons first more =>
      obtain ⟨rfl, hmore⟩ := List.cons_prefix_cons.1 habove
      exact hall more hmore

/-- **The addresses a walk comes to** are those at and above which nothing is ignored. -/
theorem mem_seenFrom {path : String} {n : FileNode} (h : n.WellFormed) (address : List String) :
    address ∈ seenFrom ignores path n ↔
      (∃ m, n.at? address = some m) ∧ ∀ above, above <+: address → ignores (entryPath path above) = false := by
  induction address generalizing path n with
  | nil =>
    rw [nil_mem_seenFrom]
    constructor
    · intro hpath
      refine ⟨⟨n, rfl⟩, fun above habove => ?_⟩
      rw [List.prefix_nil.1 habove]
      exact hpath
    · rintro ⟨-, habove⟩
      exact habove [] (List.prefix_refl _)
  | cons name rest ih =>
    rw [forall_above_cons]
    cases n with
    | dir entries =>
      simp only [seenFrom]
      cases hpath : ignores path with
      | true => simp
      | false =>
        simp only [Bool.false_eq_true, if_false, List.mem_cons, reduceCtorEq, false_or, true_and]
        constructor
        · intro hmem
          obtain ⟨_, c, _, hc, heq, hrest⟩ := mem_seenAmong.1 hmem
          cases heq
          obtain ⟨⟨m, hm⟩, habove⟩ := (ih (h.child hc)).1 hrest
          exact ⟨⟨m, by rw [FileNode.at?, FileNode.child?_of_mem h.1 hc]; exact hm⟩, habove⟩
        · rintro ⟨⟨m, hm⟩, habove⟩
          obtain ⟨c, hc, hm⟩ := Option.bind_eq_some_iff.1 hm
          have hmem := FileNode.mem_of_child? hc
          exact mem_seenAmong.2 ⟨name, c, rest, hmem, rfl, (ih (h.child hmem)).2 ⟨⟨m, hm⟩, habove⟩⟩
    | _ =>
      refine iff_of_false (fun hmem => ?_) ?_
      · simp only [seenFrom] at hmem
        split at hmem <;> simp at hmem
      · rintro ⟨⟨m, hm⟩, -⟩
        cases hm

mutual
/-- the entries of every directory rise -/
def FileNode.Rising : FileNode → Prop
  | .dir entries => entries.Pairwise (fun a b => a.1 < b.1) ∧ RisingEntries entries
  | _ => True

def RisingEntries : List (String × FileNode) → Prop
  | [] => True
  | (_, n) :: rest => n.Rising ∧ RisingEntries rest
end

theorem RisingEntries.insertByName {entry : String × FileNode} {entries : List (String × FileNode)}
    (hentry : entry.2.Rising) (h : RisingEntries entries) : RisingEntries (insertByName entry entries) := by
  induction entries with
  | nil => exact ⟨hentry, trivial⟩
  | cons other rest ih =>
    simp only [Gleaner.insertByName]
    split
    · exact ⟨h.1, ih h.2⟩
    · exact ⟨hentry, h⟩

mutual
theorem FileNode.WellFormed.rising {n : FileNode} (h : n.WellFormed) : n.arranged.Rising := by
  cases n with
  | dir entries => exact ⟨arrangedEntries_sorted h.1, h.2.rising⟩
  | file content => trivial
  | link target => trivial

theorem WellFormedEntries.rising {entries : List (String × FileNode)} (h : WellFormedEntries entries) :
    RisingEntries (arrangedEntries entries) := by
  cases entries with
  | nil => trivial
  | cons e rest =>
    obtain ⟨-, hn, hrest⟩ := h
    exact RisingEntries.insertByName hn.rising hrest.rising
end

mutual
/-- **A walk comes to addresses in their order.** -/
theorem seenFrom_sorted (path : String) {n : FileNode} (h : n.Rising) :
    (seenFrom ignores path n).Pairwise AddressLt := by
  cases n with
  | dir entries =>
    simp only [seenFrom]
    split
    · exact List.Pairwise.nil
    · refine List.pairwise_cons.2 ⟨fun address hmem => ?_, seenAmong_sorted path h.1 h.2⟩
      obtain ⟨name, _, rest, -, rfl, -⟩ := mem_seenAmong.1 hmem
      exact List.Lex.nil
  | _ =>
    simp only [seenFrom]
    split
    · exact List.Pairwise.nil
    · exact List.pairwise_singleton _ _

theorem seenAmong_sorted (dir : String) {entries : List (String × FileNode)}
    (hsorted : entries.Pairwise fun a b => a.1 < b.1) (h : RisingEntries entries) :
    (seenAmong ignores dir entries).Pairwise AddressLt := by
  cases entries with
  | nil => exact List.Pairwise.nil
  | cons e rest =>
    obtain ⟨name, n⟩ := e
    obtain ⟨hfirst, hsorted⟩ := List.pairwise_cons.1 hsorted
    refine List.pairwise_append.2 ⟨?_, seenAmong_sorted dir hsorted h.2, fun a ha b hb => ?_⟩
    · exact List.pairwise_map.2 ((seenFrom_sorted (joinPath dir name) h.1).imp fun hlt => List.Lex.cons hlt)
    · obtain ⟨more, -, rfl⟩ := List.mem_map.1 ha
      obtain ⟨other, m, others, hm, rfl, -⟩ := mem_seenAmong.1 hb
      exact List.Lex.rel ((lt_iff_encode_lt _ _).1 (hfirst (other, m) hm))
end

end

/-! ## What the moves of a walk give -/

/-- the item that ends a walk if the ignore chain fails on a path -/
def ignoreFault? (verdict : String → MatchResult) (path : String) : Option FileLine :=
  match verdict path with
  | .ok _ => none
  | .error e => if e.isUnmatched then none else some (Tour.failed path e)

namespace Tour

/-- what is heard at a path and, unless the walk ends there, behind it -/
def hear (t : Tour) (path : String) (behind : List FileLine) : List FileLine :=
  match ignoreFault? t.verdict path with
  | some last => [last]
  | none => Move.items (t.fileMoves path) ++ behind

/-- whether the ignore chain matches a path -/
def ignores (t : Tour) (path : String) : Bool := (t.verdict path).isOk

theorem readMoves_open (path : String) (n : FileNode) : Move.Open (readMoves path n) := by
  unfold readMoves
  split
  · intro item h
    obtain ⟨m, hm, heq⟩ := List.mem_map.1 h
    cases m with
    | close item => exact readFrom_open _ _ _ item hm
    | look last => cases heq
    | emit item => cases heq
  · exact fun _ => List.not_mem_nil

theorem fileMoves_open (t : Tour) (path : String) : Move.Open (t.fileMoves path) := by
  unfold fileMoves
  split
  · exact readMoves_open path _
  · exact fun _ => List.not_mem_nil

/-- what a visit gives, if `seen` are the addresses below the entry and `below` its moves there -/
theorem entryMoves_items (t : Tour) (path : String) (seen : List (List String)) (below : List (Move FileLine))
    (hbelow : ∀ ys, Move.items (below ++ ys) = seen.foldr (fun a => t.hear (entryPath path a)) (Move.items ys))
    (ys : List (Move FileLine)) :
    Move.items (t.entryMoves path true below ++ ys) =
      (if t.ignores path then [] else [] :: seen).foldr (fun a => t.hear (entryPath path a)) (Move.items ys) := by
  unfold entryMoves ignores
  cases hv : t.verdict path with
  | ok found => rfl
  | error e =>
    have hhear : ([] :: seen).foldr (fun a => t.hear (entryPath path a)) (Move.items ys) =
        t.hear path (Move.items (below ++ ys)) := by
      rw [List.foldr_cons, ← hbelow ys]
      rfl
    refine Eq.trans ?_ hhear.symm
    simp only [List.cons_append, Move.items, hear, ignoreFault?, hv]
    split
    · rw [List.append_assoc, Move.items_append_of_open (t.fileMoves_open path)]
    · rfl

mutual
/-- **What a walk from a node gives** is heard at the addresses it comes to. -/
theorem nodeMoves_items (t : Tour) (path : String) (n : FileNode) (ys : List (Move FileLine)) :
    Move.items (t.nodeMoves path n ++ ys) =
      (seenFrom t.ignores path n).foldr (fun a => t.hear (entryPath path a)) (Move.items ys) := by
  cases n with
  | dir entries => exact t.entryMoves_items path _ _ (entriesMoves_items t path entries) ys
  | file content fault => exact t.entryMoves_items path [] [] (fun _ => rfl) ys
  | link target => exact t.entryMoves_items path [] [] (fun _ => rfl) ys

theorem entriesMoves_items (t : Tour) (dir : String) (entries : List (String × FileNode))
    (ys : List (Move FileLine)) :
    Move.items (t.entriesMoves dir entries ++ ys) =
      (seenAmong t.ignores dir entries).foldr (fun a => t.hear (entryPath dir a)) (Move.items ys) := by
  cases entries with
  | nil => rfl
  | cons e rest =>
    obtain ⟨name, n⟩ := e
    simp only [entriesMoves, seenAmong, List.append_assoc, List.foldr_append, List.foldr_map]
    rw [nodeMoves_items t (joinPath dir name) n, entriesMoves_items t dir rest ys]
    rfl
end

end Tour

/-- what is heard one after the other, up to the first failure -/
theorem foldr_hear (t : Tour) (paths : List String) :
    paths.foldr t.hear [] =
      ((paths.takeWhile fun p => (ignoreFault? t.verdict p).isNone).flatMap fun p => Move.items (t.fileMoves p)) ++
        (paths.findSome? (ignoreFault? t.verdict)).toList := by
  induction paths with
  | nil => rfl
  | cons p rest ih =>
    rw [List.foldr_cons, ih, Tour.hear]
    cases hf : ignoreFault? t.verdict p with
    | some last => simp [hf]
    | none => simp [hf]

/-! ## Lines -/

/-- what reading a source gives under a path: its lines, numbered from 1, and an item behind them if reading fails -/
def sourceLines (path : String) (s : Source) : List FileLine :=
  (s.lines.mapIdx fun i line => { number := i + 1, content := decodeLine line, path := path }) ++
    (s.failure.map fun e =>
      { number := s.lines.length + 1, path := path, error := some (.read e) : FileLine }).toList

/-- what reading a node gives under a path, if it is a file that can be opened -/
def nodeLines (path : String) : FileNode → List FileLine
  | .file content none => sourceLines path { bytes := content }
  | .file content (some (.broken e)) => sourceLines path { bytes := content, failure := some e }
  | _ => []

/-- what an entry contributes to a walk: a file its lines, and so does a link to a file, under its own path -/
def contribution (files n : FileNode) (root : String) (address : List String) : List FileLine :=
  match n.at? address, files.lookup (entryPath root address) with
  | some (.link _), .ok target => nodeLines (entryPath root address) target
  | some m, _ => nodeLines (entryPath root address) m
  | none, _ => []

theorem readFrom_items (failure : Option IoError) (delivered : Nat) (lines : List Utf8.Bytes) :
    Move.items (readFrom failure delivered lines) =
      (lines.mapIdx fun i line => { number := delivered + i + 1, text := decodeLine line }) ++
        (failure.map fun e => .stop (delivered + lines.length) (.read e)).toList := by
  induction lines generalizing delivered with
  | nil => cases failure <;> rfl
  | cons line rest ih =>
    simp only [readFrom, Move.items, ih, List.mapIdx_cons, List.cons_append, List.length_cons]
    congr 1
    refine congrArg₂ (· ++ ·) ?_ ?_
    · refine congrArg (List.mapIdx · rest) (funext fun i => funext fun line => ?_)
      rw [Nat.add_right_comm delivered 1 i, Nat.add_assoc delivered i 1]
    · rw [Nat.add_assoc, Nat.add_comm 1]

theorem moves_items (path : String) (s : Source) :
    Move.items (s.moves.map (Move.map (FileLine.ofReadLine path))) = sourceLines path s := by
  simp only [Move.items_map, Source.moves, readFrom_items, sourceLines, Nat.zero_add, List.map_append,
    List.mapIdx_eq_zipIdx_map, List.map_map]
  congr 1
  cases s.failure <;> rfl

theorem readMoves_items (path : String) (n : FileNode) : Move.items (Tour.readMoves path n) = nodeLines path n := by
  cases n with
  | dir entries => rfl
  | link target => rfl
  | file content fault =>
    cases fault with
    | none => exact moves_items path { bytes := content }
    | some fault =>
      cases fault with
      | refused e => rfl
      | broken e => exact moves_items path { bytes := content, failure := some e }

/-- what is heard at an entry that can be opened is what it contributes -/
theorem items_eq_contribution {t : Tour} {n : FileNode} {address : List String} (hwf : t.files.WellFormed)
    (hroot : t.files.lookupEntry t.root = .ok n) (hn : ∀ target, n ≠ .link target)
    (hopen : ∀ content fault, n.at? address = some (.file content fault) →
      ∃ s, t.files.openFile (entryPath t.root address) = .ok s)
    {m : FileNode} (hm : n.at? address = some m) :
    Move.items (t.fileMoves (entryPath t.root address)) = contribution t.files n t.root address := by
  have hnames := (hwf.lookupEntry hroot).isName_of_at? hm
  simp only [contribution, hm, Tour.fileMoves]
  rcases hl : t.files.lookup (entryPath t.root address) with e | found
  · cases m with
    | file content fault =>
      obtain ⟨s, hs⟩ := hopen content fault hm
      rw [FileNode.openFile, hl] at hs
      cases hs
    | dir entries => rfl
    | link target => rfl
  · have hfound : (∀ target, m ≠ .link target) → found = m := fun hlink =>
      FileNode.lookup_entryPath hroot hn hnames hm hlink hl
    cases m with
    | file content fault => rw [hfound fun _ => FileNode.noConfusion]; exact readMoves_items _ _
    | dir entries => rw [hfound fun _ => FileNode.noConfusion]; exact readMoves_items _ _
    | link target => exact readMoves_items _ _

/-- **What an uncancelled walk gives.** From a root that is no link it comes, in the order of addresses, to every entry
at and above which nothing is ignored, and gives what each contributes, up to the first path on which the ignore chain
fails; the item that says so is the last. A root that cannot be looked at gives nothing. -/
theorem walk_eq_listing (w : Walker) (world : World) (verdict : String → MatchResult) (hwf : world.files.WellFormed)
    (hchain : w.ignore.IsFunction world verdict) (hsilent : ∀ n, world.signal n = false) :
    (∀ e, world.files.lookupEntry w.root = .error e → (w.walk world).1 = []) ∧
    ∀ n, world.files.lookupEntry w.root = .ok n → (∀ target, n ≠ .link target) →
      (∀ address content fault, n.at? address = some (.file content fault) →
        ∃ s, world.files.openFile (entryPath w.root address) = .ok s) →
      ∃ visited : List (List String),
        (∀ address, address ∈ visited ↔ (∃ m, n.at? address = some m) ∧
          ∀ above, above <+: address → (verdict (entryPath w.root above)).isOk = false) ∧
        visited.Pairwise AddressLt ∧
        (w.walk world).1 =
          ((visited.takeWhile fun a => (ignoreFault? verdict (entryPath w.root a)).isNone).flatMap
            (contribution world.files n w.root)) ++
            (visited.findSome? fun a => ignoreFault? verdict (entryPath w.root a)).toList := by
  let t : Tour := ⟨w.root, world.files, verdict⟩
  have hwalk : (w.walk world).1 = Move.items t.moves := by
    rw [← Move.run_silent hsilent world.looks]
    exact (Tour.survey_follows (hchain.guides w.root) world (Chain.Asked.refl _ _)).lines
  rw [hwalk]
  constructor
  · intro e he
    simp only [Tour.moves, t, he, Move.items]
  · intro n hroot hn hopen
    have hnwf : n.WellFormed := hwf.lookupEntry hroot
    have hmoves : t.moves = t.nodeMoves w.root n.arranged := by
      cases n with
      | link target => exact absurd rfl (hn target)
      | file content fault => simp only [Tour.moves, t, hroot]
      | dir entries => simp only [Tour.moves, t, hroot]
    have hmem : ∀ address, address ∈ seenFrom t.ignores w.root n.arranged ↔ (∃ m, n.at? address = some m) ∧
        ∀ above, above <+: address → (verdict (entryPath w.root above)).isOk = false := by
      intro address
      have hat : (∃ m, n.arranged.at? address = some m) ↔ ∃ m, n.at? address = some m := by
        rw [FileNode.at?_arranged hnwf]
        cases n.at? address <;> simp
      exact (mem_seenFrom hnwf.arranged address).trans (and_congr_left' hat)
    refine ⟨seenFrom t.ignores w.root n.arranged, hmem, seenFrom_sorted w.root hnwf.rising, ?_⟩
    have hitems := t.nodeMoves_items w.root n.arranged []
    rw [List.append_nil, Move.items, ← List.foldr_map (f := entryPath w.root) (g := t.hear), foldr_hear,
      List.takeWhile_map, List.flatMap_map, List.findSome?_map] at hitems
    rw [hmoves, hitems]
    refine congrArg₂ (· ++ ·) (List.flatMap_congr fun address haddress => ?_) rfl
    obtain ⟨⟨m, hm⟩, -⟩ := (hmem address).1 ((List.takeWhile_sublist _).subset haddress)
    exact items_eq_contribution hwf hroot hn (hopen address) hm

/-- a directory with two files -/
def pairTree : FileNode := .dir [("d", .dir [("b", .file [120, 10]), ("a", .file [121])])]

/-- walks from the directory and ignores one of the files -/
def pairWalker : Walker := ⟨"d", ⟨{ part := .ignore }, [.glob ⟨"d/b", [.char 'd', .char '/', .char 'b']⟩]⟩⟩

theorem pairTree_wellFormed : pairTree.WellFormed :=
  ⟨by decide, by decide, ⟨by decide, by decide, trivial, by decide, trivial, trivial⟩, trivial⟩

theorem pairWalker_isFunction :
    pairWalker.ignore.IsFunction (World.fresh pairTree ⟨[]⟩) (pairWalker.ignore.value pairTree ⟨[]⟩) := by
  have hplace : Chain.Stands (fun _ => none) pairWalker.ignore.place pairWalker.ignore.stages := by
    intro i script hi
    rcases i with - | i <;> simp [pairWalker, Stage.callable?] at hi
  exact Chain.isFunction_of_settled (by simp [pairWalker, Stage.IsFunction, Stage.callable?]) hplace World.settled_fresh

/-- the files of the directory can be opened -/
theorem pairTree_opens (address : List String) (content : Utf8.Bytes) (fault : Option FileFault)
    (h : (FileNode.dir [("b", .file [120, 10]), ("a", .file [121])]).at? address = some (.file content fault)) :
    ∃ s, pairTree.openFile (entryPath "d" address) = .ok s := by
  have hfile : address = ["b"] ∨ address = ["a"] := by
    match address with
    | [] => cases h
    | name :: rest =>
      obtain ⟨c, hc, hrest⟩ := Option.bind_eq_some_iff.1 h
      have hname : name = "b" ∧ c = .file [120, 10] ∨ name = "a" ∧ c = .file [121] := by
        simpa using FileNode.mem_of_child? hc
      cases rest with
      | nil =>
        rcases hname with ⟨rfl, -⟩ | ⟨rfl, -⟩
        · exact .inl rfl
        · exact .inr rfl
      | cons other more => rcases hname with ⟨-, rfl⟩ | ⟨-, rfl⟩ <;> cases hrest
  rcases hfile with rfl | rfl
  · exact ⟨{ bytes := [120, 10] }, by cbv⟩
  · exact ⟨{ bytes := [121] }, by cbv⟩

/-- the walk comes to the file that is not ignored -/
theorem walk_eq_listing_pair :
    ∃ visited : List (List String), visited.Pairwise AddressLt ∧ ["a"] ∈ visited ∧ ["b"] ∉ visited ∧
      (pairWalker.walk (World.fresh pairTree ⟨[]⟩)).1 =
        ((visited.takeWhile fun a =>
            (ignoreFault? (pairWalker.ignore.value pairTree ⟨[]⟩) (entryPath "d" a)).isNone).flatMap
          (contribution pairTree (.dir [("b", .file [120, 10]), ("a", .file [121])]) "d")) ++
          (visited.findSome? fun a =>
            ignoreFault? (pairWalker.ignore.value pairTree ⟨[]⟩) (entryPath "d" a)).toList := by
  obtain ⟨visited, hmem, hsorted, hwalk⟩ :=
    (walk_eq_listing pairWalker (World.fresh pairTree ⟨[]⟩) _ pairTree_wellFormed pairWalker_isFunction fun _ => rfl).2
      (.dir [("b", .file [120, 10]), ("a", .file [121])]) (by cbv) nofun pairTree_opens
  refine ⟨visited, hsorted, (hmem ["a"]).2 ⟨⟨.file [121], by cbv⟩, fun above habove => ?_⟩, fun hb => ?_, hwalk⟩
  · rcases List.prefix_cons_iff.1 habove with rfl | ⟨more, rfl, hmore⟩
    · decide +kernel
    · rw [List.prefix_nil.1 hmore]
      decide +kernel
  · exact absurd (((hmem ["b"]).1 hb).2 ["b"] (List.prefix_refl _)) (by decide +kernel)

end Gleaner
