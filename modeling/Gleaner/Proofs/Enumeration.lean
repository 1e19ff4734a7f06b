/-
The enumeration that a run comes to.

Without tables and signals, a run is a nested enumeration: the paths of the input, the lines of the walk through each of
them, the outputs of the category rules for a line, what the category normalizers rewrite them to, the outputs of the
node rules for these, and what the node normalizers rewrite those to. `Pipeline.enumeration` is the list of its events,
with what rules give in a fresh world. It goes on behind a failure; a run does not.

Results:
- `join_events`: what events write are the lines of their records;
- `gather_flatMap`: going through the entries of rules is going through the rules and their outputs;
- `enumeration_tally`: what is counted if nothing fails.
-/
import Gleaner.Proofs.Plays

namespace Gleaner

/-! ## What events come to -/

namespace Event

def record? : Event → Option Record
  | .record r => some r
  | _ => none

def isRoot : Event → Bool
  | .root => true
  | _ => false

def isLine : Event → Bool
  | .line => true
  | _ => false

end Event

/-- the records among events -/
def recordsOf (events : List Event) : List Record := events.filterMap Event.record?

/-- the line of a record in an output -/
def Record.row (r : Record) : String := r.json.render ++ "\n"

theorem Json.join_plainPiece (latest : List Char) : String.join (plainPiece latest) = String.ofList latest.reverse := by
  cases latest <;> simp [plainPiece]

/-- the pieces inside quotes come to the escaped characters -/
theorem Json.join_innerPieces (latest cs : List Char) :
    String.join (innerPieces latest cs) = String.ofList (latest.reverse ++ cs.flatMap escapeChar) := by
  induction cs generalizing latest with
  | nil => simp [innerPieces, join_plainPiece]
  | cons c rest ih =>
    rw [innerPieces]
    split
    · rename_i hplain
      rw [ih, List.flatMap_cons, hplain]
      simp
    · rw [String.join_append, join_plainPiece, String.join_cons, ih]
      simp [String.ofList_append]

theorem Json.join_quotePieces (s : String) : String.join (quotePieces s) = quote s := by
  have hquote : quote s = "\"" ++ String.ofList (s.toList.flatMap escapeChar) ++ "\"" := by
    simp [quote, ← String.toList_inj]
  rw [hquote, quotePieces, List.cons_append, String.join_cons, String.join_append, join_innerPieces]
  simp [String.append_assoc]

mutual
theorem Json.join_pieces (j : Json) : String.join j.pieces = j.render := by
  cases j with
  | null => simp [Json.pieces, Json.render]
  | bool b => simp [Json.pieces, Json.render]
  | number lexeme => simp [Json.pieces, Json.render]
  | string s => simp [Json.pieces, Json.render, Json.join_quotePieces]
  | array items => simp [Json.pieces, Json.render, Json.join_itemPieces items, String.append_assoc]
  | object fields => simp [Json.pieces, Json.render, Json.join_fieldPieces fields, String.append_assoc]

theorem Json.join_itemPieces (items : List Json) : String.join (Json.itemPieces items) = Json.renderItems items := by
  match items with
  | [] => rfl
  | [item] => exact Json.join_pieces item
  | item :: next :: rest =>
    simp [Json.itemPieces, Json.renderItems, Json.join_pieces item, Json.join_itemPieces (next :: rest),
      String.append_assoc]

theorem Json.join_fieldPieces (fields : List (String × Json)) :
    String.join (Json.fieldPieces fields) = Json.renderFields fields := by
  match fields with
  | [] => rfl
  | [(key, value)] =>
    simp [Json.fieldPieces, Json.renderFields, Json.join_quotePieces, Json.join_pieces value, String.append_assoc]
  | (key, value) :: next :: rest =>
    simp [Json.fieldPieces, Json.renderFields, Json.join_quotePieces, Json.join_pieces value,
      Json.join_fieldPieces (next :: rest), String.append_assoc]
end

/-- **What events write** are the lines of their records. -/
theorem join_events (events : List Event) :
    String.join (events.flatMap Event.pieces) = String.join ((recordsOf events).map Record.row) := by
  induction events with
  | nil => rfl
  | cons e rest ih =>
    rw [List.flatMap_cons, String.join_append, ih]
    cases e <;> simp [Event.pieces, recordsOf, Event.record?, Record.row, Json.join_pieces, List.filterMap_cons]

/-- **What events count** -/
theorem foldl_tally (events : List Event) (s : Summary) :
    events.foldl Event.tally s =
      ⟨s.roots + events.countP Event.isRoot, s.lines + events.countP Event.isLine,
        s.records + (recordsOf events).length⟩ := by
  induction events generalizing s with
  | nil => rfl
  | cons e rest ih =>
    rw [List.foldl_cons, ih]
    cases e <;>
      simp [Event.tally, Event.isRoot, Event.isLine, recordsOf, Event.record?, List.filterMap_cons,
        List.countP_cons] <;>
      omega

/-! ## The enumeration -/

namespace Pipeline

section

variable (stage : String) (line : FileLine)

/-- goes through the outputs of a rule; there are none if it has no match, and any other failure fails -/
def eachOutput (i : Nat) (name : String) (found : MatchResult) (next : Selection → String → List Event) : List Event :=
  match found with
  | .ok outputs => outputs.flatMap fun text => next ⟨i, name, .ok text⟩ text
  | .error e => if e.isUnmatched then [] else [.fail (.selection stage line.render e.message)]

/-- goes through rewritten texts -/
def eachNormalized (found : Except MatchError (List Normalized)) (next : Normalized → List Event) : List Event :=
  match found with
  | .ok texts => texts.flatMap next
  | .error e => [.fail (.selection stage line.render e.message)]

/-- goes through an entry of a rule -/
def eachEntry (next : Selection → String → List Event) (s : Selection) : List Event :=
  match s.outcome with
  | .ok text => next s text
  | .error e => if e.unmatched then [] else [.fail (.selection stage line.render e.message)]

theorem expand_flatMap (next : Selection → String → List Event) (i : Nat) (name : String) (found : MatchResult) :
    (Selection.expand i name found).flatMap (eachEntry stage line next) = eachOutput stage line i name found next := by
  cases found with
  | ok outputs => simp [Selection.expand, eachEntry, eachOutput, List.flatMap_map]
  | error e => simp [Selection.expand, eachEntry, eachOutput, SelectionError.of]

/-- **Going through the entries of rules** is going through the rules and their outputs. -/
theorem gather_flatMap {α : Type} (name : α → String) (value : α → MatchResult)
    (next : Selection → String → List Event) (i : Nat) (rules : List α) :
    (Selection.gather name value i rules).flatMap (eachEntry stage line next) =
      (rules.zipIdx i).flatMap fun (rule, i) => eachOutput stage line i (name rule) (value rule) next := by
  induction rules generalizing i with
  | nil => rfl
  | cons rule rest ih =>
    rw [Selection.gather, List.flatMap_append, ih, expand_flatMap, List.zipIdx_cons, List.flatMap_cons]

end

variable (p : Pipeline) (files : FileNode) (env : Environment)

/-- the records of the nodes in a line of a file of a category: those of the rules whose pattern matches the category -/
def nodeEvents (root : ReadLine) (line : FileLine) (category : Selected) : List Event :=
  p.nodes.zipIdx.flatMap fun (rule, i) =>
    if rule.category.isMatch category.normalized.result then
      eachOutput "node" line i rule.name (rule.value files env category.normalized.result line.content)
        fun node value =>
          eachNormalized "node normalizer" line (rewritten files env p.nodeNormalizers value) fun n =>
            [.record ⟨root, line, category, some ⟨node, n⟩⟩]
    else []

/-- the records of a line -/
def categoryEvents (root : ReadLine) (line : FileLine) : List Event :=
  p.categories.zipIdx.flatMap fun (rule, i) =>
    eachOutput "category" line i rule.name (rule.value files env line.path) fun category label =>
      eachNormalized "category normalizer" line (rewritten files env p.categoryNormalizers label) fun n =>
        if p.categoryOnly then [.record ⟨root, line, ⟨category, n⟩, none⟩]
        else p.nodeEvents files env root line ⟨category, n⟩

/-- a walked line -/
def lineEvents (root : ReadLine) (line : FileLine) : List Event :=
  match line.error with
  | some e => [.fail (.ofStream line.render e)]
  | none => .line :: p.categoryEvents files env root line

/-- the lines of the walk from a root in a fresh world -/
def walked (root : String) : List FileLine := (Walker.walk ⟨root, p.ignore⟩ (World.fresh files env)).1

/-- a line of the input -/
def rootEvents (root : ReadLine) : List Event :=
  match root.error with
  | some e => [.fail (.ofStream ("input line " ++ toString root.number) e)]
  | none =>
    if Text.isBlank root.text then []
    else .root :: (p.walked files env root.text).flatMap (p.lineEvents files env root)

/-- the lines of an input -/
def inputLines (input : Source) : List ReadLine := readLines input fun _ => false

/-- **The nested enumeration** for an input -/
def enumeration (input : Source) : List Event := (inputLines input).flatMap (p.rootEvents files env)

/-- the lines of an input that are not blank -/
def roots (input : Source) : List ReadLine := (inputLines input).filter fun root => !Text.isBlank root.text

/-- the lines of the walks through an input -/
def lines (input : Source) : List FileLine := (roots input).flatMap fun root => p.walked files env root.text

/-! ## Counts -/

section

variable {p : Pipeline} {files : FileNode} {env : Environment} {stage : String} {line : FileLine} {P : Event → Prop}

theorem forall_eachOutput (hfail : ∀ e, P (.fail e)) {i : Nat} {name : String} {found : MatchResult}
    {next : Selection → String → List Event} (hnext : ∀ s text, ∀ e ∈ next s text, P e) :
    ∀ e ∈ eachOutput stage line i name found next, P e := by
  intro e he
  cases found with
  | ok outputs =>
    obtain ⟨text, -, he⟩ := List.mem_flatMap.1 he
    exact hnext _ text e he
  | error failure =>
    simp only [eachOutput] at he
    split at he
    · exact absurd he List.not_mem_nil
    · rw [List.mem_singleton.1 he]
      exact hfail _

theorem forall_eachNormalized (hfail : ∀ e, P (.fail e)) {found : Except MatchError (List Normalized)}
    {next : Normalized → List Event} (hnext : ∀ n, ∀ e ∈ next n, P e) :
    ∀ e ∈ eachNormalized stage line found next, P e := by
  intro e he
  cases found with
  | ok texts =>
    obtain ⟨n, -, he⟩ := List.mem_flatMap.1 he
    exact hnext n e he
  | error failure =>
    rw [List.mem_singleton.1 he]
    exact hfail _

/-- the events of a line are records and failures -/
theorem forall_categoryEvents (hfail : ∀ e, P (.fail e)) (hrecord : ∀ r, P (.record r)) (root : ReadLine)
    (line : FileLine) : ∀ e ∈ p.categoryEvents files env root line, P e := by
  have hone : ∀ r, ∀ e ∈ [Event.record r], P e := fun r e he => List.mem_singleton.1 he ▸ hrecord r
  have hnodes : ∀ category, ∀ e ∈ p.nodeEvents files env root line category, P e := by
    intro category e he
    obtain ⟨⟨rule, i⟩, -, he⟩ := List.mem_flatMap.1 he
    simp only at he
    split at he
    · exact forall_eachOutput hfail (fun _ _ => forall_eachNormalized hfail fun _ => hone _) e he
    · exact absurd he List.not_mem_nil
  intro e he
  obtain ⟨⟨rule, i⟩, -, he⟩ := List.mem_flatMap.1 he
  refine forall_eachOutput hfail (fun category label => forall_eachNormalized hfail fun n => ?_) e he
  split
  · exact hone _
  · exact hnodes _

theorem countP_categoryEvents {f : Event → Bool} (hfail : ∀ e, f (.fail e) = false)
    (hrecord : ∀ r, f (.record r) = false) (root : ReadLine) (line : FileLine) :
    (p.categoryEvents files env root line).countP f = 0 := by
  rw [List.countP_eq_zero]
  intro e he
  rw [forall_categoryEvents (P := fun e => f e = false) hfail hrecord root line e he]
  exact Bool.false_ne_true

/-- walked lines that do not fail are counted, and nothing else is -/
theorem countP_lines {root : ReadLine} {lines : List FileLine}
    (h : ∀ e ∈ lines.flatMap (p.lineEvents files env root), e.isFail = false) :
    (lines.flatMap (p.lineEvents files env root)).countP Event.isLine = lines.length ∧
      (lines.flatMap (p.lineEvents files env root)).countP Event.isRoot = 0 := by
  induction lines with
  | nil => exact ⟨rfl, rfl⟩
  | cons line rest ih =>
    rw [List.flatMap_cons] at h ⊢
    obtain ⟨hlines, hroots⟩ := ih fun e he => h e (List.mem_append_right _ he)
    have hhere : ∀ e ∈ p.lineEvents files env root line, e.isFail = false := fun e he => h e (List.mem_append_left _ he)
    unfold lineEvents at hhere
    rw [List.countP_append, List.countP_append, hlines, hroots, lineEvents]
    cases herror : line.error with
    | some e =>
      rw [herror] at hhere
      cases hhere _ (List.mem_singleton.2 rfl)
    | none =>
      simp only [List.countP_cons]
      rw [countP_categoryEvents (fun _ => rfl) (fun _ => rfl), countP_categoryEvents (fun _ => rfl) (fun _ => rfl)]
      simp [Event.isLine, Event.isRoot, Nat.add_comm]

theorem countP_roots {items : List ReadLine}
    (h : ∀ e ∈ items.flatMap (p.rootEvents files env), e.isFail = false) :
    (items.flatMap (p.rootEvents files env)).countP Event.isRoot =
        (items.filter fun root => !Text.isBlank root.text).length ∧
      (items.flatMap (p.rootEvents files env)).countP Event.isLine =
        ((items.filter fun root => !Text.isBlank root.text).flatMap fun root =>
          p.walked files env root.text).length := by
  induction items with
  | nil => exact ⟨rfl, rfl⟩
  | cons root rest ih =>
    rw [List.flatMap_cons] at h ⊢
    obtain ⟨hroots, hlines⟩ := ih fun e he => h e (List.mem_append_right _ he)
    have hhere : ∀ e ∈ p.rootEvents files env root, e.isFail = false := fun e he => h e (List.mem_append_left _ he)
    unfold rootEvents at hhere
    rw [List.countP_append, List.countP_append, hlines, hroots, rootEvents]
    cases herror : root.error with
    | some e =>
      rw [herror] at hhere
      cases hhere _ (List.mem_singleton.2 rfl)
    | none =>
      rw [herror] at hhere
      simp only at hhere ⊢
      cases hblank : Text.isBlank root.text with
      | true => simp [hblank]
      | false =>
        rw [hblank] at hhere
        obtain ⟨hwalked, hnone⟩ := countP_lines fun e he => hhere e (List.mem_cons_of_mem _ he)
        simp [hblank, List.countP_cons, Event.isRoot, Event.isLine, hwalked, hnone, Nat.add_comm]

/-- **What is counted** in an enumeration without failures: the lines of the input that are not blank, the lines of the
walks through them, and the records. -/
theorem enumeration_tally {input : Source} (h : ∀ e ∈ p.enumeration files env input, e.isFail = false) :
    (p.enumeration files env input).foldl Event.tally {} =
      ⟨(roots input).length, (p.lines files env input).length, (recordsOf (p.enumeration files env input)).length⟩ := by
  obtain ⟨hroots, hlines⟩ := countP_roots h
  rw [foldl_tally]
  simp only [Nat.zero_add, Summary.mk.injEq, and_true]
  exact ⟨hroots, hlines⟩

end

end Pipeline

end Gleaner
