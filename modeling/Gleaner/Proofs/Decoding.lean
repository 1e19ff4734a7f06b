/-
What can be read back from an output.

A record is written as one line of JSON, where empty names and a missing node are left out. All the same, a reader gets
back from the line what was written (`Record.ofLine?_bytes`): the root, the line of the file, the category and the
node, but for errors, which no written record has (`Record.Whole`). And since no record has a line break in its text,
the lines of an output are its records, whatever texts they hold and however the run ended (`Run.Tells`).

Results:
- `Record.ofJson?_json`, `Record.ofLine?_bytes`: a record is read back from its JSON and from its line;
- `Run.Tells.bind`, `Run.Tells.forIn`: parts of a run one after the other, and loops;
- `Pipeline.run_tells`: a run writes and counts whole records;
- `Pipeline.output_decodes`: the output of a run.
-/
import Gleaner.Proofs.Bytes
import Gleaner.Proofs.JsonValues
import Gleaner.Proofs.Printing
import Gleaner.Proofs.Runs
import Gleaner.Proofs.Writing
import Mathlib

namespace Gleaner

/-! ## Reading records -/

namespace Json

def int? : Json → Option Int
  | .number lexeme => lexeme.toInt?
  | _ => none

def nat? : Json → Option Nat
  | .number lexeme => lexeme.toNat?
  | _ => none

def text? : Json → Option String
  | .string s => some s
  | _ => none

/-- the text of a field that is left out where it is empty -/
def textOrEmpty? (name : String) (j : Json) : Option String :=
  match j.field? name with
  | none => some ""
  | some value => value.text?

theorem int?_ofInt (k : Int) : (ofInt k).int? = some k := by
  rw [ofInt, int?, Int.toString_eq_repr, Int.toInt?_repr]

theorem nat?_ofNat (n : Nat) : (ofNat n).nat? = some n := by
  rw [ofNat, nat?, Nat.toString_eq_repr, Nat.toNat?_repr]

theorem nat?_ofInt (n : Nat) : (ofInt n).nat? = some n := nat?_ofNat n

end Json

def ReadLine.ofJson? (j : Json) : Option ReadLine := do
  let number ← (← j.field? "linum").nat?
  let text ← (← j.field? "text").text?
  return { number, text }

def FileLine.ofJson? (j : Json) : Option FileLine := do
  let number ← (← j.field? "linum").nat?
  let content ← (← j.field? "content").text?
  let path ← (← j.field? "path").text?
  return { number, content, path }

/-- reads an entry that has a text -/
def Selection.ofJson? (j : Json) : Option Selection := do
  let index ← (← j.field? "index").nat?
  let name ← j.textOrEmpty? "name"
  let text ← (← j.field? "result").text?
  return { index, name, outcome := .ok text }

/-- reads a rewritten text; the number -1 is that of no normalizer -/
def Normalized.ofJson? (j : Json) : Option Normalized := do
  let number ← (← j.field? "index").int?
  let name ← j.textOrEmpty? "name"
  let result ← j.textOrEmpty? "result"
  return { index := if number = -1 then none else some number.toNat, name, result }

def Selected.ofJson? (j : Json) : Option Selected := do
  let origin ← Selection.ofJson? (← j.field? "origin")
  let normalized ← Normalized.ofJson? (← j.field? "normalized")
  return { origin, normalized }

namespace Record

def ofJson? (j : Json) : Option Record := do
  let root ← ReadLine.ofJson? (← j.field? "path")
  let line ← FileLine.ofJson? (← j.field? "line")
  let category ← Selected.ofJson? (← j.field? "category")
  match j.field? "node" with
  | none => return { root, line, category, node := none }
  | some node => return { root, line, category, node := some (← Selected.ofJson? node) }

/-- reads a line of an output: the bytes of one JSON object, which is that of a record -/
def ofLine? (bytes : Utf8.Bytes) : Option Record :=
  match Json.parse (Utf8.decode bytes) with
  | .ok (.object fields) => ofJson? (.object fields)
  | _ => none

end Record

/-! ## Records read back -/

/-- an entry that has a text -/
def Selection.HasText (s : Selection) : Prop := ∃ text, s.outcome = .ok text

/-- a record without errors -/
structure Record.Whole (r : Record) : Prop where
  root : r.root.error = none
  line : r.line.error = none
  category : r.category.origin.HasText
  node : ∀ node ∈ r.node, node.origin.HasText

theorem ReadLine.ofJson?_json {l : ReadLine} (h : l.error = none) : ofJson? (Record.rootJson l) = some l := by
  obtain ⟨number, text, error⟩ := l
  cases h
  simp [ofJson?, Record.rootJson, Json.field?, Json.nat?_ofNat, Json.text?]

theorem FileLine.ofJson?_json {l : FileLine} (h : l.error = none) : ofJson? (Record.lineJson l) = some l := by
  obtain ⟨number, content, path, error⟩ := l
  cases h
  simp [ofJson?, Record.lineJson, Json.field?, Json.nat?_ofNat, Json.text?]

theorem Selection.ofJson?_json {s : Selection} (h : s.HasText) : ofJson? s.json = some s := by
  obtain ⟨index, name, outcome⟩ := s
  obtain ⟨text, rfl⟩ := h
  by_cases hname : name = "" <;>
    simp [ofJson?, json, ruleFields, Json.field?, Json.textOrEmpty?, Json.nat?_ofInt, Json.text?, hname]

theorem Normalized.ofJson?_json (n : Normalized) : ofJson? n.json = some n := by
  obtain ⟨index, name, result⟩ := n
  have hindex : (if number ⟨index, name, result⟩ = -1 then none else some (number ⟨index, name, result⟩).toNat) =
      index := by
    cases index with
    | none => rfl
    | some i =>
      have hne : (i : Int) ≠ -1 := by omega
      simp [number, hne]
  by_cases hname : name = "" <;> by_cases hresult : result = "" <;>
    simp_all [ofJson?, json, Selection.ruleFields, Json.field?, Json.textOrEmpty?, Json.int?_ofInt, Json.text?]

theorem Selected.ofJson?_json {s : Selected} (h : s.origin.HasText) : ofJson? s.json = some s := by
  have horigin := Selection.ofJson?_json h
  have hnormalized := s.normalized.ofJson?_json
  simp [ofJson?, json, Json.field?, horigin, hnormalized]

namespace Record

/-- **A record is read back** from its JSON. -/
theorem ofJson?_json {r : Record} (h : r.Whole) : ofJson? r.json = some r := by
  obtain ⟨root, line, category, node⟩ := r
  have hroot := ReadLine.ofJson?_json h.root
  have hline := FileLine.ofJson?_json h.line
  have hcategory := Selected.ofJson?_json h.category
  cases node with
  | none => simp_all [ofJson?, json, Json.field?]
  | some node =>
    have hnode := Selected.ofJson?_json (h.node node rfl)
    simp_all [ofJson?, json, Json.field?]

end Record

/-! ## Lines read back -/

section

open Json (Shallow)

theorem Selection.ruleFields_shallow (n : Nat) (index : Int) (name : String) :
    ∀ f ∈ ruleFields index name, Shallow n f.2 := by
  unfold ruleFields
  refine List.forall_mem_cons.2 ⟨.number index, ?_⟩
  split
  · exact List.forall_mem_nil _
  · exact List.forall_mem_singleton.2 (.string name)

theorem Selection.json_shallow (n : Nat) (s : Selection) : s.json.Shallow (n + 1) := by
  refine .object (List.forall_mem_append.2 ⟨ruleFields_shallow n s.index s.name, List.forall_mem_singleton.2 ?_⟩)
  cases s.outcome with
  | ok text => exact .string text
  | error e => exact .string e.message

theorem Normalized.json_shallow (n : Nat) (s : Normalized) : s.json.Shallow (n + 1) := by
  refine .object (List.forall_mem_append.2 ⟨Selection.ruleFields_shallow n s.number s.name, ?_⟩)
  split
  · exact List.forall_mem_nil _
  · exact List.forall_mem_singleton.2 (.string s.result)

theorem Selected.json_shallow (n : Nat) (s : Selected) : s.json.Shallow (n + 2) := by
  refine .object (List.forall_mem_cons.2 ⟨?_, List.forall_mem_singleton.2 ?_⟩)
  · exact s.origin.json_shallow n
  · exact s.normalized.json_shallow n

/-- the values of a record enclose one another twice -/
theorem Record.json_shallow (n : Nat) (r : Record) : r.json.Shallow (n + 3) := by
  have hroot : (rootJson r.root).Shallow (n + 2) := by
    refine .object (List.forall_mem_cons.2 ⟨.number r.root.number, ?_⟩)
    exact List.forall_mem_singleton.2 (.string r.root.text)
  have hline : (lineJson r.line).Shallow (n + 2) := by
    refine .object (List.forall_mem_cons.2 ⟨.number r.line.number, List.forall_mem_cons.2 ⟨.string r.line.content, ?_⟩⟩)
    exact List.forall_mem_singleton.2 (.string r.line.path)
  refine .object (List.forall_mem_append.2 ⟨?_, ?_⟩)
  · exact List.forall_mem_cons.2 ⟨hroot, List.forall_mem_cons.2 ⟨hline,
      List.forall_mem_singleton.2 (r.category.json_shallow n)⟩⟩
  · cases r.node with
    | none => exact List.forall_mem_nil _
    | some node => exact List.forall_mem_singleton.2 (node.json_shallow n)

end

namespace Record

/-- the bytes of a line, without its line break -/
def bytes (r : Record) : Utf8.Bytes := Utf8.encode r.json.render

theorem parse_render (r : Record) : Json.parse r.json.render = .ok r.json := by
  have hread := Json.parse_shallow (r.json_shallow 124) (.inl rfl)
  rwa [String.append_empty] at hread

/-- **A record is read back** from the bytes of its line. -/
theorem ofLine?_bytes {r : Record} (h : r.Whole) : ofLine? r.bytes = some r := by
  rw [ofLine?, bytes, Utf8.decode_encode, parse_render]
  exact ofJson?_json h

theorem bytes_ne_nil (r : Record) : r.bytes ≠ [] := by
  refine Utf8.encode_ne_nil fun hempty => ?_
  have hread := r.parse_render
  rw [hempty] at hread
  cases hread

/-- records, each on a line of its own, are cut into their lines -/
theorem splitBytes_rows (records : List Record) :
    splitBytes (Utf8.encode (String.join (records.map row))) = (records.map bytes, []) := by
  have hlines := splitBytes_lines (List.forall_mem_map.2 fun r (_ : r ∈ records) => r.newline_notMem)
  simp only [List.map_map, Function.comp_def] at hlines
  exact hlines

/-- two records that are written as the same line are the same -/
theorem eq_of_row_eq {r r' : Record} (h : r.Whole) (h' : r'.Whole) (hrow : r.row = r'.row) : r = r' := by
  have hbytes : r.bytes = r'.bytes := congrArg Utf8.encode ((String.append_left_inj _).1 hrow)
  have hread := ofLine?_bytes h
  rw [hbytes, ofLine?_bytes h'] at hread
  exact (Option.some.inj hread).symm

end Record

/-! ## Parts of a run -/

/-- a part of a run writes and counts whole records only, from any state with room for everything -/
def Run.Tells {α : Type} (m : Run α) : Prop :=
  ∀ s : RunState, s.output.limit = none → ∃ done, Did done s (m.run s).2 ∧ ∀ r ∈ recordsOf done, r.Whole

namespace Run.Tells

variable {α β : Type}

/-- a part of a run that writes and counts nothing -/
theorem quiet {m : Run α} (houtput : ∀ s, (m.run s).2.output = s.output)
    (hsummary : ∀ s, (m.run s).2.summary = s.summary) : Tells m := fun s _ =>
  ⟨[], Did.nothing (houtput s) (hsummary s), List.forall_mem_nil _⟩

theorem pure (a : α) : Tells (Pure.pure a : Run α) := quiet (fun _ => rfl) fun _ => rfl

theorem fail (e : RunError) : Tells (throw e : Run α) := quiet (fun _ => rfl) fun _ => rfl

theorem lift (a : StateM Workspace α) : Tells (Run.lift a) := quiet (fun _ => rfl) fun _ => rfl

/-- **One part of a run after another** -/
theorem bind {m : Run α} {f : α → Run β} (h : Tells m) (hf : ∀ a, Tells (f a)) : Tells (m >>= f) := by
  intro s hs
  obtain ⟨done, hdone, hwhole⟩ := h s hs
  rw [Run.bind_run]
  rcases hm : m.run s with ⟨e | a, s₁⟩
  · rw [hm] at hdone
    exact ⟨done, hdone, hwhole⟩
  · rw [hm] at hdone
    obtain ⟨more, hmore, hmoreWhole⟩ := hf a s₁ (hdone.limit.trans hs)
    refine ⟨done ++ more, hdone.trans hmore, ?_⟩
    rw [recordsOf, List.filterMap_append]
    exact List.forall_mem_append.2 ⟨hwhole, hmoreWhole⟩

theorem forIn {l : List α} {body : α → PUnit → Run (ForInStep PUnit)} (h : ∀ x, Tells (body x ⟨⟩)) :
    Tells (ForIn.forIn l ⟨⟩ body) := by
  induction l with
  | nil => exact pure _
  | cons x rest ih =>
    rw [List.forIn_cons]
    refine (h x).bind fun step => ?_
    cases step with
    | done => exact pure _
    | yield => exact ih

theorem checkSignal : Tells Run.checkSignal := by
  unfold Run.checkSignal
  refine (lift _).bind fun up => ?_
  cases up with
  | true => exact fail .cancelled
  | false => exact pure _

theorem count {e : Event} (hpieces : e.pieces = []) (hfail : e.isFail = false) (hrecord : e.record? = none) :
    Tells (Run.count fun s => e.tally s) := by
  intro s _
  refine ⟨[e], ⟨List.forall_mem_singleton.2 hfail, ?_, rfl⟩, ?_⟩
  · rw [List.flatMap_singleton, hpieces]
    rfl
  · rw [recordsOf, List.filterMap_cons_none hrecord]
    exact List.forall_mem_nil _

/-- **A record** is written, and counted. -/
theorem writeRecord {r : Record} (h : r.Whole) : Tells (Pipeline.writeRecord r) := by
  intro s hs
  rw [writeRecord_of_fits (Output.fits_of_unlimited hs _)]
  refine ⟨[.record r], ⟨List.forall_mem_singleton.2 rfl, ?_, rfl⟩, List.forall_mem_singleton.2 h⟩
  rw [Event.record_pieces]

/-- going through an entry of a rule, which has a text if anything is done with it -/
theorem entry {stage : String} {line : FileLine} {s : Selection} {k : Option String → Run β} (hnone : Tells (k none))
    (hsome : s.HasText → ∀ text, Tells (k (some text))) : Tells (Pipeline.selected? stage line s >>= k) := by
  unfold Pipeline.selected?
  cases houtcome : s.outcome with
  | ok text => exact hsome ⟨text, houtcome⟩ text
  | error e =>
    simp only
    split
    · exact hnone
    · exact fail _

/-- going through rewritten texts -/
theorem normalized {stage : String} {line : FileLine} {a : StateM Workspace (Except MatchError (List Normalized))}
    {body : Normalized → PUnit → Run (ForInStep PUnit)} (h : ∀ n, Tells (body n ⟨⟩)) :
    Tells (do
      let texts ← Pipeline.normalized stage line a
      let _ ← ForIn.forIn texts PUnit.unit body
      Pure.pure (ForInStep.yield PUnit.unit)) := by
  refine bind ?_ fun texts => (forIn h).bind fun _ => pure _
  refine (lift a).bind fun found => ?_
  cases found with
  | ok texts => exact pure texts
  | error e => exact fail _

end Run.Tells

/-! ## Runs -/

namespace Pipeline

open Run (Tells)

variable (p : Pipeline) {root : ReadLine} {line : FileLine}

theorem processNodes_tells (hroot : root.error = none) (hline : line.error = none) {category : Selected}
    (hcategory : category.origin.HasText) : Tells (p.processNodes root line category) := by
  unfold processNodes
  refine (Tells.lift _).bind fun found => (Tells.forIn fun node => ?_).bind fun _ => .pure _
  refine .entry (.pure _) fun hnode value => .normalized fun n => ?_
  have hwhole : Record.Whole ⟨root, line, category, some ⟨node, n⟩⟩ := by
    refine ⟨hroot, hline, hcategory, fun other hother => ?_⟩
    cases hother
    exact hnode
  exact (Tells.writeRecord hwhole).bind fun _ => .pure _

theorem processLine_tells (hroot : root.error = none) (hline : line.error = none) :
    Tells (p.processLine root line) := by
  unfold processLine
  refine (Tells.lift _).bind fun found => ?_
  by_cases hcut : found.any Selection.isCancelled = true
  · rw [if_pos hcut]
    exact .fail _
  rw [if_neg hcut]
  refine (Tells.forIn fun category => ?_).bind fun _ => .pure _
  refine .entry (.pure _) fun hcategory label => .normalized fun n => ?_
  cases p.categoryOnly with
  | true =>
    have hwhole : Record.Whole ⟨root, line, ⟨category, n⟩, none⟩ := ⟨hroot, hline, hcategory, nofun⟩
    exact (Tells.writeRecord hwhole).bind fun _ => .pure _
  | false => exact (p.processNodes_tells hroot hline hcategory).bind fun _ => .pure _

theorem processLines_tells (hroot : root.error = none) (lines : List FileLine) :
    Tells (p.processLines root lines) := by
  induction lines with
  | nil => exact .checkSignal
  | cons line rest ih =>
    unfold processLines
    refine Tells.checkSignal.bind fun _ => ?_
    cases hline : line.error with
    | some e => exact .fail _
    | none =>
      refine (Tells.count (e := .line) rfl rfl rfl).bind fun _ => ?_
      exact (p.processLine_tells hroot hline).bind fun _ => ih

theorem processRoots_tells (roots : List ReadLine) : Tells (p.processRoots roots) := by
  induction roots with
  | nil => exact .checkSignal
  | cons root rest ih =>
    unfold processRoots
    refine Tells.checkSignal.bind fun _ => ?_
    cases hroot : root.error with
    | some e => exact .fail _
    | none =>
      simp only
      cases Text.isBlank root.text with
      | true => exact ih
      | false =>
        refine Tells.bind ?_ fun _ => ih
        unfold processRoot
        refine (Tells.count (e := .root) rfl rfl rfl).bind fun _ => ?_
        exact (Tells.lift _).bind fun lines => p.processLines_tells hroot lines

/-- **A run** writes and counts whole records. -/
theorem run_tells (input : Source) : Tells (p.run input) := by
  unfold run
  refine (Tells.lift _).bind fun roots => (p.processRoots_tells roots).bind fun _ => ?_
  exact .quiet (fun _ => rfl) fun _ => rfl

/-- **An output is read back**, whatever the tree holds and however the run ended, if there is room for everything.
- As many records have been written as are counted, in their order. The bytes of the output, cut at every line break,
  are one line for each of them, with nothing left behind the last; no line is empty, each is the text of one JSON
  object, and what is read from it is the record.
- So for every record by itself: one without errors is written as a line that is read back as the record, and is
  counted.
- Different records are written as different lines. -/
theorem output_decodes (p : Pipeline) :
    (∀ (input : Source) (ws : Workspace),
      let s := ((p.run input).run { workspace := ws }).2
      ∃ (records : List Record) (lines : List Utf8.Bytes),
        records.length = s.summary.records ∧ (∀ r ∈ records, r.Whole) ∧
        s.output.text = String.join (records.map Record.row) ∧
        splitBytes (Utf8.encode s.output.text) = (lines, []) ∧ (∀ line ∈ lines, line ≠ []) ∧
        lines.map Record.ofLine? = records.map some) ∧
    (∀ (r : Record) (s : RunState), r.Whole → s.output.limit = none →
      ((writeRecord r).run s).1 = .ok ⟨⟩ ∧
      ((writeRecord r).run s).2.summary.records = s.summary.records + 1 ∧
      ((writeRecord r).run s).2.output.text = s.output.text ++ (r.json.render ++ "\n") ∧
      '\n' ∉ r.json.render.toList ∧ Record.ofLine? (Utf8.encode r.json.render) = some r) ∧
    ∀ r r' : Record, r.Whole → r'.Whole → r.row = r'.row → r = r' := by
  refine ⟨?_, ?_, ?_⟩
  · intro input ws s
    obtain ⟨done, hdid, hwhole⟩ := p.run_tells input { workspace := ws } rfl
    have htext : s.output.text = String.join ((recordsOf done).map Record.row) :=
      hdid.text.trans (by simp [Output.text])
    have hcount : s.summary.records = (recordsOf done).length := by
      rw [hdid.summary, foldl_tally]
      exact Nat.zero_add _
    refine ⟨recordsOf done, (recordsOf done).map Record.bytes, hcount.symm, hwhole, htext, ?_, ?_, ?_⟩
    · rw [htext, Record.splitBytes_rows]
    · exact List.forall_mem_map.2 fun r _ => r.bytes_ne_nil
    · rw [List.map_map]
      exact List.map_congr_left fun r hr => Record.ofLine?_bytes (hwhole r hr)
  · intro r s hr hs
    rw [writeRecord_of_fits (Output.fits_of_unlimited hs _)]
    refine ⟨rfl, rfl, ?_, r.newline_notMem, Record.ofLine?_bytes hr⟩
    rw [Output.written_text]
    exact congrArg (s.output.text ++ ·) r.join_pieces
  · intro r r' hr hr' hrow
    exact Record.eq_of_row_eq hr hr' hrow

/-- a file with a quote, a backslash, a NUL and a byte that is no text in its line -/
theorem output_decodes_odd :
    let files := FileNode.dir [("f", .file [34, 92, 0, 255, 10])]
    let line : FileLine := { path := "f", number := 1, content := "\"\\\x00\uFFFD" }
    let r : Record := { smallRecord with line := line }
    r.Whole ∧ Record.ofLine? (Utf8.encode r.json.render) = some r ∧
      ((smallPipeline.run smallInput).run { workspace := { world := { files := files } } }).2.output.text = r.row := by
  intro files line r
  have hwhole : r.Whole := by
    refine ⟨rfl, rfl, ⟨"k", rfl⟩, fun node hnode => ?_⟩
    cases hnode
    exact ⟨"v", rfl⟩
  obtain ⟨-, hwritten, -⟩ := output_decodes smallPipeline
  obtain ⟨-, -, -, -, hread⟩ := hwritten r { workspace := {} } hwhole rfl
  exact ⟨hwhole, hread, by decide +kernel⟩

end Pipeline

end Gleaner
