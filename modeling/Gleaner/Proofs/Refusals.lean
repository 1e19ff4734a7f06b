/-
Runs whose output has an end.

An output takes some number of bytes at most and refuses the first write that would exceed it. A run into such an
output is the run into one without an end if all it writes has room; otherwise it writes just the records for which
there is room and a proper part of the next one, and fails with an error of the output if that was refused at its line
break, and with an error of the encoding if before. What is kept stays right, so later runs do not show it.

Results:
- `Output.upTo_refusal`, `Output.Stops.bytes`: which error it is, and where the output stops, in bytes;
- `Pipeline.run_refused`: runs into an output with an end, and later ones;
- `Pipeline.not_succeeds_iff_room`: a run may fail although there is room for all it writes.
-/
import Gleaner.Proofs.Records
import Gleaner.Proofs.Threading

namespace Gleaner

/-! ## Bytes -/

theorem byteSize_eq (pieces : List String) : byteSize pieces = (String.join pieces).utf8ByteSize := by
  induction pieces with
  | nil => rfl
  | cons piece rest ih =>
    have hcons : byteSize (piece :: rest) = piece.utf8ByteSize + byteSize rest := rfl
    rw [hcons, ih, String.join_cons, String.utf8ByteSize_append]

theorem byteSize_append (xs ys : List String) : byteSize (xs ++ ys) = byteSize xs + byteSize ys := by
  simp [byteSize]

/-- the text of the lines of records -/
def rowText (records : List Record) : String := String.join (records.map Record.row)

theorem byteSize_rowPieces (records : List Record) : byteSize (rowPieces records) = (rowText records).utf8ByteSize := by
  rw [byteSize_eq, join_rowPieces, rowText]

theorem byteSize_json (r : Record) : byteSize r.json.pieces = r.json.render.utf8ByteSize := by
  rw [byteSize_eq, Json.join_pieces]

/-- an output that takes so many bytes -/
def Output.upTo (limit : Nat) (failure : IoError) : Output := { limit := some limit, failure := failure }

theorem Output.upTo_fits {limit : Nat} {failure : IoError} (pieces : List String) :
    (upTo limit failure).Fits pieces ↔ byteSize pieces ≤ limit := by
  constructor
  · intro h
    have hroom := h limit rfl
    rwa [upTo, Nat.zero_add] at hroom
  · rintro h _ ⟨⟩
    rwa [upTo, Nat.zero_add]

theorem Output.upTo_written_fits {limit : Nat} {failure : IoError} (xs ys : List String) :
    ((upTo limit failure).written xs).Fits ys ↔ byteSize xs + byteSize ys ≤ limit := by
  have hboth : (upTo limit failure).Fits (xs ++ ys) ↔ byteSize (xs ++ ys) ≤ limit := upTo_fits (xs ++ ys)
  rw [← byteSize_append, ← hboth]
  exact ⟨fits_append, Fits.right⟩

/-- **Which error refuses a record**: one of the output if just its line break has no room. -/
theorem Output.upTo_refusal {limit : Nat} {failure : IoError} (before : List Record) {next : Record}
    (hfull : limit < (rowText (before ++ [next])).utf8ByteSize) :
    ((upTo limit failure).written (rowPieces before)).refusal next =
      if limit = (rowText before).utf8ByteSize + next.json.render.utf8ByteSize then .output failure
      else .encode failure.message := by
  have hrow : (rowText (before ++ [next])).utf8ByteSize =
      (rowText before).utf8ByteSize + next.json.render.utf8ByteSize + 1 := by
    have hline : byteSize ["\n"] = 1 := by decide
    have hsingle : rowPieces [next] = next.json.pieces ++ ["\n"] := List.flatMap_singleton _ _
    rw [← byteSize_rowPieces, ← byteSize_rowPieces, ← byteSize_json, rowPieces_append, hsingle, byteSize_append,
      byteSize_append, hline, Nat.add_assoc]
  have haccepts : ((upTo limit failure).written (rowPieces before)).accepts (byteSize next.json.pieces) = true ↔
      (rowText before).utf8ByteSize + next.json.render.utf8ByteSize ≤ limit := by
    rw [accepts_iff_fits, upTo_written_fits, byteSize_rowPieces, byteSize_json]
  have hexact : (rowText before).utf8ByteSize + next.json.render.utf8ByteSize ≤ limit ↔
      limit = (rowText before).utf8ByteSize + next.json.render.utf8ByteSize := by omega
  have hfailure : ((upTo limit failure).written (rowPieces before)).failure = failure := rfl
  rw [refusal, hfailure]
  exact if_congr (haccepts.trans hexact) rfl rfl

/-- **Where an output stops** within the record behind others, in bytes. -/
theorem Output.Stops.bytes {limit : Nat} {failure : IoError} {before : List Record} {next : Record} {o : Output}
    (h : ((upTo limit failure).written (rowPieces before)).Stops next.pieces o) :
    limit < (rowText (before ++ [next])).utf8ByteSize ∧
      ∃ front piece rest, next.pieces = front ++ piece :: rest ∧ o.text = rowText before ++ String.join front ∧
        o.text.utf8ByteSize ≤ limit ∧ limit < o.text.utf8ByteSize + piece.utf8ByteSize := by
  obtain ⟨front, piece, rest, hpieces, hfront, hrefused, rfl⟩ := h
  rw [upTo_written_fits, byteSize_rowPieces] at hfront hrefused
  have hpiece : byteSize (front ++ [piece]) = byteSize front + piece.utf8ByteSize := by
    rw [byteSize_append]
    simp [byteSize]
  have hnext : byteSize next.pieces = byteSize (front ++ [piece]) + byteSize rest := by
    rw [hpieces, ← byteSize_append, List.append_assoc, List.singleton_append]
  have hrow : (rowText (before ++ [next])).utf8ByteSize = (rowText before).utf8ByteSize + byteSize next.pieces := by
    have hsingle : rowPieces [next] = next.pieces := List.flatMap_singleton _ _
    rw [← byteSize_rowPieces, rowPieces_append, byteSize_append, byteSize_rowPieces, hsingle]
  have htext : (((upTo limit failure).written (rowPieces before)).written front).text =
      rowText before ++ String.join front := by
    rw [written_text, written_text, join_rowPieces, rowText, upTo]
    exact congrArg (· ++ String.join front) String.empty_append
  have hsize : (rowText before ++ String.join front).utf8ByteSize = (rowText before).utf8ByteSize + byteSize front := by
    rw [String.utf8ByteSize_append, byteSize_eq front]
  refine ⟨by omega, front, piece, rest, hpieces, htext, ?_, ?_⟩
  · rw [htext]
    omega
  · rw [htext]
    omega

/-! ## Runs -/

/-- **Refused writes end runs cleanly, at every byte.** Let a pipeline be built from a configuration, with stages that
are functions of their candidates, and let it be fresh or have served any runs. Let `whole` be the run for an input
whose output has no end; it writes the lines of some records. The run whose output takes `limit` bytes at most is the
same if all of that has room. Otherwise it writes the lines of the records for which there is room and a part of the
next one, and nothing behind the first piece that has none; it fails with an error of the output if there is room for
the JSON of that record but not for its line break, and with an error of the encoding if not. In any case, a later run
whose output has no end is the whole run again. -/
theorem Pipeline.run_refused {files : FileNode} {env : Environment} {c : Config} {built : Pipeline}
    (hbuild : Pipeline.build env c = .ok built) (categoryOnly : Bool)
    (hfunctional : { built with categoryOnly := categoryOnly }.Functional files env) {ws : Workspace}
    (hserved : { built with categoryOnly := categoryOnly }.Served files env ws) (input : Source) (limit : Nat)
    (failure : IoError) :
    let p : Pipeline := { built with categoryOnly := categoryOnly }
    let whole := (p.run input).run { workspace := ws.under fun _ => false }
    let r := (p.run input).run { workspace := ws.under fun _ => false, output := .upTo limit failure }
    let later := (p.run input).run { workspace := r.2.workspace.under fun _ => false }
    (∃ records : List Record,
      whole.2.output.text = rowText records ∧ (∀ r ∈ records, '\n' ∉ r.json.render.toList) ∧
        ((rowText records).utf8ByteSize ≤ limit → r.1 = whole.1 ∧ r.2.output.text = whole.2.output.text) ∧
        (limit < (rowText records).utf8ByteSize →
          ∃ before next after front piece rest, records = before ++ next :: after ∧
            (rowText before).utf8ByteSize ≤ limit ∧ limit < (rowText (before ++ [next])).utf8ByteSize ∧
            next.json.pieces ++ ["\n"] = front ++ piece :: rest ∧
            r.2.output.text = rowText before ++ String.join front ∧
            r.2.output.text.utf8ByteSize ≤ limit ∧ limit < r.2.output.text.utf8ByteSize + piece.utf8ByteSize ∧
            r.1 = .error (if limit = (rowText before).utf8ByteSize + next.json.render.utf8ByteSize then
              .output failure else .encode failure.message))) ∧
      later.1 = whole.1 ∧ later.2.output.text = whole.2.output.text := by
  intro p whole r later
  have hplaced : p.Placed := build_placed hbuild categoryOnly
  have hkept : ws.Kept p files env := Served.kept hfunctional hplaced hserved
  let s : RunState := { workspace := ws.under fun _ => false, output := .upTo limit failure }
  let free := (p.run input).freely s
  have hfree : free.1 = whole.1 ∧ free.2.output.text = whole.2.output.text :=
    run_agrees_freely hfunctional hplaced hkept hkept input failure _
  have hleft : r.2.workspace.Kept p files env := (run_played hfunctional hplaced input (s := s) (hkept.under _)).1.1
  refine ⟨?_, run_agrees hfunctional hplaced hleft hkept input⟩
  have hsound : (ws.under fun _ => false).Sound p := hserved.used.sound.inWorld _
  obtain ⟨records, hwrote⟩ := (run_writes input s hsound).wrote
  have hwhole : whole.2.output.text = rowText records := by
    have houtput : free.2.output.text = _ := congrArg Output.text hwrote.output
    rw [← hfree.2, houtput, Output.written_text, join_rowPieces]
    exact String.empty_append
  refine ⟨records, hwhole, fun r _ => r.newline_notMem, ?_, ?_⟩
  · intro hroom
    have hfits : (Output.upTo limit failure).Fits (rowPieces records) := by
      rw [Output.upTo_fits, byteSize_rowPieces]
      exact hroom
    have hsame : r = (free.1, free.2.capped (some limit)) := hwrote.fits (some limit) hfits
    rw [hsame]
    exact hfree
  · intro hnone
    have hempty : (Output.upTo limit failure).Fits [] := (Output.upTo_fits []).2 (Nat.zero_le limit)
    have hfull : ¬ (Output.upTo limit failure).Fits (rowPieces records) := by
      rw [Output.upTo_fits, byteSize_rowPieces]
      exact Nat.not_le.2 hnone
    obtain ⟨before, next, after, hsplit, hbefore, herror, hstops⟩ := hwrote.full (some limit) hempty hfull
    have hbefore : (Output.upTo limit failure).Fits (rowPieces before) := hbefore
    rw [Output.upTo_fits, byteSize_rowPieces] at hbefore
    have hstops : ((Output.upTo limit failure).written (rowPieces before)).Stops next.pieces r.2.output := hstops
    obtain ⟨hrow, front, piece, rest, hpieces, hout, hsize, hpiece⟩ := hstops.bytes
    refine ⟨before, next, after, front, piece, rest, hsplit, hbefore, hrow, hpieces, hout, hsize, hpiece, ?_⟩
    rw [← Output.upTo_refusal before hrow]
    exact herror

/-- behind a run whose output took ten bytes, the pipeline writes the record of the file -/
theorem Pipeline.run_refused_small :
    let ws : Workspace := { world := World.fresh smallTree ⟨[]⟩ }
    let r := (smallPipeline.run smallInput).run
      { workspace := ws.under fun _ => false, output := .upTo 10 (.brokenPipe "reader gone") }
    let later := (smallPipeline.run smallInput).run { workspace := r.2.workspace.under fun _ => false }
    r.1 = .error (.encode "reader gone") ∧ r.2.output.text = "\x7b\"path\":\x7b\"" ∧
      later.1 = .ok ⟨1, 1, 1⟩ ∧ later.2.output.text = smallRecord.row := by
  intro ws r later
  have hserved : smallPipeline.Served smallTree ⟨[]⟩ ws := .fresh
  obtain ⟨-, hresult, htext⟩ := run_refused smallPipeline_built false smallPipeline_functional hserved smallInput 10
    (.brokenPipe "reader gone")
  exact ⟨by decide +kernel, by decide +kernel, hresult.trans (by decide +kernel), htext.trans (by decide +kernel)⟩

/-! ## An input that breaks -/

/-- the path of the file, in an input that breaks behind it -/
def brokenInput : Source := { bytes := [102, 10], failure := some (.other "disk on fire") }

/-- **Room is not all that a run needs**: a run whose output has no end writes the record of the file, and then the
input breaks; so there is room for all of it in an output that takes a thousand bytes, but the run into that fails as
well. -/
theorem Pipeline.not_succeeds_iff_room :
    let ws : Workspace := { world := World.fresh smallTree ⟨[]⟩ }
    let whole := (smallPipeline.run brokenInput).run { workspace := ws.under fun _ => false }
    let r := (smallPipeline.run brokenInput).run
      { workspace := ws.under fun _ => false, output := .upTo 1000 (.brokenPipe "reader gone") }
    Pipeline.build ⟨[]⟩ smallConfig = .ok smallPipeline ∧ smallPipeline.Functional smallTree ⟨[]⟩ ∧
      smallPipeline.Served smallTree ⟨[]⟩ ws ∧ whole.2.output.text = smallRecord.row ∧
      ¬ ((∃ summary, r.1 = .ok summary) ↔ whole.2.output.text.utf8ByteSize ≤ 1000) := by
  intro ws whole r
  refine ⟨smallPipeline_built, smallPipeline_functional, .fresh, by decide +kernel, fun hiff => ?_⟩
  have hroom : whole.2.output.text.utf8ByteSize ≤ 1000 := by decide +kernel
  have hfails : r.1 = .error (.lineRead "input line 2" (.read (.other "disk on fire"))) := by decide +kernel
  obtain ⟨summary, hsummary⟩ := hiff.2 hroom
  cases hfails.symm.trans hsummary

end Gleaner
