/-
What the reports of errors keep.

A failure of a known type is told as an error of the run, whatever texts have been put around it on the way. The texts
are kept as details, in their order, unless the error has details of its own (`RunError.ownDetails?`) or the texts say
what the error says anyway, which they do in one case (`Report.of_known_details`).

A reader of the output that goes away breaks a pipe. That is told as such if the write of a line break fails. A write
within the JSON of a record fails as an error of the encoding, which keeps the text of the broken pipe but not its kind,
so the report of that does not know the reader.

Results:
- `inOrder_intercalate`: joined texts are found in their order;
- `Report.of_known_details`, `Report.keeps_contexts`: what is kept of a failure and the texts around it;
- `Report.cancelled_drops_contexts`: texts around a cancelled run are not;
- `Pipeline.vanished_reader_told`: what is told of a run whose reader goes away, at every byte.
-/
import Gleaner.Command.Basic
import Gleaner.Proofs.Refusals

namespace Gleaner

/-! ## Texts in their order -/

/-- texts found in a text, one behind the other -/
def InOrder : List String → String → Prop
  | [], _ => True
  | t :: rest, s => ∃ before after, s = before ++ t ++ after ∧ InOrder rest after

theorem InOrder.behind {texts : List String} {s : String} (h : InOrder texts s) (front : String) :
    InOrder texts (front ++ s) := by
  cases texts with
  | nil => trivial
  | cons t rest =>
    obtain ⟨before, after, rfl, hrest⟩ := h
    exact ⟨front ++ before, after, by simp only [String.append_assoc], hrest⟩

/-- **Joined texts** are found in their order. -/
theorem inOrder_intercalate (sep : String) (texts more : List String) :
    InOrder texts (sep.intercalate (texts ++ more)) := by
  induction texts with
  | nil => trivial
  | cons t rest ih =>
    rw [List.cons_append]
    cases hrest : rest ++ more with
    | nil =>
      obtain ⟨rfl, rfl⟩ := List.append_eq_nil_iff.1 hrest
      exact ⟨"", "", by simp, trivial⟩
    | cons next others =>
      rw [hrest] at ih
      rw [String.intercalate_cons_cons]
      exact ⟨"", _, by rw [String.empty_append, String.append_assoc], ih.behind sep⟩

theorem length_le_intercalate (sep t : String) (rest : List String) :
    t.length ≤ (sep.intercalate (t :: rest)).length := by
  cases rest with
  | nil => simp
  | cons next others =>
    rw [String.intercalate_cons_cons, String.append_assoc, String.length_append]
    exact Nat.le_add_right _ _

/-- texts that are joined to one without a colon -/
theorem eq_singleton_of_intercalate {texts : List String} {t : String} (hsome : texts ≠ []) (hcolon : ':' ∉ t.toList)
    (h : String.intercalate ": " texts = t) : texts = [t] := by
  match texts with
  | [] => exact (hsome rfl).elim
  | [s] => rw [← h, String.intercalate_singleton]
  | s :: next :: others =>
    have hmem : ':' ∈ (String.intercalate ": " (s :: next :: others)).toList := by
      rw [String.intercalate_cons_cons]
      simp
    rw [h] at hmem
    exact (hcolon hmem).elim

/-! ## Failures of a known type -/

namespace Failure

/-- the error that a failure of a known type is told as -/
def known? : Failure → Option RunError
  | .run e => some e
  | .config e => some (.config e)
  | .io e => some (.output e)
  | .text _ => none

/-- the text of the failure itself -/
def message : Failure → String
  | .run e => e.message
  | .config e => e.message
  | .io e => e.message
  | .text s => s

theorem exists_texts (f : Failure) : ∃ causes, f.texts = f.message :: causes := by
  cases f with
  | run e => exact ⟨e.cause?.toList, rfl⟩
  | _ => exact ⟨[], rfl⟩

end Failure

/-- the details of an error that has details of its own -/
def RunError.ownDetails? : RunError → Option String
  | .cancelled => some "interrupted before all roots were processed"
  | .output (.brokenPipe _) => some "the output reader went away"
  | _ => none

namespace Report

theorem basic_told (e : RunError) : (basic e).error = e ∧ (basic e).details = e.ownDetails? := by
  cases e with
  | selection stage location reason =>
    simp only [basic]
    split <;> exact ⟨rfl, rfl⟩
  | output cause => cases cause <;> exact ⟨rfl, rfl⟩
  | _ => exact ⟨rfl, rfl⟩

theorem withChain_error (r : Report) (chain : String) : (r.withChain chain).error = r.error := by
  unfold withChain
  split <;> rfl

theorem withChain_details (r : Report) (chain : String) :
    (r.withChain chain).details = r.details.or (if chain = r.error.message then none else some chain) := by
  unfold withChain
  cases hdetails : r.details with
  | some own => simp [hdetails]
  | none =>
    by_cases hsame : chain = r.error.message
    · simp [hdetails, hsame]
    · simp [hsame]

/-- the text that tells a failure and all around it -/
def chain (contexts : List String) (f : Failure) : String := String.intercalate ": " (contexts ++ f.texts)

variable {f : Failure} {e : RunError}

theorem of_known (hknown : f.known? = some e) (contexts : List String) :
    of contexts f = (basic e).withChain (chain contexts f) := by
  cases f with
  | text s => cases hknown
  | _ =>
    cases hknown
    rfl

theorem of_known_error (hknown : f.known? = some e) (contexts : List String) : (of contexts f).error = e := by
  rw [of_known hknown, withChain_error, (basic_told e).1]

/-- **The details of a failure of a known type**: its own, or all texts unless they are the text of the error. -/
theorem of_known_details (hknown : f.known? = some e) (contexts : List String) :
    (of contexts f).details =
      e.ownDetails?.or (if chain contexts f = e.message then none else some (chain contexts f)) := by
  rw [of_known hknown, withChain_details, (basic_told e).1, (basic_told e).2]

theorem inOrder_chain (contexts : List String) (f : Failure) :
    InOrder (contexts ++ [f.message]) (chain contexts f) := by
  obtain ⟨causes, hcauses⟩ := f.exists_texts
  have htexts : contexts ++ f.texts = (contexts ++ [f.message]) ++ causes := by
    rw [hcauses, List.append_assoc, List.singleton_append]
  rw [chain, htexts]
  exact inOrder_intercalate ": " _ causes

theorem chain_eq {contexts : List String} (hsome : contexts ≠ []) (f : Failure) :
    chain contexts f = String.intercalate ": " contexts ++ ": " ++ String.intercalate ": " f.texts := by
  obtain ⟨causes, hcauses⟩ := f.exists_texts
  have htexts : f.texts ≠ [] := by
    rw [hcauses]
    exact List.cons_ne_nil _ _
  exact String.intercalate_append_of_ne_nil hsome htexts

/-- texts around a failure say more than its own -/
theorem message_length_lt_chain {contexts : List String} (hsome : contexts ≠ []) (f : Failure) :
    f.message.length < (chain contexts f).length := by
  obtain ⟨causes, hcauses⟩ := f.exists_texts
  have hown := length_le_intercalate ": " f.message causes
  have hcolon : (": " : String).length = 2 := by decide
  rw [chain_eq hsome, hcauses, String.length_append, String.length_append, hcolon]
  omega

/-- **Where the texts say nothing new**: around a failure of the system, the text that its error begins with. -/
theorem chain_eq_message_iff (hknown : f.known? = some e) {contexts : List String} (hsome : contexts ≠ []) :
    chain contexts f = e.message ↔ (∃ cause, f = .io cause) ∧ contexts = ["failed to write output"] := by
  have hlonger : f.message = e.message → chain contexts f ≠ e.message := by
    intro hsame heq
    have hlt := message_length_lt_chain hsome f
    rw [heq, hsame] at hlt
    exact lt_irrefl _ hlt
  cases f with
  | text s => cases hknown
  | run e' =>
    cases hknown
    exact ⟨fun h => (hlonger rfl h).elim, nofun⟩
  | config e' =>
    cases hknown
    exact ⟨fun h => (hlonger rfl h).elim, nofun⟩
  | io cause =>
    cases hknown
    have hwords : "failed to write output: " = "failed to write output" ++ ": " := by decide
    have hmessage : (RunError.output cause).message = "failed to write output" ++ ": " ++ cause.message :=
      congrArg (· ++ cause.message) hwords
    have hcause : String.intercalate ": " (Failure.io cause).texts = cause.message := String.intercalate_singleton
    rw [hmessage, chain_eq hsome, hcause, String.append_left_inj, String.append_left_inj]
    constructor
    · intro htexts
      exact ⟨⟨cause, rfl⟩, eq_singleton_of_intercalate hsome (by decide) htexts⟩
    · rintro ⟨-, rfl⟩
      exact String.intercalate_singleton

theorem colon_mem_chain {contexts : List String} (hsome : contexts ≠ []) (f : Failure) :
    ':' ∈ (chain contexts f).toList := by
  rw [chain_eq hsome]
  simp

theorem colon_notMem_ownDetails {own : String} (h : e.ownDetails? = some own) : ':' ∉ own.toList := by
  unfold RunError.ownDetails? at h
  split at h
  · cases h
    decide
  · cases h
    decide
  · cases h

/-- **Reports keep failures, and the texts around those that have no details of their own.** A failure of a known type
is told as the same error, whatever texts are around it. If the error has details of its own, those are told, and
nothing of the texts. If not, and there are texts around the failure, then they and the text of the failure are found
in what is told, in their order: in the details, which are the whole chain, or, if the only text around a failure of
the system is the one that its error begins with, in the error. -/
theorem keeps_contexts (hknown : f.known? = some e) (contexts : List String) :
    (of contexts f).error = e ∧
      (∀ own, e.ownDetails? = some own → (of contexts f).details = some own) ∧
      (contexts ≠ [] →
        ((of contexts f).details = some (chain contexts f) ↔
          e.ownDetails? = none ∧ ¬ ((∃ cause, f = .io cause) ∧ contexts = ["failed to write output"])) ∧
        InOrder (contexts ++ [f.message]) (chain contexts f) ∧
        (e.ownDetails? = none →
          ((of contexts f).details = none ↔ (∃ cause, f = .io cause) ∧ contexts = ["failed to write output"]) ∧
            InOrder (contexts ++ [f.message]) ((of contexts f).details.getD e.message))) := by
  have hdetails := of_known_details hknown contexts
  have hchain := inOrder_chain contexts f
  have hown : ∀ own, e.ownDetails? = some own → (of contexts f).details = some own := by
    intro own hown
    rw [hdetails, hown]
    rfl
  refine ⟨of_known_error hknown contexts, hown, fun hsome => ?_⟩
  rw [← chain_eq_message_iff hknown hsome]
  refine ⟨?_, hchain, fun hnone => ?_⟩
  · cases hdetails' : e.ownDetails? with
    | some own =>
      rw [hown own hdetails']
      refine ⟨fun h => ?_, fun h => nomatch h.1⟩
      cases Option.some.inj h
      exact absurd (colon_mem_chain hsome f) (colon_notMem_ownDetails hdetails')
    | none =>
      rw [hdetails, hdetails', Option.none_or]
      by_cases hsame : chain contexts f = e.message <;> simp [hsame]
  · rw [hdetails, hnone, Option.none_or]
    by_cases hsame : chain contexts f = e.message
    · rw [if_pos hsame]
      exact ⟨⟨fun _ => hsame, fun _ => rfl⟩, hsame ▸ hchain⟩
    · rw [if_neg hsame]
      exact ⟨⟨nofun, fun h => (hsame h).elim⟩, hchain⟩

/-- around a missing configuration, two texts are kept, and around a cancelled run none is -/
theorem keeps_contexts_two :
    let kept := of ["starting", "loading"] (.config .noConfig)
    let dropped := of ["starting", "loading"] (.run .cancelled)
    kept.error = .config .noConfig ∧ kept.details = some "starting: loading: no config given" ∧
      InOrder ["starting", "loading", "no config given"] "starting: loading: no config given" ∧
      dropped.error = .cancelled ∧ dropped.details = some "interrupted before all roots were processed" ∧
      dropped.details ≠ some "starting: loading: run cancelled" := by
  intro kept dropped
  have hkept : (Failure.config .noConfig).known? = some (.config .noConfig) := rfl
  have hdropped : (Failure.run .cancelled).known? = some .cancelled := rfl
  obtain ⟨hconfig, -, htold⟩ := keeps_contexts hkept ["starting", "loading"]
  obtain ⟨hchain, horder, -⟩ := htold (List.cons_ne_nil _ _)
  obtain ⟨hcancelled, hown, hlost⟩ := keeps_contexts hdropped ["starting", "loading"]
  refine ⟨hconfig, hchain.2 ⟨rfl, ?_⟩, horder, hcancelled, hown _ rfl, fun h => ?_⟩
  · rintro ⟨⟨cause, hcause⟩, -⟩
    cases hcause
  · cases ((hlost (List.cons_ne_nil _ _)).1.1 h).1

/-- **Texts around a cancelled run are not kept**, since it has details of its own. -/
theorem cancelled_drops_contexts :
    ¬ ∀ (f : Failure) (e : RunError) (contexts : List String), f.known? = some e →
      (of contexts f).error = e ∧
        (contexts ≠ [] → ∃ told, (of contexts f).details = some told ∧ InOrder (contexts ++ [f.message]) told) := by
  intro hkeeps
  obtain ⟨-, htold⟩ := hkeeps (.run .cancelled) .cancelled ["loading"] rfl
  obtain ⟨told, hdetails, before, after, hsplit, -⟩ := htold (List.cons_ne_nil _ _)
  have hown : (of ["loading"] (.run .cancelled)).details = some "interrupted before all roots were processed" := rfl
  cases hown.symm.trans hdetails
  have hletter : 'g' ∈ "interrupted before all roots were processed".toList := by
    rw [hsplit]
    simp
  exact absurd hletter (by decide)

/-! ## The reader of the output -/

theorem of_brokenPipe (text : String) : of [] (.run (.output (.brokenPipe text))) =
    { error := .output (.brokenPipe text), details := some "the output reader went away" } := rfl

theorem of_encode (reason : String) : of [] (.run (.encode reason)) =
    { error := .encode reason, details := some ("failed to encode output record: " ++ reason ++ ": " ++ reason) } := by
  let e : RunError := .encode reason
  have hknown : (Failure.run e).known? = some e := rfl
  have hchain : chain [] (.run e) = e.message ++ ": " ++ reason := by
    have htexts : chain [] (.run e) = String.intercalate ": " [e.message, reason] := rfl
    rw [htexts, String.intercalate_cons_cons, String.intercalate_singleton]
  have hlonger : e.message ++ ": " ++ reason ≠ e.message := by
    intro h
    have hlength := congrArg String.length h
    have hcolon : (": " : String).length = 2 := by decide
    simp only [String.length_append, hcolon] at hlength
    omega
  have hnew : (e.message ++ ": " ++ reason != (basic e).error.message) = true := bne_iff_ne.2 hlonger
  rw [of_known hknown, hchain, withChain, hnew]
  rfl

end Report

/-- how a run ends is told with no texts around it -/
theorem Command.runPipeline_outcome (p : Pipeline) (input : Source) (output : Output) (ws : Workspace) :
    (runPipeline p input output ws).1.outcome =
      ((p.run input).run { workspace := ws, output := output }).1.mapError fun e => { failure := .run e } := rfl

/-- **A reader that goes away is told of just at the ends of lines.** Let a pipeline have been used in any worlds, and
let `whole` be a run whose output has no end. The reader of the same run goes away after `limit` bytes, before the end
of all that the whole run writes. Then the run fails within the record that these bytes end in. If just its line break
is not written, the report tells that the reader went away. Otherwise it tells of a record that could not be encoded. -/
theorem Pipeline.vanished_reader_told {p : Pipeline} {ws : Workspace} (hused : p.Used ws) (w : World) (input : Source)
    (text : String) (limit : Nat) :
    let start : Workspace := { ws with world := w }
    let whole := (p.run input).run { workspace := start, output := { failure := .brokenPipe text } }
    let r := (Command.runPipeline p input (.upTo limit (.brokenPipe text)) start).1
    limit < whole.2.output.text.utf8ByteSize →
      ∃ before next after f, whole.2.output.text = rowText (before ++ next :: after) ∧
        (rowText before).utf8ByteSize ≤ limit ∧ limit < (rowText (before ++ [next])).utf8ByteSize ∧
        r.outcome = .error f ∧
        f.report = if limit = (rowText before).utf8ByteSize + next.json.render.utf8ByteSize then
            { error := .output (.brokenPipe text), details := some "the output reader went away" }
          else
            { error := .encode text
              details := some ("failed to encode output record: " ++ text ++ ": " ++ text) } := by
  intro start whole r hgone
  let s : RunState := { workspace := start, output := .upTo limit (.brokenPipe text) }
  obtain ⟨records, hwrote⟩ := (run_writes input s (hused.sound.inWorld w)).wrote
  have hwhole : whole.2.output.text = rowText records := by
    have hfree : whole.2.output = _ := hwrote.output
    rw [hfree, Output.written_text, join_rowPieces]
    exact String.empty_append
  have hempty : s.output.Fits [] := (Output.upTo_fits []).2 (Nat.zero_le limit)
  have hfull : ¬ s.output.Fits (rowPieces records) := by
    rw [Output.upTo_fits, byteSize_rowPieces, ← hwhole]
    exact Nat.not_le.2 hgone
  obtain ⟨before, next, after, rfl, hbefore, herror, hstops⟩ := hwrote.full (some limit) hempty hfull
  have hbefore : (Output.upTo limit (.brokenPipe text)).Fits (rowPieces before) := hbefore
  rw [Output.upTo_fits, byteSize_rowPieces] at hbefore
  have hrow := (Output.Stops.bytes hstops).1
  let e := ((Output.upTo limit (.brokenPipe text)).written (rowPieces before)).refusal next
  have hrefusal : e = _ := Output.upTo_refusal before hrow
  have hrun : ((p.run input).run s).1 = .error e := herror
  have hend : r.outcome = .error { failure := .run e } := by
    rw [Command.runPipeline_outcome, hrun]
    rfl
  refine ⟨before, next, after, _, hwhole, hbefore, hrow, hend, ?_⟩
  have hreport : Report.of [] (.run e) = _ := congrArg (fun e => Report.of [] (.run e)) hrefusal
  rw [CommandFailure.report, hreport]
  split
  · exact Report.of_brokenPipe text
  · exact Report.of_encode text

/-- the reader of the record of the file goes away after ten bytes -/
theorem Pipeline.vanished_reader_told_small :
    let w : World := World.fresh smallTree ⟨[]⟩
    let whole := (smallPipeline.run smallInput).run
      { workspace := { world := w }, output := { failure := .brokenPipe "reader gone" } }
    let r := (Command.runPipeline smallPipeline smallInput (.upTo 10 (.brokenPipe "reader gone")) { world := w }).1
    10 < whole.2.output.text.utf8ByteSize ∧ ∃ f, r.outcome = .error f ∧
      f.report.details = some "failed to encode output record: reader gone: reader gone" := by
  intro w whole r
  have hgone : 10 < whole.2.output.text.utf8ByteSize := by decide +kernel
  obtain ⟨before, next, after, f, -, -, -, hend, hreport⟩ :=
    vanished_reader_told (.fresh w) w smallInput "reader gone" 10 hgone
  have hrun : ((smallPipeline.run smallInput).run
      { workspace := { world := w }, output := .upTo 10 (.brokenPipe "reader gone") }).1 =
        .error (.encode "reader gone") := by decide +kernel
  have hencode : r.outcome = .error { failure := .run (.encode "reader gone") } := by
    rw [Command.runPipeline_outcome, hrun]
    rfl
  cases hencode.symm.trans hend
  refine ⟨hgone, _, hend, ?_⟩
  split at hreport
  · cases congrArg Report.error hreport
  · rw [hreport]
    decide

end Gleaner
