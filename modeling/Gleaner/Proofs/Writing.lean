/-
What parts of a run write where there is no room for all of it.

A run stops at the first write that its output refuses, wherever that happens. What a part of a run does is therefore
compared with what it does if there is no end of room (`Run.freely`): if all that is written then has room, both are
the same; otherwise the part fails in the middle of the first record for which there is no room, and nothing more is
written (`Wrote`). `Run.Writes K Post m` says so of a part of a run in every state, and with it what a contract `K` asks:
the workspace keeps an invariant, and all records are good.

Results:
- `Output.writeAll_of_full`: pieces for which there is no room are written up to the first that is refused;
- `Writes.bind`, `Writes.forIn`: parts one after the other, and loops;
- `writeRecord_writes`, `lift_writes`, `checkSignal_writes`: the single steps of a run.
-/
import Gleaner.Proofs.Enumeration

namespace Gleaner

/-! ## Outputs without room -/

/-- the pieces in which a record is written -/
def Record.pieces (r : Record) : List String := r.json.pieces ++ ["\n"]

theorem Record.join_pieces (r : Record) : String.join r.pieces = r.row := by
  simp [pieces, row, Json.join_pieces]

/-- what records are written in -/
def rowPieces (records : List Record) : List String := records.flatMap Record.pieces

theorem rowPieces_append (xs ys : List Record) : rowPieces (xs ++ ys) = rowPieces xs ++ rowPieces ys :=
  List.flatMap_append

theorem join_rowPieces (records : List Record) :
    String.join (rowPieces records) = String.join (records.map Record.row) := by
  induction records with
  | nil => rfl
  | cons r rest ih =>
    have hcons : rowPieces (r :: rest) = r.pieces ++ rowPieces rest := rfl
    rw [hcons, String.join_append, ih, r.join_pieces, List.map_cons, String.join_cons]

namespace Output

/-- the same output with another limit -/
def capped (o : Output) (limit : Option Nat) : Output := { o with limit := limit }

theorem written_text (o : Output) (pieces : List String) : (o.written pieces).text = o.text ++ String.join pieces := by
  simp [text, written, String.join_append]

/-- without a limit there is room for everything -/
theorem fits_free (o : Output) (pieces : List String) : (o.capped none).Fits pieces := nofun

/-- there is room for pieces and then for more -/
theorem fits_append {o : Output} {xs ys : List String} (h : (o.written xs).Fits ys) : o.Fits (xs ++ ys) := by
  intro limit hlimit
  have hroom := h limit hlimit
  simp only [written, byteSize, List.map_append, List.sum_append] at hroom ⊢
  omega

/-- behind pieces for which there is room, nothing still has room -/
theorem Fits.behind {o : Output} {pieces : List String} (h : o.Fits pieces) : (o.written pieces).Fits [] := by
  intro limit hlimit
  have hroom := h limit hlimit
  simpa [written, byteSize] using hroom

/-- pieces none of which was refused are all written -/
theorem writeAll_of_none {o o' : Output} {pieces : List String} (h : o.writeAll pieces = (o', none)) :
    o' = o.written pieces := by
  induction pieces generalizing o with
  | nil => exact (Prod.mk.inj h).1.symm
  | cons piece rest ih =>
    rw [writeAll] at h
    by_cases haccepts : o.accepts piece.utf8ByteSize = true
    · have hwrite : o.write piece = .ok (o.written [piece]) := by
        rw [write, if_pos haccepts]
        rfl
      rw [hwrite] at h
      exact (ih h).trans (o.written_append [piece] rest).symm
    · rw [write, if_neg haccepts] at h
      cases h

theorem accepts_iff_fits (o : Output) (pieces : List String) : o.accepts (byteSize pieces) = true ↔ o.Fits pieces := by
  unfold accepts Fits
  cases o.limit with
  | none => simp
  | some limit => simp

/-- writing pieces stops at one of them, which is refused -/
def Stops (o : Output) (pieces : List String) (o' : Output) : Prop :=
  ∃ front piece rest, pieces = front ++ piece :: rest ∧ o.Fits front ∧ ¬ o.Fits (front ++ [piece]) ∧
    o' = o.written front

/-- behind pieces that were refused stands a proper part of them -/
theorem Stops.text {o o' : Output} {pieces : List String} (h : o.Stops pieces o') :
    ∃ front piece rest, pieces = front ++ piece :: rest ∧ o'.text = o.text ++ String.join front := by
  obtain ⟨front, piece, rest, hsplit, -, -, rfl⟩ := h
  exact ⟨front, piece, rest, hsplit, o.written_text front⟩

/-- **Pieces for which there is no room** are written up to the first that is refused. -/
theorem writeAll_of_full {o : Output} {pieces : List String} (hroom : o.Fits []) (h : ¬ o.Fits pieces) :
    o.Stops pieces (o.writeAll pieces).1 ∧ (o.writeAll pieces).2 = some o.failure := by
  induction pieces generalizing o with
  | nil => exact absurd hroom h
  | cons piece rest ih =>
    have hsize : byteSize [piece] = piece.utf8ByteSize := by simp [byteSize]
    by_cases hfirst : o.Fits [piece]
    · have hwrite : o.write piece = .ok (o.written [piece]) := by
        rw [write, if_pos (by rw [← hsize]; exact (o.accepts_iff_fits _).2 hfirst)]
        simp [written, hsize]
      have hnext : ¬ (o.written [piece]).Fits rest := fun hrest => h (fits_append hrest)
      obtain ⟨⟨front, refused, others, rfl, hfront, hrefused, hleft⟩, herror⟩ := ih (Fits.right hfirst) hnext
      rw [writeAll, hwrite]
      refine ⟨⟨piece :: front, refused, others, rfl, fits_append hfront, ?_, ?_⟩, herror⟩
      · intro hmore
        have hmore : o.Fits ([piece] ++ (front ++ [refused])) := hmore
        exact hrefused hmore.right
      · exact hleft.trans (o.written_append [piece] front).symm
    · have hwrite : o.write piece = .error o.failure := by
        rw [write, if_neg]
        rw [← hsize, o.accepts_iff_fits]
        exact hfirst
      rw [writeAll, hwrite]
      exact ⟨⟨[], piece, rest, rfl, hroom, hfirst, rfl⟩, rfl⟩

/-- what writing a record fails with where there is no room for it -/
def refusal (o : Output) (r : Record) : RunError :=
  if o.accepts (byteSize r.json.pieces) then .output o.failure else .encode o.failure.message

end Output

/-- the same state with another limit of its output -/
def RunState.capped (s : RunState) (limit : Option Nat) : RunState := { s with output := s.output.capped limit }

/-- what a part of a run comes to if there is no end of room -/
def Run.freely {α : Type} (m : Run α) (s : RunState) : Except RunError α × RunState := m.run (s.capped none)

theorem writeRecord_run (r : Record) (s : RunState) :
    (Pipeline.writeRecord r).run s =
      match s.output.writeAll r.json.pieces with
      | (o, some e) => (.error (.encode e.message), { s with output := o })
      | (o, none) =>
        match o.writeAll ["\n"] with
        | (o, some e) => (.error (.output e), { s with output := o })
        | (o, none) => (.ok ⟨⟩, ⟨s.workspace, o, Event.tally s.summary (.record r)⟩) := by
  unfold Pipeline.writeRecord
  rw [Run.bind_run, Run.write_run]
  rcases s.output.writeAll r.json.pieces with ⟨o, e | e⟩
  · simp only
    rw [Run.bind_run, Run.write_run]
    rcases o.writeAll ["\n"] with ⟨o, e | e⟩ <;> rfl
  · rfl

/-- a record that was written to its end -/
theorem writeRecord_of_ok {r : Record} {s : RunState} {u : Unit} (h : ((Pipeline.writeRecord r).run s).1 = .ok u) :
    (Pipeline.writeRecord r).run s =
      (.ok ⟨⟩, ⟨s.workspace, s.output.written (r.json.pieces ++ ["\n"]), Event.tally s.summary (.record r)⟩) := by
  rw [writeRecord_run] at h ⊢
  rcases hjson : s.output.writeAll r.json.pieces with ⟨o, _ | e⟩
  · rw [hjson] at h
    simp only at h ⊢
    rcases hend : o.writeAll ["\n"] with ⟨o', _ | e⟩
    · rw [Output.writeAll_of_none hend, Output.writeAll_of_none hjson, Output.written_append]
    · rw [hend] at h
      cases h
  · rw [hjson] at h
    cases h

/-- **A record for which there is no room** is written up to the first piece that is refused. -/
theorem writeRecord_of_full {r : Record} {s : RunState} (hroom : s.output.Fits []) (h : ¬ s.output.Fits r.pieces) :
    ((Pipeline.writeRecord r).run s).1 = .error (s.output.refusal r) ∧
      s.output.Stops r.pieces ((Pipeline.writeRecord r).run s).2.output := by
  rw [writeRecord_run]
  by_cases hjson : s.output.Fits r.json.pieces
  · have hend : ¬ (s.output.written r.json.pieces).Fits ["\n"] := fun hend => h (Output.fits_append hend)
    have hmiddle : (s.output.written r.json.pieces).Fits [] := hjson.behind
    obtain ⟨⟨front, piece, rest, hsplit, hfront, hrefused, hleft⟩, herror⟩ := Output.writeAll_of_full hmiddle hend
    rw [Output.writeAll_of_fits hjson, Output.refusal, if_pos ((s.output.accepts_iff_fits _).2 hjson)]
    simp only
    rcases hw : (s.output.written r.json.pieces).writeAll ["\n"] with ⟨o, e⟩
    rw [hw] at hleft herror
    cases herror
    refine ⟨rfl, ⟨r.json.pieces ++ front, piece, rest, ?_, Output.fits_append hfront, ?_, ?_⟩⟩
    · rw [List.append_assoc, ← hsplit, Record.pieces]
    · intro hmore
      rw [List.append_assoc] at hmore
      exact hrefused hmore.right
    · exact hleft.trans (s.output.written_append r.json.pieces front).symm
  · obtain ⟨⟨front, piece, rest, hsplit, hfront, hrefused, hleft⟩, herror⟩ := Output.writeAll_of_full hroom hjson
    rw [Output.refusal, if_neg (by rw [s.output.accepts_iff_fits]; exact hjson)]
    rcases hw : s.output.writeAll r.json.pieces with ⟨o, e⟩
    rw [hw] at hleft herror
    cases herror
    refine ⟨rfl, ⟨front, piece, rest ++ ["\n"], ?_, hfront, hrefused, hleft⟩⟩
    rw [Record.pieces, hsplit, List.append_assoc, List.cons_append]

/-! ## Parts of a run -/

/-- what parts of a run are to keep, and what they may write -/
structure Contract where
  Keeps : Workspace → Prop
  Writes : Record → Prop

/-- **What a part of a run comes to** from a state, compared with what it comes to if there is no end of room: with
room for the records it is the same, and without it the part fails in the middle of the first record for which there is
none. -/
structure Wrote (Good : Record → Prop) {α : Type} (m : Run α) (s : RunState) (records : List Record) : Prop where
  good : ∀ r ∈ records, Good r
  output : (m.freely s).2.output = (s.output.capped none).written (rowPieces records)
  fits : ∀ limit, (s.output.capped limit).Fits (rowPieces records) →
    m.run (s.capped limit) = ((m.freely s).1, (m.freely s).2.capped limit)
  full : ∀ limit, (s.output.capped limit).Fits [] → ¬ (s.output.capped limit).Fits (rowPieces records) →
    ∃ before r after, records = before ++ r :: after ∧ (s.output.capped limit).Fits (rowPieces before) ∧
      (m.run (s.capped limit)).1 = .error (((s.output.capped limit).written (rowPieces before)).refusal r) ∧
      ((s.output.capped limit).written (rowPieces before)).Stops r.pieces (m.run (s.capped limit)).2.output

/-- a part of a run keeps a contract from a state, and what it gives satisfies `Post` -/
structure Upheld (K : Contract) {α : Type} (Post : α → Prop) (m : Run α) (s : RunState) : Prop where
  kept : K.Keeps (m.run s).2.workspace
  value : ∀ a, (m.run s).1 = .ok a → Post a
  wrote : ∃ records, Wrote K.Writes m s records

/-- a part of a run keeps a contract from any state, with any room -/
def Run.Writes (K : Contract) {α : Type} (Post : α → Prop) (m : Run α) : Prop :=
  ∀ s : RunState, K.Keeps s.workspace → Upheld K Post m s

section

variable {K : Contract} {α β : Type} {P : α → Prop} {Q : β → Prop} {m : Run α} {f : α → Run β} {s s₁ : RunState}
  {Good : Record → Prop} {xs ys : List Record}

theorem Run.bind_freely (m : Run α) (f : α → Run β) (s : RunState) :
    (m >>= f).freely s =
      match m.freely s with
      | (.ok a, s) => (f a).run s
      | (.error e, s) => (.error e, s) := Run.bind_run m f (s.capped none)

theorem Run.bind_of_error {e : RunError} (h : (m.run s).1 = .error e) (f : α → Run β) :
    (m >>= f).run s = (.error e, (m.run s).2) := by
  rw [Run.bind_run]
  rcases hr : m.run s with ⟨r, s'⟩
  rw [hr] at h
  cases h
  rfl

/-- a part of a run that writes nothing and looks at no output -/
theorem Wrote.nothing (houtput : (m.freely s).2.output = s.output.capped none)
    (hsame : ∀ limit, m.run (s.capped limit) = ((m.freely s).1, (m.freely s).2.capped limit)) :
    Wrote Good m s [] where
  good := fun _ hr => absurd hr List.not_mem_nil
  output := houtput
  fits := fun limit _ => hsame limit
  full := fun _ hroom hfull => absurd hroom hfull

theorem Run.Writes.pure {a : α} (h : P a) : Run.Writes K P (pure a : Run α) := fun _ hs =>
  ⟨hs, fun _ ha => Except.ok.inj ha ▸ h, [], .nothing rfl fun _ => rfl⟩

theorem Run.Writes.fail (e : RunError) : Run.Writes K P (throw e : Run α) := fun _ hs =>
  ⟨hs, nofun, [], .nothing rfl fun _ => rfl⟩

/-- a part that fails, and another that is never come to -/
theorem Wrote.bind_error {e : RunError} (h : Wrote Good m s xs) (hm : m.freely s = (.error e, s₁)) :
    Wrote Good (m >>= f) s xs := by
  have hfreely : (m >>= f).freely s = (.error e, s₁) := by rw [Run.bind_freely, hm]
  refine ⟨h.good, ?_, ?_, ?_⟩
  · rw [hfreely, ← h.output, hm]
  · intro limit hfits
    have hrun := h.fits limit hfits
    rw [hm] at hrun
    have herror : (m.run (s.capped limit)).1 = .error e := by rw [hrun]
    rw [Run.bind_of_error herror, hfreely, hrun]
  · intro limit hroom hfull
    obtain ⟨before, r, after, hsplit, hbefore, herror, hstops⟩ := h.full limit hroom hfull
    rw [Run.bind_of_error herror]
    exact ⟨before, r, after, hsplit, hbefore, rfl, hstops⟩

/-- a part and another behind it -/
theorem Wrote.bind_ok {a : α} (h : Wrote Good m s xs) (hm : m.freely s = (.ok a, s₁))
    (h' : Wrote Good (f a) s₁ ys) : Wrote Good (m >>= f) s (xs ++ ys) := by
  have hbehind : s₁.output = (s.output.capped none).written (rowPieces xs) := by rw [← h.output, hm]
  have hfree : s₁.capped none = s₁ := by
    have hlimit : s₁.output.capped none = s₁.output := by rw [hbehind]; rfl
    unfold RunState.capped
    rw [hlimit]
  have hfreely : (m >>= f).freely s = (f a).freely s₁ := by rw [Run.bind_freely, hm, Run.freely, hfree]
  have houtput : ∀ limit, s₁.output.capped limit = (s.output.capped limit).written (rowPieces xs) := by
    intro limit
    rw [hbehind]
    rfl
  have hsecond : ∀ limit, (s.output.capped limit).Fits (rowPieces xs) →
      (m >>= f).run (s.capped limit) = (f a).run (s₁.capped limit) := by
    intro limit hfits
    rw [Run.bind_run, h.fits limit hfits, hm]
  refine ⟨?_, ?_, ?_, ?_⟩
  · intro r hr
    rcases List.mem_append.1 hr with hr | hr
    · exact h.good r hr
    · exact h'.good r hr
  · rw [hfreely, h'.output, houtput, rowPieces_append, Output.written_append]
  · intro limit hfits
    rw [rowPieces_append] at hfits
    rw [hsecond limit hfits.left, hfreely, h'.fits limit (by rw [houtput]; exact hfits.right)]
  · intro limit hroom hfull
    rw [rowPieces_append] at hfull
    by_cases hfits : (s.output.capped limit).Fits (rowPieces xs)
    · have hmiddle : (s₁.output.capped limit).Fits [] := by
        rw [houtput]
        exact hfits.behind
      have hrest : ¬ (s₁.output.capped limit).Fits (rowPieces ys) := by
        rw [houtput]
        exact fun hys => hfull (Output.fits_append hys)
      obtain ⟨before, r, after, rfl, hbefore, herror, hstops⟩ := h'.full limit hmiddle hrest
      rw [houtput] at hbefore herror hstops
      rw [hsecond limit hfits]
      refine ⟨xs ++ before, r, after, (List.append_assoc _ _ _).symm, ?_, ?_, ?_⟩
      · rw [rowPieces_append]
        exact Output.fits_append hbefore
      · rw [rowPieces_append, Output.written_append]
        exact herror
      · rw [rowPieces_append, Output.written_append]
        exact hstops
    · obtain ⟨before, r, after, rfl, hbefore, herror, hstops⟩ := h.full limit hroom hfits
      rw [Run.bind_of_error herror]
      exact ⟨before, r, after ++ ys, by rw [List.append_assoc, List.cons_append], hbefore, rfl, hstops⟩

/-- **One part of a run after another.** -/
theorem Run.Writes.bind (h : Run.Writes K P m) (hf : ∀ a, P a → Run.Writes K Q (f a)) : Run.Writes K Q (m >>= f) := by
  intro s hs
  obtain ⟨hkept, hvalue, xs, hxs⟩ := h s hs
  have hboth : K.Keeps ((m >>= f).run s).2.workspace ∧ ∀ b, ((m >>= f).run s).1 = .ok b → Q b := by
    rw [Run.bind_run]
    rcases hm : m.run s with ⟨e | a, s₁⟩
    · rw [hm] at hkept
      exact ⟨hkept, nofun⟩
    · rw [hm] at hkept hvalue
      have hsecond := hf a (hvalue a rfl) s₁ hkept
      exact ⟨hsecond.kept, hsecond.value⟩
  refine ⟨hboth.1, hboth.2, ?_⟩
  obtain ⟨hkeptFreely, hvalueFreely, -⟩ := h (s.capped none) hs
  rcases hm : m.freely s with ⟨e | a, s₁⟩
  · exact ⟨xs, hxs.bind_error hm⟩
  · have hrun : m.run (s.capped none) = (.ok a, s₁) := hm
    rw [hrun] at hkeptFreely hvalueFreely
    obtain ⟨ys, hys⟩ := (hf a (hvalueFreely a rfl) s₁ hkeptFreely).wrote
    exact ⟨xs ++ ys, hxs.bind_ok hm hys⟩

/-- **A loop** whose rounds all go on. -/
theorem Run.Writes.forIn {l : List α} {body : α → PUnit → Run (ForInStep PUnit)}
    (h : ∀ x ∈ l, Run.Writes K (fun r => r = .yield ⟨⟩) (body x ⟨⟩)) :
    Run.Writes K (fun _ => True) (forIn l ⟨⟩ body) := by
  induction l with
  | nil => exact Run.Writes.pure trivial
  | cons x rest ih =>
    rw [List.forIn_cons]
    refine (h x List.mem_cons_self).bind ?_
    rintro _ rfl
    exact ih fun y hy => h y (List.mem_cons_of_mem _ hy)

/-! ## Single steps -/

/-- **A step on what is kept** -/
theorem lift_writes {a : StateM Workspace α} (h : ∀ ws, K.Keeps ws → K.Keeps (a ws).2 ∧ P (a ws).1) :
    Run.Writes K P (Run.lift a) := by
  intro s hs
  obtain ⟨hkept, hvalue⟩ := h s.workspace hs
  exact ⟨hkept, fun _ ha => Except.ok.inj ha ▸ hvalue, [], .nothing rfl fun _ => rfl⟩

theorem count_writes (add : Summary → Summary) : Run.Writes K (fun _ => True) (Run.count add) := fun _ hs =>
  ⟨hs, fun _ _ => trivial, [], .nothing rfl fun _ => rfl⟩

/-- **A look at the signal** -/
theorem checkSignal_writes (hlook : ∀ ws, K.Keeps ws → K.Keeps (Workspace.act Act.cancelled ws).2) :
    Run.Writes K (fun _ => True) Run.checkSignal := by
  unfold Run.checkSignal
  refine (lift_writes (P := fun _ => True) fun ws hws => ⟨hlook ws hws, trivial⟩).bind fun up _ => ?_
  cases up with
  | true => exact Run.Writes.fail .cancelled
  | false => exact Run.Writes.pure trivial

/-- **A record** -/
theorem writeRecord_writes {r : Record} (h : K.Writes r) :
    Run.Writes K (fun _ => True) (Pipeline.writeRecord r) := by
  intro s hs
  have hsingle : rowPieces [r] = r.pieces := List.flatMap_singleton _ _
  have hfits : ∀ limit, (s.output.capped limit).Fits r.pieces → (Pipeline.writeRecord r).run (s.capped limit) =
      (.ok ⟨⟩, ⟨s.workspace, (s.output.capped limit).written r.pieces, Event.tally s.summary (.record r)⟩) :=
    fun limit hroom => writeRecord_of_fits (s := s.capped limit) hroom
  have hfreely : (Pipeline.writeRecord r).freely s = _ := hfits none (s.output.fits_free _)
  have hkept : K.Keeps ((Pipeline.writeRecord r).run s).2.workspace := by
    rw [writeRecord_keeps r]
    exact hs
  refine ⟨hkept, fun _ _ => trivial, [r], ⟨?_, ?_, ?_, ?_⟩⟩
  · intro other hother
    rw [List.mem_singleton.1 hother]
    exact h
  · rw [hfreely, hsingle]
  · intro limit hroom
    rw [hsingle] at hroom
    rw [hfreely, hfits limit hroom]
    rfl
  · intro limit hroom hfull
    rw [hsingle] at hfull
    obtain ⟨herror, hstops⟩ := writeRecord_of_full (s := s.capped limit) hroom hfull
    exact ⟨[], r, [], rfl, hroom, herror, hstops⟩

/-! ## Entries -/

/-- going through an entry of a rule -/
theorem entry_writes {stage : String} {line : FileLine} {s : Selection} {k : String → Run (ForInStep PUnit)}
    (h : ∀ text, s.outcome = .ok text → Run.Writes K (fun r => r = .yield ⟨⟩) (k text)) :
    Run.Writes K (fun r => r = .yield ⟨⟩)
      (do
        match ← Pipeline.selected? stage line s with
        | none => pure (.yield ⟨⟩)
        | some text => k text) := by
  have hselected : Run.Writes K (fun found => ∀ text, found = some text → s.outcome = .ok text)
      (Pipeline.selected? stage line s) := by
    unfold Pipeline.selected?
    cases s.outcome with
    | ok text => exact Run.Writes.pure fun other hother => congrArg Except.ok (Option.some.inj hother)
    | error e =>
      simp only
      split
      · exact Run.Writes.pure nofun
      · exact Run.Writes.fail _
  refine hselected.bind fun found hfound => ?_
  cases found with
  | none => exact Run.Writes.pure rfl
  | some text => exact h text (hfound text rfl)

/-- going through rewritten texts -/
theorem normalized_writes {stage : String} {line : FileLine}
    {a : StateM Workspace (Except MatchError (List Normalized))} {G : Normalized → Prop}
    (ha : ∀ ws, K.Keeps ws → K.Keeps (a ws).2 ∧ ∀ found, (a ws).1 = .ok found → ∀ n ∈ found, G n)
    {body : Normalized → PUnit → Run (ForInStep PUnit)}
    (h : ∀ n, G n → Run.Writes K (fun r => r = .yield ⟨⟩) (body n ⟨⟩)) :
    Run.Writes K (fun r => r = .yield ⟨⟩)
      (do
        let texts ← Pipeline.normalized stage line a
        let _ ← forIn texts PUnit.unit body
        pure (ForInStep.yield PUnit.unit)) := by
  have hlist : Run.Writes K (fun texts => ∀ n ∈ texts, G n) (Pipeline.normalized stage line a) := by
    refine (lift_writes (P := fun r => ∀ found, r = .ok found → ∀ n ∈ found, G n) ha).bind fun r hr => ?_
    cases r with
    | ok texts => exact Run.Writes.pure (hr texts rfl)
    | error e => exact Run.Writes.fail _
  refine hlist.bind fun texts htexts => ?_
  exact (Run.Writes.forIn fun n hn => h n (htexts n hn)).bind fun _ _ => Run.Writes.pure rfl

/-- a round of a loop -/
theorem round_writes {m : Run PUnit} (h : Run.Writes K (fun _ => True) m) :
    Run.Writes K (fun r => r = .yield ⟨⟩) (do m; pure (ForInStep.yield PUnit.unit)) :=
  h.bind fun _ _ => Run.Writes.pure rfl

end

end Gleaner
