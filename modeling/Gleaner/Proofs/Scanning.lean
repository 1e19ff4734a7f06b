/-
Scanning a reader.

A scan calls its reader for one line after the other. A call gives the bytes up to the next line feed, or what is left
at the end, or nothing when all has been read, or a failure, and then the bytes read before it are lost
(`Source.next`). `scanCalls` is the scan call by call, with what each of them has given; it delivers what `scan` does
(`scan_eq_calls`).

The signal may go up and the consumer may refuse a line at any time, the signal before any call and the consumer
behind any line, also where the input is at its end. Whatever they do, the scan keeps to one form (`Streams`): lines
from the first on, one item at most that says why it ended, and a finish that tells which of the four it was.

Results:
- `Source.rows_cons`, `Source.rows_of_error`, `Source.rows_of_end`: what a call says of the lines of a reader;
- `scan_eq_calls`: the scan and its calls;
- `scan_streams`: every scan keeps to the form.
-/
import Gleaner.Proofs.Splitting

namespace Gleaner

/-! ## Calls of a reader -/

namespace Source

/-- the lines of a reader: bytes behind the last line feed are one if the reader ends, but not if it fails -/
def rows (s : Source) : List Utf8.Bytes :=
  if s.failure.isNone then rowsAt 10 s.bytes else (s.bytes.splitOn 10).dropLast

/-- a call of a reader: the bytes up to the next line feed, and the reader behind them -/
def next (s : Source) : Except IoError (Utf8.Bytes × Source) :=
  let line := s.bytes.takeWhile (· ≠ 10)
  match s.bytes.dropWhile (· ≠ 10), s.failure with
  | feed :: rest, _ => .ok (line ++ [feed], { s with bytes := rest })
  | [], none => .ok (line, { s with bytes := [] })
  | [], some e => .error e

variable {s : Source}

/-- the lines that the model reads are the lines of the reader -/
theorem lines_eq_rows (s : Source) : s.lines = s.rows := by
  obtain ⟨bytes, failure⟩ := s
  cases failure with
  | none => exact lines_of_ends bytes
  | some e => simp [lines, rows, splitOn_eq_splitBytes]

theorem rows_cons {line rest : Utf8.Bytes} (h : 10 ∉ line) (failure : Option IoError) :
    (Source.mk (line ++ 10 :: rest) failure).rows = line :: (Source.mk rest failure).rows := by
  cases failure with
  | none => exact rowsAt_cons h rest
  | some e =>
    have hsplit := List.splitOn_append_cons_self_of_not_mem h rest
    simp only [rows, hsplit]
    exact List.dropLast_cons_of_ne_nil (List.splitOn_ne_nil 10 rest)

theorem rows_nil (failure : Option IoError) : (Source.mk [] failure).rows = [] := by
  cases failure with
  | none => exact rowsAt_nil 10
  | some e => simp [rows]

/-- what a call finds: a line with its end, or bytes without one -/
theorem next_cases (s : Source) :
    (∃ line rest, 10 ∉ line ∧ s.bytes = line ++ 10 :: rest ∧ s.next = .ok (line ++ [10], { s with bytes := rest })) ∨
      10 ∉ s.bytes ∧ s.next =
        match s.failure with
        | none => .ok (s.bytes, { s with bytes := [] })
        | some e => .error e := by
  by_cases hmem : 10 ∈ s.bytes
  · obtain ⟨line, rest, hbytes, hline⟩ := List.eq_append_cons_of_mem hmem
    have hkeep : ∀ b ∈ line, decide (b ≠ 10) = true := by
      intro b hb
      have hne : b ≠ 10 := fun heq => hline (heq ▸ hb)
      simpa using hne
    have htake : s.bytes.takeWhile (· ≠ 10) = line := by
      rw [hbytes, List.takeWhile_append_of_pos hkeep]
      simp
    have hdrop : s.bytes.dropWhile (· ≠ 10) = 10 :: rest := by
      rw [hbytes, List.dropWhile_append_of_pos hkeep]
      simp
    refine .inl ⟨line, rest, hline, hbytes, ?_⟩
    rw [next, htake, hdrop]
  · have hkeep : ∀ b ∈ s.bytes, decide (b ≠ 10) = true := by
      intro b hb
      have hne : b ≠ 10 := fun heq => hmem (heq ▸ hb)
      simpa using hne
    have htake : s.bytes.takeWhile (· ≠ 10) = s.bytes := List.takeWhile_eq_self_iff.2 hkeep
    have hdrop : s.bytes.dropWhile (· ≠ 10) = [] := List.dropWhile_eq_nil_iff.2 hkeep
    refine .inr ⟨hmem, ?_⟩
    rw [next, htake, hdrop]
    cases s.failure <;> rfl

end Source

/-- bytes without one line feed at their end -/
def dropFeed (bs : Utf8.Bytes) : Utf8.Bytes := if bs.getLast? = some 10 then bs.dropLast else bs

theorem dropFeed_snoc (bs : Utf8.Bytes) : dropFeed (bs ++ [10]) = bs := by simp [dropFeed]

theorem dropFeed_of_notMem {bs : Utf8.Bytes} (h : 10 ∉ bs) : dropFeed bs = bs :=
  if_neg fun hlast => h (List.mem_of_getLast? hlast)

namespace Source

variable {s rest : Source} {line : Utf8.Bytes}

/-- **A call that fails** comes from a reader that fails and has no line left. -/
theorem rows_of_error {e : IoError} (h : s.next = .error e) : s.rows = [] ∧ s.failure = some e := by
  rcases s.next_cases with ⟨line, rest, -, -, hnext⟩ | ⟨hnone, hnext⟩
  · cases hnext.symm.trans h
  · rw [h] at hnext
    cases hf : s.failure with
    | none =>
      rw [hf] at hnext
      cases hnext
    | some e' =>
      rw [hf] at hnext
      cases hnext
      simp [rows, hf, List.splitOn_eq_singleton hnone]

/-- **A call that gives nothing** comes from a reader that ends and has no line left. -/
theorem rows_of_end (h : s.next = .ok ([], rest)) : s.rows = [] ∧ s.failure = none := by
  rcases s.next_cases with ⟨line, rest', -, -, hnext⟩ | ⟨-, hnext⟩
  · rw [h] at hnext
    simp at hnext
  · rw [h] at hnext
    cases hf : s.failure with
    | none =>
      rw [hf] at hnext
      simp only [Except.ok.injEq, Prod.mk.injEq] at hnext
      simp [rows, hf, ← hnext.1, rowsAt_nil]
    | some e =>
      rw [hf] at hnext
      cases hnext

/-- **A call that gives bytes** gives the first line. -/
theorem rows_of_next (h : s.next = .ok (line, rest)) (hne : line ≠ []) :
    s.rows = dropFeed line :: rest.rows ∧ rest.bytes.length < s.bytes.length ∧ rest.failure = s.failure := by
  rcases s.next_cases with ⟨front, behind, hfront, hbytes, hnext⟩ | ⟨hnone, hnext⟩
  · rw [h] at hnext
    simp only [Except.ok.injEq, Prod.mk.injEq] at hnext
    obtain ⟨rfl, rfl⟩ := hnext
    refine ⟨?_, by simp only [hbytes, List.length_append, List.length_cons]; omega, rfl⟩
    obtain ⟨bytes, failure⟩ := s
    simp only at hbytes
    rw [hbytes, rows_cons hfront, dropFeed_snoc]
  · rw [h] at hnext
    cases hf : s.failure with
    | none =>
      rw [hf] at hnext
      simp only [Except.ok.injEq, Prod.mk.injEq] at hnext
      obtain ⟨rfl, rfl⟩ := hnext
      have hlast : s.rows = [s.bytes] := by simp [rows, hf, rowsAt_last hnone hne]
      refine ⟨?_, List.length_pos_iff.2 hne, rfl⟩
      rw [hlast, rows_nil, dropFeed_of_notMem hnone]
    | some e =>
      rw [hf] at hnext
      cases hnext

end Source

/-! ## Scans call by call -/

/-- what a scan has delivered, what the calls of the reader have given, and how it ended -/
structure Scanned where
  items : List ReadLine
  calls : List (Except IoError Utf8.Bytes)
  finish : ScanEnd

/-- a scan that has delivered some items, call by call -/
def scanCalls (fires takes : Nat → Bool) (delivered : Nat) (s : Source) : Scanned :=
  if fires delivered then ⟨[.stop delivered .cancelled], [], .cancelled⟩
  else
    match h : s.next with
    | .error e => ⟨[.stop delivered (.read e)], [.error e], .failed⟩
    | .ok (line, rest) =>
      if hend : line = [] then ⟨[], [.ok []], .exhausted⟩
      else
        let item : ReadLine := { number := delivered + 1, text := decodeLine (dropFeed line) }
        if takes (delivered + 1) then
          have := (Source.rows_of_next h hend).2.1
          let found := scanCalls fires takes (delivered + 1) rest
          ⟨item :: found.items, .ok line :: found.calls, found.finish⟩
        else ⟨[item], [.ok line], .closed⟩
termination_by s.bytes.length

/-- **A scan, and its calls** -/
theorem scan_eq_calls (fires takes : Nat → Bool) (delivered : Nat) (s : Source) :
    scanFrom s.failure fires takes delivered s.lines =
      ((scanCalls fires takes delivered s).items, (scanCalls fires takes delivered s).finish) := by
  rw [Source.lines_eq_rows]
  fun_induction scanCalls fires takes delivered s with
  | case1 delivered s hup =>
    cases s.rows <;> simp [scanFrom, hup]
  | case2 delivered s hdown e h =>
    obtain ⟨hrows, hfailure⟩ := Source.rows_of_error h
    rw [hrows, hfailure, scanFrom, if_neg hdown]
  | case3 delivered s hdown rest h =>
    obtain ⟨hrows, hfailure⟩ := Source.rows_of_end h
    rw [hrows, hfailure, scanFrom, if_neg hdown]
  | case4 delivered s hdown line rest h hne item htakes _ found ih =>
    obtain ⟨hrows, -, hfailure⟩ := Source.rows_of_next h hne
    rw [hfailure] at ih
    rw [hrows, scanFrom, if_neg hdown, if_pos htakes, ih]
  | case5 delivered s hdown line rest h hne item hrefused =>
    obtain ⟨hrows, -, -⟩ := Source.rows_of_next h hne
    rw [hrows, scanFrom, if_neg hdown, if_neg hrefused]

/-! ## The form of a scan -/

/-- the reason an item gives for the end of a stream, if it is the last one -/
def lastError (items : List ReadLine) : Option StreamError := items.getLast?.bind ReadLine.error

theorem lastError_cons {item : ReadLine} (h : item.error = none) (items : List ReadLine) :
    lastError (item :: items) = lastError items := by
  cases items with
  | nil => exact h
  | cons next rest => simp [lastError, List.getLast?_cons_cons]

/-- **The form of a scan** that has delivered `before` items of a reader and goes on with what is left of it. -/
structure Streams (before : Nat) (s : Source) (fires takes : Nat → Bool) (r : Scanned) : Prop where
  /-- lines from the first on, with their numbers, and behind them one item at most, which says why it is the last -/
  form : ∃ count ≤ s.rows.length, ∃ stop : Option StreamError,
    r.items = numberedBehind before ((s.rows.take count).map decodeLine) ++
      (stop.map (ReadLine.stop (before + count))).toList
  /-- no item is delivered behind one that has been refused, and none with the signal up, but for the last one -/
  heeds : ∀ l ∈ r.items.dropLast, takes l.number = true ∧ fires (l.number - 1) = false
  closed : r.finish = .closed ↔ ∃ l ∈ r.items, l.error = none ∧ takes l.number = false
  cancelled : r.finish = .cancelled ↔ lastError r.items = some .cancelled
  failed : r.finish = .failed ↔ ∃ e, lastError r.items = some (.read e)
  failure : ∀ e, lastError r.items = some (.read e) → s.failure = some e
  exhausted : r.finish = .exhausted ↔
    r.items = numberedBehind before (s.rows.map decodeLine) ∧ r.calls.getLast? = some (.ok [])

namespace Source

/-- what stands behind the last line feed -/
theorem rows_tail {s : Source} {whole rest : Utf8.Bytes} (hbytes : s.bytes = whole ++ rest)
    (hwhole : whole = [] ∨ whole.getLast? = some 10) (hrest : 10 ∉ rest) (hne : rest ≠ []) :
    s.rows = rowsAt 10 whole ++ if s.failure = none then [rest] else [] := by
  have hlast : rest.splitOn 10 = [rest] := List.splitOn_eq_singleton hrest
  -- the lines before the last line feed, and their parts
  have hsplit : s.bytes.splitOn 10 = rowsAt 10 whole ++ [rest] := by
    rcases hwhole with rfl | hend
    · rw [hbytes, List.nil_append, hlast, rowsAt_nil, List.nil_append]
    · obtain ⟨front, rfl⟩ : ∃ front, whole = front ++ [10] :=
        ⟨whole.dropLast, (List.dropLast_append_getLast? 10 hend).symm⟩
      rw [hbytes, List.append_assoc, List.singleton_append, List.splitOn_append_cons_self, hlast, rowsAt_behind,
        rowsAt_nil, List.append_nil]
  rw [rows]
  cases hf : s.failure with
  | none => rw [Option.isNone_none, if_pos rfl, if_pos rfl, rowsAt_eq hsplit, if_neg hne]
  | some e => simp [hsplit]

end Source

section

variable {fires takes : Nat → Bool} {before : Nat} {s : Source}

/-- a scan that stops before the next line -/
theorem Streams.stop {e : StreamError} {calls : List (Except IoError Utf8.Bytes)} {finish : ScanEnd}
    (hstops : finish = .cancelled ∨ finish = .failed) (hcalls : calls.getLast? ≠ some (.ok [])) (hcancelled : finish = .cancelled ↔ e = .cancelled)
    (hfailed : finish = .failed ↔ ∃ cause, e = .read cause) (hcause : ∀ cause, e = .read cause → s.failure = some cause) :
    Streams before s fires takes ⟨[.stop before e], calls, finish⟩ := by
  have hlast : lastError [.stop before e] = some e := rfl
  constructor
  case form =>
    refine ⟨0, Nat.zero_le _, some e, ?_⟩
    simp [numberedBehind]
  case heeds => simp
  case closed =>
    have hitem : ¬ ∃ l ∈ [ReadLine.stop before e], l.error = none ∧ takes l.number = false := by simp [ReadLine.stop]
    refine iff_of_false ?_ hitem
    rintro rfl
    simp at hstops
  case cancelled => rw [hlast, Option.some.injEq, hcancelled]
  case failed => simp only [hlast, Option.some.injEq, hfailed]
  case failure =>
    intro cause hcause'
    rw [hlast, Option.some.injEq] at hcause'
    exact hcause cause hcause'
  case exhausted =>
    refine iff_of_false ?_ fun h => hcalls h.2
    rintro rfl
    simp at hstops

/-- a scan that finds nothing more -/
theorem Streams.done (h : s.rows = []) : Streams before s fires takes ⟨[], [.ok []], .exhausted⟩ := by
  constructor
  case form => exact ⟨0, Nat.zero_le _, none, by simp [numberedBehind]⟩
  case heeds => simp
  case exhausted => simp [h, numberedBehind]
  all_goals simp [lastError]

/-- a line of the reader -/
abbrev lineBehind (before : Nat) (line : Utf8.Bytes) : ReadLine :=
  { number := before + 1, text := decodeLine (dropFeed line) }

variable {line : Utf8.Bytes} {rest : Source}

/-- a line that has been refused -/
theorem Streams.refused (h : s.next = .ok (line, rest)) (hne : line ≠ []) (hrefused : takes (before + 1) = false) :
    Streams before s fires takes ⟨[lineBehind before line], [.ok line], .closed⟩ := by
  obtain ⟨hrows, -, -⟩ := Source.rows_of_next h hne
  have hlast : lastError [lineBehind before line] = none := rfl
  constructor
  case form =>
    refine ⟨1, by simp [hrows], none, ?_⟩
    simp [hrows, numberedBehind]
  case heeds => simp
  case closed => simp [hrefused]
  case exhausted => simp [hne]
  all_goals simp [hlast]

/-- a line that has been taken, and what comes behind it -/
theorem Streams.next {found : Scanned} (h : s.next = .ok (line, rest)) (hne : line ≠ [])
    (hdown : fires before = false) (htaken : takes (before + 1) = true)
    (hfound : Streams (before + 1) rest fires takes found) :
    Streams before s fires takes ⟨lineBehind before line :: found.items, .ok line :: found.calls, found.finish⟩ := by
  obtain ⟨hrows, -, hfailure⟩ := Source.rows_of_next h hne
  have hlast : lastError (lineBehind before line :: found.items) = lastError found.items := lastError_cons rfl _
  constructor
  case form =>
    obtain ⟨count, hcount, stop, hitems⟩ := hfound.form
    refine ⟨count + 1, by simpa [hrows] using hcount, stop, ?_⟩
    rw [hrows, List.take_succ_cons, List.map_cons, numberedBehind_cons, List.cons_append, hitems,
      Nat.add_assoc before 1 count, Nat.add_comm 1 count]
  case heeds =>
    intro l hl
    by_cases hnone : found.items = []
    · simp [hnone] at hl
    · rw [List.dropLast_cons_of_ne_nil hnone] at hl
      rcases List.mem_cons.1 hl with rfl | hl
      · exact ⟨htaken, hdown⟩
      · exact hfound.heeds l hl
  case closed =>
    rw [hfound.closed]
    simp [htaken]
  case cancelled => rw [hlast, hfound.cancelled]
  case failed => simp only [hlast, hfound.failed]
  case failure =>
    intro e he
    rw [hlast] at he
    rw [← hfailure]
    exact hfound.failure e he
  case exhausted =>
    have hcalls : (Except.ok line :: found.calls).getLast? = some (.ok []) ↔
        found.calls.getLast? = some (.ok []) := by
      rw [List.getLast?_cons]
      cases found.calls.getLast? with
      | none => simp [hne]
      | some last => simp
    rw [hfound.exhausted, hcalls, hrows, List.map_cons, numberedBehind_cons, List.cons.injEq]
    simp

end

/-- **One form for every scan**, whatever has been delivered before it -/
theorem scanCalls_streams (fires takes : Nat → Bool) (before : Nat) (s : Source) :
    Streams before s fires takes (scanCalls fires takes before s) := by
  fun_induction scanCalls fires takes before s with
  | case1 before s hup => exact .stop (.inl rfl) (by simp) (by simp) (by simp) (by simp)
  | case2 before s hdown e h =>
    obtain ⟨-, hfailure⟩ := Source.rows_of_error h
    refine .stop (.inr rfl) (by simp) (by simp) (by simp) ?_
    rintro _ ⟨⟩
    exact hfailure
  | case3 before s hdown rest h => exact .done (Source.rows_of_end h).1
  | case4 before s hdown line rest h hne item htakes _ found ih =>
    exact .next h hne (Bool.eq_false_of_not_eq_true hdown) htakes ih
  | case5 before s hdown line rest h hne item hrefused =>
    exact .refused h hne (Bool.eq_false_of_not_eq_true hrefused)

/-- **Every scan keeps to the form**, for every reader, and whenever the signal goes up or the consumer refuses a line:
what it delivers are the first lines of the reader, numbered from 1, and behind them one item at most that tells why it
stopped. Its finish tells apart a consumer that has refused a line, a signal that was up, a reader that has failed, and
a reader that has come to its end with all its lines delivered. Bytes behind the last line feed are a line of a reader
that ends, and not of one that fails. -/
theorem scan_streams (s : Source) (fires takes : Nat → Bool) :
    let r := scanCalls fires takes 0 s
    scan s fires takes = (r.items, r.finish) ∧ Streams 0 s fires takes r ∧
      ∀ whole rest, s.bytes = whole ++ rest → whole = [] ∨ whole.getLast? = some 10 → 10 ∉ rest → rest ≠ [] →
        s.rows = rowsAt 10 whole ++ if s.failure = none then [rest] else [] :=
  ⟨scan_eq_calls fires takes 0 s, scanCalls_streams fires takes 0 s,
    fun _ _ hbytes hwhole hrest hne => Source.rows_tail hbytes hwhole hrest hne⟩

/-- a reader that fails behind half a line, under a consumer that takes everything and under one that takes nothing -/
theorem scan_streams_half :
    let s : Source := ⟨[97, 10, 98], some .isDirectory⟩
    s.rows = [[97]] ∧
      scan s (fun _ => false) (fun _ => true) = ([⟨1, "a", none⟩, .stop 1 (.read .isDirectory)], .failed) ∧
        scan s (fun _ => false) (fun _ => false) = ([⟨1, "a", none⟩], .closed) := by
  refine ⟨?_, by decide +kernel, by decide +kernel⟩
  have hbytes : ([97, 10, 98] : Utf8.Bytes) = [97, 10] ++ [98] := rfl
  exact ((scan_streams _ (fun _ => false) fun _ => true).2.2 _ _ hbytes (.inr rfl) (by decide) (by decide)).trans
    (by decide)

end Gleaner
