/-
The script that copies its input.

The interpreter runs `cat` as a tool that reads what is left of the input and writes it to the caller. The caller is
still writing then, so the tool comes through only if the pipes to the script and from it and one block in its hand
hold the input (`Script.run_cat`). That is how some exchange of bytes between the caller and a script that copies ends
if the pipes and the blocks have this size (`Exchange.exists_outcome`).

Results:
- `Expand.allFields_cat`, `runTool_cat`, `runText_cat`: the word, the tool and the program;
- `Script.run_cat`: what the script gives;
- `copied_iff_room`: a script that copies byte by byte gives the lines of just those texts for which there is room.
-/
import Gleaner.Proofs.Breakdowns
import Gleaner.Proofs.Bytes
import Gleaner.Proofs.Exchanges
import Mathlib

namespace Gleaner.Shell

/-! ## Running -/

theorem Run.get_run (s : State) : (get : Run State) s = (.ok s, s) := rfl

theorem Run.scope_run (s : State) : scope s = (.ok s.scope, s) := rfl

theorem Run.bind_of_ok {α β : Type} {m : Run α} {f : α → Run β} {s s' : State} {a : α}
    (h : m s = (.ok a, s')) : (m >>= f) s = f a s' := by
  change ExceptT.bindCont f (m s).1 (m s).2 = _
  rw [h]
  rfl

theorem Run.bind_of_error {α β : Type} {m : Run α} {f : α → Run β} {s s' : State} {e : Leave}
    (h : m s = (.error e, s')) : (m >>= f) s = (.error e, s') := by
  change ExceptT.bindCont f (m s).1 (m s).2 = _
  rw [h]
  rfl

theorem Run.bind_congr {α β : Type} {m m' : Run α} {s : State} (h : m s = m' s) (f : α → Run β) :
    (m >>= f) s = (m' >>= f) s := by
  change ExceptT.bindCont f (m s).1 (m s).2 = ExceptT.bindCont f (m' s).1 (m' s).2
  rw [h]

theorem Run.mapM_single {α β : Type} {f : α → Run β} {a : α} {b : β} {s : State} (h : f a s = (.ok b, s)) :
    [a].mapM f s = (.ok [b], s) := by
  rw [List.mapM_cons, List.mapM_nil, bind_of_ok h]
  rfl

/-! ## The word -/

/-- the only word of the program -/
def catWord : Word := ['c', 'a', 't']

theorem Expand.items_cat (run : Runner) (fuel : Nat) (s : State) :
    Expand.items run (fuel + 4) false true catWord s = (.ok (catWord.map fun c => .char c false false), s) := by
  have hletter : ∀ (first : Bool) (fuel : Nat) (c : Char) (rest : Word) (found : List Item), c ∈ catWord →
      Expand.items run fuel false false rest s = (.ok found, s) →
        Expand.items run (fuel + 1) false first (c :: rest) s = (.ok (.char c false false :: found), s) := by
    intro first fuel c rest found hc h
    simp only [catWord, List.mem_cons, List.not_mem_nil, or_false] at hc
    rcases hc with rfl | rfl | rfl
    all_goals
      rw [Expand.items]
      · exact Run.bind_of_ok h
    all_goals simp
  have hend : Expand.items run (fuel + 1) false false [] s = (.ok [], s) := by
    rw [Expand.items]
    · rfl
    · nofun
  refine hletter _ _ _ _ _ (by decide) (hletter _ _ _ _ _ (by decide) (hletter _ _ _ _ _ (by decide) hend))

theorem Expand.pathnames_plain {m : List Marked} (h : isWild m = false) (s : State) :
    Expand.pathnames m s = (.ok [markedText m], s) := by
  unfold Expand.pathnames
  rw [Run.bind_of_ok (Run.scope_run s)]
  simp only [h, Bool.not_false, Bool.or_true, if_true]
  rfl

theorem Expand.allFields_cat (run : Runner) (s : State) : Expand.allFields run [catWord] s = (.ok ["cat"], s) := by
  have hbrace : braceExpand catWord = [catWord] := by decide +kernel
  obtain ⟨ifs, hifs⟩ : ∃ ifs, Run.separators s = (.ok ifs, s) := ⟨_, rfl⟩
  have hitems : Expand.items run depth false true catWord s = _ := Expand.items_cat run 999996 s
  have hfields : fields ifs (catWord.map fun c => .char c false false) = [catWord.map fun c => (c, false)] := rfl
  have hwild : isWild (catWord.map fun c => (c, false)) = false := by decide +kernel
  have hnames := Expand.pathnames_plain hwild s
  have hword : Expand.wordFields run catWord s = (.ok ["cat"], s) := by
    unfold Expand.wordFields
    rw [hbrace]
    rw [Run.bind_of_ok (Run.mapM_single (a := catWord) (b := ["cat"]) ?_)]
    · rfl
    · rw [Run.bind_of_ok hifs, Run.bind_of_ok hitems, hfields, Run.bind_of_ok (Run.mapM_single hnames)]
      rfl
  unfold Expand.allFields
  rw [Run.bind_of_ok (Run.mapM_single hword)]
  rfl

/-! ## The command -/

theorem readCommand_cat : readCommand catWord = .ok (some (.simple [] [catWord]), []) := by rfl

theorem readCommand_nil : readCommand [] = .ok (none, []) := by rfl

theorem simple_cat (fuel : Nat) (s : State) : simple (fuel + 1) [] [catWord] s = dispatch fuel "cat" [] s := by
  have hdeclared : declarations.contains (String.ofList catWord) = false := by decide +kernel
  rw [simple, Run.bind_of_ok (Run.get_run s)]
  simp only [List.head?_cons, Option.map_some, hdeclared, Option.getD_some, Bool.false_eq_true, if_false]
  rw [Run.bind_of_ok (Expand.allFields_cat _ s)]
  rfl

theorem inner_cat (fuel : Nat) (s : State) : inner (fuel + 1) "cat" [] s = outside fuel "cat" [] s := by
  rw [inner, Run.bind_of_ok (Run.get_run s)]
  simp only
  rfl

theorem outside_cat (fuel : Nat) {s : State} (h : toolName? "cat" s = (.ok (some "cat"), s)) :
    outside (fuel + 1) "cat" [] s = runTool "cat" (fun g => return Tools.cat g) [] s := by
  have htool : toolTable.find? (·.1 == "cat") = some ("cat", Tools.cat) := rfl
  rw [outside, Run.bind_of_ok h]
  simp only [htool]

theorem Run.checkStatus_of_lax {s : State} (h : s.scope.settings.errexit = false) : checkStatus s = (.ok (), s) := by
  unfold checkStatus
  rw [bind_of_ok (get_run s), h]
  rfl

/-! ## The tool -/

/-- what a tool finds in a script that has just been started: its input, the way to the caller, and nowhere -/
structure Started (s : State) (input : List Char) : Prop where
  channels : s.channels = #[.source input false, .sink [], .null]
  fds : s.scope.fds = [(0, 0), (1, 1), (2, 2)]
  written : s.written = 0

/-- the input has been written to the caller, and all else is as it was -/
structure Copied (s : State) (input : List Char) (s' : State) : Prop where
  output : ∃ pieces, s'.channels[Run.callerOutput]? = some (.sink pieces) ∧ Run.collected pieces = String.ofList input
  status : s'.status = 0
  scope : s'.scope = s.scope
  jobs : s'.jobs = s.jobs
  outside : s'.outside = s.outside

theorem Run.channelOf_run {s : State} (h : s.scope.fds = [(0, 0), (1, 1), (2, 2)]) {fd : Nat} (hfd : fd < 3) :
    channelOf fd s = (.ok (some fd), s) := by
  unfold channelOf
  rw [bind_of_ok (scope_run s), h]
  interval_cases fd <;> rfl

theorem Run.emit_nothing {s : State} (h : s.scope.fds = [(0, 0), (1, 1), (2, 2)]) : emit 2 "" s = (.ok true, s) := by
  unfold emit
  rw [bind_of_ok (channelOf_run h (by decide))]
  rfl

theorem Tools.cat_input {g : Given} (h : g.args = []) : Tools.cat g = { out := String.ofList g.input } := by
  have hall : (inputs g []).all = String.ofList g.input := by
    simp [inputs, Inputs.all]
  have hresult : ∀ text, (inputs g []).result text 0 = { out := text } := fun text => rfl
  unfold Tools.cat
  rw [h]
  change (inputs g []).result (inputs g []).all 0 = _
  rw [hresult, hall]

theorem Run.available_run {s : State} {input : List Char} (h : Started s input) :
    available 0 s = (.ok (some (input, false)), s) := by
  unfold available
  rw [bind_of_ok (channelOf_run h.fds (by decide))]
  simp only
  rw [bind_of_ok (get_run s), h.channels]
  rfl

/-- a tool reads all of the input -/
theorem Run.consume_run {s : State} {input : List Char} (h : Started s input) :
    consume 0 input.length s = (.ok (), { s with channels := #[.source [] false, .sink [], .null] }) := by
  have hdrop : input.drop input.length = [] := List.drop_length
  unfold consume
  rw [bind_of_ok (channelOf_run h.fds (by decide))]
  simp only
  rw [bind_of_ok (get_run s), h.channels]
  change setChannel 0 (.source (input.drop input.length) false) s = _
  rw [hdrop]
  change (_, { s with channels := s.channels.setIfInBounds 0 (.source [] false) }) = _
  rw [h.channels]
  rfl

/-- a tool writes to a caller whose input has been read -/
theorem Run.emit_run {s : State} (hchannels : s.channels = #[.source [] false, .sink [], .null])
    (hfds : s.scope.fds = [(0, 0), (1, 1), (2, 2)]) (text : String) :
    ∃ pieces written, emit 1 text s =
        (.ok true, { s with channels := #[.source [] false, .sink pieces, .null], written := written }) ∧
      collected pieces = text := by
  unfold emit
  rw [bind_of_ok (channelOf_run hfds (by decide))]
  by_cases hempty : text.isEmpty = true
  · simp only [hempty, if_true]
    refine ⟨[], s.written, ?_, ?_⟩
    · rw [← hchannels]
      rfl
    · rw [String.isEmpty_iff.1 hempty]
      simp [collected]
  · simp only [hempty]
    let s₁ : State := { s with channels := #[.source [] false, .sink [(s.clock, text)], .null] }
    let s₂ : State := { s₁ with written := s.written + text.length }
    have hset : setChannel 1 (.sink [(s.clock, text)]) s = (.ok (), s₁) := by
      have hput : s₁ = { s with channels := s.channels.setIfInBounds 1 (.sink [(s.clock, text)]) } := by
        rw [hchannels]
        rfl
      rw [hput]
      rfl
    have hadd : (modify fun s => { s with written := s.written + text.length } : Run Unit) s₁ = (.ok (), s₂) := rfl
    have hunread : unread s₂ = (.ok 0, s₂) := rfl
    refine ⟨[(s.clock, text)], s₂.written, ?_, by simp [collected]⟩
    simp only [Bool.false_eq_true, if_false]
    rw [bind_of_ok (get_run s), hchannels]
    change (get >>= fun now => setChannel 1 (.sink [(now.clock, text)]) >>= _) s = _
    rw [bind_of_ok (get_run s), bind_of_ok hset]
    change ((modify fun s => { s with written := s.written + text.length } : Run Unit) >>= _) s₁ = _
    rw [bind_of_ok hadd, bind_of_ok (get_run s₂), bind_of_ok hunread]
    simp only [gt_iff_lt, not_lt_zero, decide_false, Bool.and_false, Bool.false_eq_true, if_false]
    rfl

/-- **The tool `cat`** writes its input, unless that is too long to be on its way. -/
theorem runTool_cat {s : State} {input : List Char} (h : Started s input) :
    (3 * Run.pipeSize < input.length → runTool "cat" (fun g => return Tools.cat g) [] s = (.error .late, s)) ∧
    (input.length ≤ 3 * Run.pipeSize → ∃ s', runTool "cat" (fun g => return Tools.cat g) [] s = (.ok (), s') ∧
      Copied s input s') := by
  have hreads := Run.channelOf_run h.fds (show 0 < 3 by decide)
  have hwrites := Run.channelOf_run h.fds (show 1 < 3 by decide)
  have hcopying : (!(["sort", "tac", "tail"].contains "cat") && decide (some 0 = some Run.callerInput) &&
      decide (some 1 = some Run.callerOutput)) = true := by decide +kernel
  obtain ⟨vars, hvars⟩ : ∃ vars, Run.environment s = (.ok vars, s) := ⟨_, rfl⟩
  have hcat : ∀ g : Given, (pure (Tools.cat g) : Run Result) s = (.ok (Tools.cat g), s) := fun g => rfl
  unfold runTool
  rw [Run.bind_of_ok (Run.available_run h)]
  simp only [Option.getD_some]
  rw [Run.bind_of_ok (Run.get_run s), Run.bind_of_ok hvars, Run.bind_of_ok (hcat _), Tools.cat_input rfl,
    Run.bind_of_ok hreads, Run.bind_of_ok hwrites, if_pos hcopying, Run.bind_of_ok (Run.get_run s)]
  refine ⟨fun hlong => ?_, fun hshort => ?_⟩
  · have hpipe : Run.pipeSize < input.length := by
      simp only [Run.pipeSize] at hlong ⊢
      omega
    rw [if_pos (by simp [hlong, h.written, hpipe])]
    rfl
  · rw [if_neg (by simp [hshort])]
    simp only
    let s₁ : State := { s with channels := #[.source [] false, .sink [], .null] }
    obtain ⟨pieces, written, hemit, hcollected⟩ := Run.emit_run (s := s₁) rfl h.fds (String.ofList input)
    rw [Run.bind_of_ok (Run.consume_run h), Run.bind_of_ok (Run.emit_nothing (s := s₁) h.fds), Run.bind_of_ok hemit]
    exact ⟨_, rfl, ⟨pieces, rfl, hcollected⟩, rfl, rfl, rfl, rfl⟩

/-! ## The script -/

theorem toBytes_ofBytes (b : Utf8.Bytes) : toBytes (ofBytes b) = b := by
  have hbyte : ∀ x : UInt8, (Char.ofNat x.toNat).toNat.toUInt8 = x := by
    intro x
    have hvalid : x.toNat.isValidChar := .inl (by have := x.toNat_lt; omega)
    have hnat : (Char.ofNat x.toNat).toNat = x.toNat := by
      rw [Char.ofNat, dif_pos hvalid]
      rfl
    rw [hnat]
    simp
  simp [toBytes, ofBytes, List.map_map, Function.comp_def, hbyte]

theorem length_ofBytes (b : Utf8.Bytes) : (ofBytes b).toList.length = b.length := by
  simp [ofBytes]

/-- the tool is looked for in the directories of the path -/
theorem toolName?_run {s : State} {path : String} (h : Run.textOr "PATH" "/usr/bin:/bin" s = (.ok path, s)) :
    toolName? "cat" s =
      (.ok (if isOutside "cat" && ((path.splitOn ":").map Tools.dropTrailingSlashes).any toolDirs.contains then
        some "cat" else none), s) := by
  have hslash : "cat".contains '/' = false := by
    rw [String.contains_char_eq]
    decide
  unfold toolName?
  simp only [hslash, Bool.false_eq_true, if_false]
  rw [Run.bind_of_ok h]
  rfl

/-- where the tool is found depends on the variables alone -/
theorem toolName?_scope {s s' : State} (h : s'.scope = s.scope) : toolName? "cat" s' = ((toolName? "cat" s).1, s') := by
  obtain ⟨path, hpath⟩ : ∃ path, Run.textOr "PATH" "/usr/bin:/bin" s = (.ok path, s) := ⟨_, rfl⟩
  have hpath' : Run.textOr "PATH" "/usr/bin:/bin" s' = (.ok path, s') := by
    obtain ⟨scope⟩ := s
    obtain ⟨scope'⟩ := s'
    subst h
    cases hpath
    rfl
  rw [toolName?_run hpath, toolName?_run hpath']

/-- **The program `cat`** is one call of the tool. -/
theorem runText_cat (fuel : Nat) {s : State} {input : List Char} (h : Started s input)
    (hfinds : ∀ n, toolName? "cat" { s with steps := n } = (.ok (some "cat"), { s with steps := n }))
    (hfunctions : s.scope.functions = []) (hlax : s.scope.settings.errexit = false) (hsteps : s.steps ≠ 0) :
    (3 * Run.pipeSize < input.length → ∃ s', runText (fuel + 6) catWord s = (.error .late, s') ∧
        s'.outside = s.outside) ∧
      (input.length ≤ 3 * Run.pipeSize → ∃ s', runText (fuel + 6) catWord s = (.ok (), s') ∧ Copied s input s') := by
  let s₁ : State := { s with steps := s.steps - 1 }
  have hstarted : Started s₁ input := ⟨h.channels, h.fds, h.written⟩
  have htick : Run.tick s = (.ok (), s₁) := by
    unfold Run.tick
    rw [Run.bind_of_ok (Run.get_run s), if_neg hsteps]
    rfl
  have htool : ∀ fuel, inner (fuel + 2) "cat" [] s₁ = runTool "cat" (fun g => return Tools.cat g) [] s₁ := by
    intro fuel
    rw [inner_cat, outside_cat _ (hfinds _)]
  have hdispatch : ∀ fuel, dispatch (fuel + 3) "cat" [] s₁ =
      (runTool "cat" (fun g => return Tools.cat g) [] >>= fun _ => Run.checkStatus) s₁ := by
    intro fuel
    rw [dispatch, Run.bind_of_ok (Run.scope_run s₁), hfunctions]
    simp only [List.find?_nil]
    exact Run.bind_congr (htool fuel) _
  have hexec : ∀ fuel, exec (fuel + 5) (.simple [] [catWord]) s = dispatch (fuel + 3) "cat" [] s₁ := by
    intro fuel
    rw [exec, Run.bind_of_ok htick, simple_cat]
  have htext : runText (fuel + 6) catWord s =
      (exec (fuel + 5) (.simple [] [catWord]) >>= fun _ => runText (fuel + 5) []) s := by
    rw [runText, readCommand_cat]
  obtain ⟨hlong, hshort⟩ := runTool_cat hstarted
  refine ⟨fun hlength => ?_, fun hlength => ?_⟩
  · refine ⟨s₁, ?_, rfl⟩
    rw [htext]
    apply Run.bind_of_error
    rw [hexec, hdispatch, Run.bind_of_error (hlong hlength)]
  · obtain ⟨s', hs', hcopied⟩ := hshort hlength
    refine ⟨s', ?_, hcopied.output, hcopied.status, hcopied.scope, hcopied.jobs, hcopied.outside⟩
    have hchecked : Run.checkStatus s' = (.ok (), s') :=
      Run.checkStatus_of_lax (by rw [hcopied.scope]; exact hlax)
    have hdone : exec (fuel + 5) (.simple [] [catWord]) s = (.ok (), s') := by
      rw [hexec, hdispatch, Run.bind_of_ok hs', hchecked]
    rw [htext, Run.bind_of_ok hdone, runText, readCommand_nil]
    rfl

theorem attempt_run {act : Run Unit} {s s' : State} {result : Except Leave Unit} (h : act s = (result, s')) :
    attempt act s = (.ok result, s') := by
  unfold attempt
  rw [h]

theorem withExit_of_late (fuel : Nat) {act : Run Unit} {s s' : State} (h : act s = (.error .late, s')) :
    withExit (fuel + 1) act s = (.error .late, s') := by
  rw [withExit, Run.bind_of_ok (attempt_run h)]
  rfl

theorem withExit_of_ok (fuel : Nat) {act : Run Unit} {s s' : State} (h : act s = (.ok (), s'))
    (hexit : s'.scope.atExit = none) : withExit (fuel + 1) act s = (.error (.exit s'.status), s') := by
  have hstatus : (pure s'.status : Run Nat) s' = (.ok s'.status, s') := rfl
  rw [withExit, Run.bind_of_ok (attempt_run h)]
  simp only
  rw [Run.bind_of_ok (Run.get_run s'), Run.bind_of_ok hstatus, Run.bind_of_ok (Run.scope_run s'), hexit]
  rfl

/-- the file of a script goes with it among the directories outside of the tree -/
theorem ScriptFile.left_outside (f : ScriptFile) : left f.outside = f := by
  obtain ⟨node⟩ := f
  cases node <;> rfl

namespace Script

/-- the file of a script as it is made -/
def made (s : Script) : ScriptFile := ⟨some (.file (Utf8.encode s.body))⟩

/-- the file is as it was made, or can be made, and the tool is found -/
structure Ready (s : Script) (kept : Option Kept) (host : Lua.Host) : Prop where
  file : s.file kept host = .ok s.made
  tool : (toolName? "cat" (initial s s.made [] host.files host.env)).1 = .ok (some "cat")

section

variable {script : Script} {file : ScriptFile} {input : Utf8.Bytes} {files : FileNode} {env : Environment}
  {program : List Char} {s' : State}

theorem run_of_late (hprogram : file.program = .ok program)
    (h : withExit maxDepth (runText maxDepth program) (script.initial file input files env) = (.error .late, s')) :
    script.run file input files env = (.error (.timedOut script.timeout), .left s'.outside, s'.files) := by
  have hrun : (withExit maxDepth (runText maxDepth program)).run (script.initial file input files env) = _ := h
  unfold Script.run
  simp only [hprogram, hrun]
  rfl

theorem run_of_exit (hprogram : file.program = .ok program)
    (h : withExit maxDepth (runText maxDepth program) (script.initial file input files env) =
      (.error (.exit 0), s'))
    (hjobs : s'.jobs = []) {pieces : List (Nat × String)}
    (hout : s'.channels[Run.callerOutput]? = some (.sink pieces)) :
    script.run file input files env = (.ok (toBytes (Run.collected pieces)), .left s'.outside, s'.files) := by
  have hrun : (withExit maxDepth (runText maxDepth program)).run (script.initial file input files env) = _ := h
  unfold Script.run
  simp only [hprogram, hrun, outcome, hjobs, List.any_nil, hout]
  simp

end

/-- **The script `cat`** copies its input, unless that is longer than the pipes and a block, and leaves its file as it
is. -/
theorem run_cat {timeout : Nat} {files : FileNode} {env : Environment} (input : Utf8.Bytes)
    (htool : let script : Script := { body := "cat", timeout := timeout }
      (toolName? "cat" (script.initial script.made [] files env)).1 = .ok (some "cat")) :
    let script : Script := { body := "cat", timeout := timeout }
    let r := script.run script.made input files env
    (r.1 = if 3 * Run.pipeSize < input.length then .error (.timedOut timeout) else .ok input) ∧ r.2.1 = script.made := by
  intro script r
  let s := script.initial script.made input files env
  have hprogram : script.made.program = .ok catWord := by
    have hbody : ({ body := "cat" } : Script).made.program = .ok catWord := by decide +kernel
    exact hbody
  have hstarted : Started s (ofBytes input).toList := ⟨rfl, rfl, rfl⟩
  have hfinds : ∀ n, toolName? "cat" { s with steps := n } = (.ok (some "cat"), { s with steps := n }) := by
    intro n
    have hscope : ({ s with steps := n } : State).scope = (script.initial script.made [] files env).scope := rfl
    rw [toolName?_scope hscope, htool]
  have hsteps : s.steps ≠ 0 := show maxSteps ≠ 0 by decide
  obtain ⟨hlong, hshort⟩ := runText_cat 9999994 hstarted hfinds rfl rfl hsteps
  rw [length_ofBytes] at hlong hshort
  by_cases hlength : 3 * Run.pipeSize < input.length
  · obtain ⟨s', hs', houtside⟩ := hlong hlength
    have hend : withExit maxDepth (runText maxDepth catWord) s = _ := withExit_of_late 9999999 hs'
    have hrun : r = _ := run_of_late hprogram hend
    rw [if_pos hlength, hrun, houtside]
    exact ⟨rfl, ScriptFile.left_outside _⟩
  · obtain ⟨s', hs', hcopied⟩ := hshort (Nat.not_lt.1 hlength)
    have hexit : s'.scope.atExit = none := by
      rw [hcopied.scope]
      rfl
    have hend : withExit maxDepth (runText maxDepth catWord) s = _ := withExit_of_ok 9999999 hs' hexit
    rw [hcopied.status] at hend
    obtain ⟨pieces, hout, hcollected⟩ := hcopied.output
    have hrun : r = _ := run_of_exit hprogram hend hcopied.jobs hout
    rw [if_neg hlength, hrun, hcollected, String.ofList_toList, toBytes_ofBytes, hcopied.outside]
    exact ⟨rfl, ScriptFile.left_outside _⟩

/-- **A call of the script `cat`** that is ready, the first or any other: its file stays as it was made. -/
theorem turn_cat {timeout : Nat} {kept : Option Kept} {host : Lua.Host}
    (hready : Ready { body := "cat", timeout := timeout } kept host) (text : String) :
    let script : Script := { body := "cat", timeout := timeout }
    let input := Utf8.encode text
    (script.turn text kept host).result =
        answer (if 3 * Run.pipeSize < input.length then .error (.timedOut timeout) else .ok input) ∧
      (script.turn text kept host).kept = some (.shell script.made) := by
  intro script input
  obtain ⟨hresult, hfile⟩ := run_cat input hready.tool
  have hturn := turn_made hready.file text
  generalize ({ body := "cat", timeout := timeout } : Script).run _ input host.files host.env = r at hresult hfile hturn
  rw [hturn, hresult, hfile]
  exact ⟨rfl, rfl⟩

end Script

/-! ## The exchange -/

/-- **A script that copies byte by byte** gives the lines of its text just if the two pipes and one byte in its hand
have room for all of it. No exchange with it goes on for ever. If there is room none comes to a place in which both
wait; if there is none all do, and the stage is unmatched when the time is over. Every call of the script `cat` ends as
some exchange with it does where the pipes and the blocks are those of the system, and leaves its file for the next. -/
theorem copied_iff_room {inlet outlet : Nat} (hinlet : 0 < inlet) (houtlet : 0 < outlet) (text : String)
    (timeout : Nat) :
    let room : Pipes := ⟨inlet, outlet, 1⟩
    let system : Pipes := ⟨Run.pipeSize, Run.pipeSize, Run.pipeSize⟩
    let input := Utf8.encode text
    (WellFounded fun y x => ∃ p, Exchange.Step room x p y) ∧
      ((∃ x, Exchange.Reaches room (.start input) x ∧ x.Deadlocked room) ↔ inlet + outlet + 1 < input.length) ∧
      (∀ x, Exchange.Reaches room (.start input) x → x.AtRest room →
        Script.answer (x.outcome timeout) =
          if inlet + outlet + 1 < input.length then
            .error (.unmatched ("shell script: " ++ (Refusal.timedOut timeout).message))
          else .ok ((text.toList.splitOn '\n').map String.ofList)) ∧
      let script : Script := { body := "cat", timeout := timeout }
      ∀ kept host, script.Ready kept host →
        (script.turn text kept host).kept = some (.shell script.made) ∧
          ∃ x, Exchange.Reaches system (.start input) x ∧ x.AtRest system ∧
            Script.answer (x.outcome timeout) = (script.turn text kept host).result := by
  intro room system input
  have hlines : Script.answer (.ok input) = .ok ((text.toList.splitOn '\n').map String.ofList) := by
    rw [Script.answer, splitLines, Utf8.decode_encode]
  have hbyte : min room.block room.inlet = 1 := min_eq_left hinlet
  refine ⟨Exchange.steps_wellFounded room, ⟨?_, ?_⟩, fun x hx hrest => ?_, fun kept host hready => ?_⟩
  · rintro ⟨x, hx, hstuck⟩
    have hsound := hx.sound (Exchange.sound_start room input)
    exact hsound.length_of_jammed (hsound.jammed hinlet houtlet Nat.one_pos hstuck)
  · exact fun hlong => Exchange.exists_deadlocked hinlet houtlet (show 0 < room.block from Nat.one_pos) hlong
  · by_cases hlong : inlet + outlet + 1 < input.length
    · have hnone : room.inlet + room.outlet + min room.block room.inlet < input.length := by
        rw [hbyte]
        exact hlong
      rw [if_pos hlong, (hx.outcome_of_long hnone timeout).2]
      rfl
    · rw [if_neg hlong, hx.outcome_of_short hinlet houtlet Nat.one_pos (Nat.not_lt.1 hlong) hrest, hlines]
  · obtain ⟨x, hx, hrest, houtcome⟩ := Exchange.exists_outcome (show 0 < Run.pipeSize by decide) input timeout
    obtain ⟨hresult, hkept⟩ := Script.turn_cat hready text
    exact ⟨hkept, x, hx, hrest, (congrArg Script.answer houtcome).trans hresult.symm⟩

/-- five bytes do not come through pipes of two bytes and one, and the script `cat` is found and gives five bytes, and
then five others -/
theorem copied_iff_room_five :
    let room : Pipes := ⟨2, 1, 1⟩
    let system : Pipes := ⟨Run.pipeSize, Run.pipeSize, Run.pipeSize⟩
    let start : Exchange := .start (Utf8.encode "abcde")
    let script : Script := { body := "cat" }
    let host : Lua.Host := { files := .emptyDir, env := ⟨[("PATH", "/bin")]⟩ }
    let first := script.turn "abcde" none host
    (∃ x, Exchange.Reaches room start x ∧ x.Deadlocked room) ∧
      (∀ x, Exchange.Reaches room start x → x.AtRest room →
        Script.answer (x.outcome 3000) = .error (.unmatched "shell script: timed out after 3s")) ∧
      script.Ready none host ∧ script.Ready first.kept host ∧
      (∃ x, Exchange.Reaches system start x ∧ x.AtRest system ∧ Script.answer (x.outcome 3000) = first.result) ∧
      ∃ x, Exchange.Reaches system (.start (Utf8.encode "fghij")) x ∧ x.AtRest system ∧
        Script.answer (x.outcome 3000) = (script.turn "fghij" first.kept host).result := by
  intro room system start script host first
  have hlength : 2 + 1 + 1 < (Utf8.encode "abcde").length := by decide +kernel
  have hready : script.Ready none host := by
    let s := script.initial script.made [] host.files host.env
    have hpath : Run.textOr "PATH" "/usr/bin:/bin" s = (.ok "/bin", s) := rfl
    have hdirs : "/bin".splitOn ":" = ["/bin"] := by cbv
    have hinterpreter : hasInterpreter host.env = true := by decide +kernel
    have htemporary : hasTemporary host.files host.env = true := by decide +kernel
    refine ⟨?_, ?_⟩
    · change script.prepare host.files host.env = _
      rw [Script.prepare, hinterpreter, htemporary]
      rfl
    · rw [toolName?_run hpath, hdirs]
      rfl
  obtain ⟨-, hdeadlock, hrests, hsystem⟩ := copied_iff_room (show 0 < 2 by decide) (show 0 < 1 by decide) "abcde" 3000
  obtain ⟨-, -, -, hagain⟩ := copied_iff_room (show 0 < 2 by decide) (show 0 < 1 by decide) "fghij" 3000
  obtain ⟨hkept, hfirst⟩ := hsystem none host hready
  have hready' : script.Ready first.kept host := ⟨hkept ▸ rfl, hready.tool⟩
  refine ⟨hdeadlock.2 hlength, fun x hx hrest => ?_, hready, hready', hfirst, (hagain first.kept host hready').2⟩
  rw [hrests x hx hrest, if_pos hlength]
  decide +kernel

end Gleaner.Shell
