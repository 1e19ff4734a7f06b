/-
Cancellation at any moment.

Whatever turns the parts of a run take and whenever the token fires, a run does events of its enumeration in their order
(`Machine.Sound`): what the channels carry, what the rules have decided and where the loop is make up the events still
ahead. An item that shows the token, or a rule that was cut short by it, ends the run before anything is written or kept
for it.

Results:
- `Task.Steps.sound`, `Step.sound`: what a step of a rule and of a machine preserves;
- `Sound.of_reachable`: what holds of a machine at any time;
- `cancellation_safe`: a run whose token may fire at any time.
-/
import Gleaner.Proofs.Machine

namespace Gleaner

open Act

section

variable {p : Pipeline} {files : FileNode} {env : Environment} {fired : Bool}

/-! ## Category rules -/

/-- what a rule decides for a file if it is not cut short -/
def CategorySelector.verdict (files : FileNode) (env : Environment) (rule : CategorySelector) (path : String) :
    MatchResult :=
  match rule.mode with
  | .filename => rule.chain.value files env path
  | .text => scanned (rule.chain.value files env) files path

/-- a rule that has begun decides the same with the lines left, and one that has decided has done so right or was cut
short by the token -/
def Task.Sound (files : FileNode) (env : Environment) (rule : CategorySelector) (path : String) (fired : Bool) :
    Task → Prop
  | .pending => True
  | .scanning reader => ∃ lines, reader.Carries ReadLine.IsCut fired lines ∧
      rule.verdict files env path = firstMatch (rule.chain.value files env) lines
  | .decided r => r = rule.verdict files env path ∨ fired = true ∧ IsCutResult r

theorem Task.Sound.fire {rule : CategorySelector} {path : String} {t : Task} (h : t.Sound files env rule path fired) :
    t.Sound files env rule path true := by
  cases t with
  | pending => trivial
  | scanning reader =>
    obtain ⟨lines, hreader, hlines⟩ := h
    exact ⟨lines, hreader.fire, hlines⟩
  | decided r => exact h.imp_right fun ⟨_, hcut⟩ => ⟨rfl, hcut⟩

/-- a rule that has heard the result for a line -/
theorem Task.sound_heard {rule : CategorySelector} {path : String} {line : ReadLine} {more : List ReadLine}
    {reader : Channel ReadLine} (herror : line.error = none) (hmore : reader.Carries ReadLine.IsCut fired more)
    (hlines : rule.verdict files env path = firstMatch (rule.chain.value files env) (line :: more)) :
    (heard line reader (rule.chain.value files env line.text)).Sound files env rule path fired := by
  rw [firstMatch, herror] at hlines
  cases hv : rule.chain.value files env line.text with
  | ok found =>
    simp only [hv] at hlines
    exact .inl hlines.symm
  | error e =>
    simp only [hv] at hlines
    unfold heard
    by_cases hunmatched : e.isUnmatched = true
    · simp only [if_pos hunmatched] at hlines ⊢
      exact ⟨more, hmore, hlines⟩
    · simp only [if_neg hunmatched] at hlines ⊢
      exact .inl hlines.symm

/-- **A step of a rule** leaves it sound and the world settled. -/
theorem Task.Steps.sound {scripts : Place → Option Callable} {fires : Nat → Bool} {rule : CategorySelector}
    {path : String} {t t' : Task} {w w' : World} (h : t.Steps rule path fired w t' w')
    (hrule : ∀ text, Gives (World.SettledUnder scripts files env fires) (rule.chain.run text)
      (rule.chain.value files env text))
    (hw : w.SettledUnder scripts files env fires) (ht : t.Sound files env rule path fired) :
    t'.Sound files env rule path fired ∧ w'.SettledUnder scripts files env fires := by
  cases h with
  | name hmode =>
    obtain ⟨hvalue, hok⟩ := hrule path w hw
    refine ⟨.inl ?_, hok⟩
    rw [hvalue, CategorySelector.verdict, hmode]
  | refuse hmode hopen =>
    rw [hw.1.files_eq] at hopen
    refine ⟨.inl ?_, hw.1.of_subset hw.1.files_eq rfl (List.Subset.refl _), hw.2⟩
    rw [CategorySelector.verdict, hmode, scanned, hopen]
  | @start _ source hmode hopen =>
    rw [hw.1.files_eq] at hopen
    refine ⟨⟨Move.items source.moves, .start (readFrom_heeds _ _ _) fired, ?_⟩, hw⟩
    rw [CategorySelector.verdict, hmode, scanned, hopen]
  | read hreader =>
    obtain ⟨lines, hcarries, hlines⟩ := ht
    exact ⟨⟨lines, hreader.carries hcarries, hlines⟩, hw⟩
  | @fail _ rest line queue e herror =>
    obtain ⟨lines, hcarries, hlines⟩ := ht
    refine ⟨?_, hw⟩
    rcases hcarries.take with ⟨more, rfl, -⟩ | ⟨hup, hcut⟩
    · refine .inl ?_
      rw [hlines, firstMatch, herror]
    · rw [show line.error = _ from hcut] at herror
      cases herror
      exact .inr ⟨hup, _, rfl, rfl⟩
  | @apply _ rest line queue herror =>
    obtain ⟨lines, hcarries, hlines⟩ := ht
    obtain ⟨hvalue, hok⟩ := hrule line.text w hw
    refine ⟨?_, hok⟩
    rcases hcarries.take with ⟨more, rfl, hmore⟩ | ⟨-, hcut⟩
    · rw [hvalue]
      exact sound_heard herror hmore hlines
    · rw [show line.error = _ from hcut] at herror
      cases herror
  | exhaust =>
    obtain ⟨lines, hcarries, hlines⟩ := ht
    rw [hcarries.closed] at hlines
    exact ⟨.inl hlines.symm, hw⟩

/-! ## Entries of rules -/

/-- the entries of pairs of rules and results -/
theorem gather_of_map {α β : Type} (name : β → String) (g : α → β) {value : α → MatchResult} {target : β → MatchResult}
    {xs : List α} (h : ∀ x ∈ xs, value x = target (g x)) (i : Nat) :
    Selection.gather (fun x => name (g x)) value i xs = Selection.gather name target i (xs.map g) := by
  induction xs generalizing i with
  | nil => rfl
  | cons x rest ih =>
    rw [Selection.gather, List.map_cons, Selection.gather, h x List.mem_cons_self,
      ih fun y hy => h y (List.mem_cons_of_mem _ hy)]

/-- an entry that was cut short shows -/
theorem gather_cut {α : Type} {name : α → String} {value : α → MatchResult} {xs : List α} {x : α} (hx : x ∈ xs)
    (h : IsCutResult (value x)) (i : Nat) : (Selection.gather name value i xs).any Selection.isCancelled = true := by
  induction xs generalizing i with
  | nil => cases hx
  | cons y rest ih =>
    rw [Selection.gather, List.any_append, Bool.or_eq_true]
    rcases List.mem_cons.1 hx with rfl | hx
    · exact .inl (Selection.expand_cut h i _)
    · exact .inr (ih hx (i + 1))

/-- **Rules that have all decided right** give the categories of the file. -/
theorem reports_whole (h : p.Functional files env) (hplaced : p.Placed) {path : String}
    {found : List (CategorySelector × MatchResult)} (hrules : found.map Prod.fst = p.categories)
    (hfound : ∀ x ∈ found, x.2 = x.1.verdict files env path) : reports path found = p.categoriesOf files env path := by
  have hvalue : ∀ x ∈ found, x.1.report path x.2 = x.1.value files env path := by
    intro x hx
    have hmem : x.1 ∈ p.categories := hrules ▸ List.mem_map_of_mem hx
    rw [h.category_value hplaced hmem, hfound x hx]
    rfl
  rw [Pipeline.categoriesOf, ← hrules]
  exact gather_of_map CategorySelector.name Prod.fst hvalue 0

/-- entries that show nothing come from rules that were not cut short -/
theorem whole_of_reports {path : String} {found : List (CategorySelector × MatchResult)}
    (hwhole : (reports path found).any Selection.isCancelled = false)
    (hfound : ∀ x ∈ found, (Task.decided x.2).Sound files env x.1 path fired) :
    ∀ x ∈ found, x.2 = x.1.verdict files env path := by
  intro x hx
  rcases hfound x hx with hright | ⟨-, hcut⟩
  · exact hright
  · have hshown : (reports path found).any Selection.isCancelled = true :=
      gather_cut hx (hcut.located _) 0
    rw [hwhole] at hshown
    cases hshown

/-! ## What is ahead of a machine -/

namespace Machine

/-- the events ahead up to the end of a walk that has some lines left -/
def now (p : Pipeline) (files : FileNode) (env : Environment) (lines : List FileLine) : Control → List Event
  | .next .roots _ => []
  | .next (.lines root) _ => lines.flatMap (p.lineEvents files env root)
  | .line root line => p.categoryEvents files env root line ++ lines.flatMap (p.lineEvents files env root)
  | .rules root line _ => p.categoryEvents files env root line ++ lines.flatMap (p.lineEvents files env root)
  | .done _ => []

/-- the rules of a line are those of the pipeline, and they are sound -/
def RulesSound (p : Pipeline) (files : FileNode) (env : Environment) (fired : Bool) : Control → Prop
  | .rules _ line tasks =>
    tasks.map Prod.fst = p.categories ∧ ∀ x ∈ tasks, x.2.Sound files env x.1 line.path fired
  | _ => True

/-- the events ahead of a machine; there are none if it has come to its end, and nothing is known of them if it was
cancelled -/
inductive Ahead (p : Pipeline) (files : FileNode) (env : Environment) (m : Machine) : List Event → Prop where
  | running {roots : List ReadLine} {lines : List FileLine} (hinput : m.input.Carries ReadLine.IsCut m.fired roots)
      (hwalk : m.walk.Carries FileLine.IsCut m.fired lines) (hrules : RulesSound p files env m.fired m.control)
      (hrunning : m.control.isDone = false) :
      Ahead p files env m (now p files env lines m.control ++ roots.flatMap (p.rootEvents files env))
  | finished (h : m.control = .done (.ok m.run.summary)) : Ahead p files env m []
  | cancelled {events : List Event} (h : m.control = .done (.error .cancelled)) (hup : m.fired = true) :
      Ahead p files env m events

/-- a pipeline of functions, a state with room for any output, and events none of which fails -/
structure Setting (p : Pipeline) (files : FileNode) (env : Environment) (s : RunState) (events : List Event) :
    Prop where
  functional : p.Functional files env
  placed : p.Placed
  room : s.output.limit = none
  good : ∀ e ∈ events, e.isFail = false

/-- **The invariant of a machine**: what it keeps is right, and what it has done and what is ahead are the events of the
whole run. -/
structure Sound (p : Pipeline) (files : FileNode) (env : Environment) (s : RunState) (events : List Event)
    (m : Machine) : Prop where
  kept : m.run.workspace.KeptUnder p files env fun _ => false
  ahead : ∃ done rest, events = done ++ rest ∧ Did done s m.run ∧ m.Ahead p files env rest

variable {s : RunState} {events : List Event} {m m' : Machine}

theorem sound_start {ws : Workspace} (hws : ws.Kept p files env) (input : Source) :
    (start ws input).Sound p files env (start ws input).run (p.enumeration files env input) := by
  have hahead : (start ws input).Ahead p files env ((Move.items input.moves).flatMap (p.rootEvents files env)) :=
    .running (m := start ws input) (.start (readFrom_heeds _ _ _) false) (.empty _ _) trivial rfl
  rw [← Pipeline.inputLines_eq] at hahead
  exact ⟨hws.under _, [], _, rfl, Did.refl _, hahead⟩

/-- what is ahead while a machine runs -/
theorem Ahead.of_running {rest : List Event} (h : m.Ahead p files env rest) (hrunning : m.control.isDone = false) :
    ∃ roots lines, m.input.Carries ReadLine.IsCut m.fired roots ∧ m.walk.Carries FileLine.IsCut m.fired lines ∧
      RulesSound p files env m.fired m.control ∧
      rest = now p files env lines m.control ++ roots.flatMap (p.rootEvents files env) := by
  cases h with
  | running hinput hwalk hrules _ => exact ⟨_, _, hinput, hwalk, hrules, rfl⟩
  | finished h =>
    rw [h] at hrunning
    cases hrunning
  | cancelled h _ =>
    rw [h] at hrunning
    cases hrunning

/-- the token may fire -/
theorem Ahead.fire {rest : List Event} (h : m.Ahead p files env rest) :
    { m with fired := true }.Ahead p files env rest := by
  cases h with
  | @running roots lines hinput hwalk hrules hrunning =>
    refine .running (m := { m with fired := true }) hinput.fire hwalk.fire ?_ hrunning
    revert hrules
    cases m.control with
    | rules root line tasks => exact fun hrules => ⟨hrules.1, fun x hx => (hrules.2 x hx).fire⟩
    | next loop looked => exact id
    | line root line => exact id
    | done r => exact id
  | finished h => exact .finished h
  | cancelled h _ => exact .cancelled h rfl

/-- the producers carry on -/
theorem Ahead.produce {rest : List Event} (h : m.Ahead p files env rest) {input : Channel ReadLine}
    {walk : Channel FileLine}
    (hinput : ∀ roots, m.input.Carries ReadLine.IsCut m.fired roots → input.Carries ReadLine.IsCut m.fired roots)
    (hwalk : ∀ lines, m.walk.Carries FileLine.IsCut m.fired lines → walk.Carries FileLine.IsCut m.fired lines) :
    { m with input := input, walk := walk }.Ahead p files env rest := by
  cases h with
  | running hroots hlines hrules hrunning =>
    exact .running (m := { m with input := input, walk := walk }) (hinput _ hroots) (hwalk _ hlines) hrules hrunning
  | finished h => exact .finished h
  | cancelled h hup => exact .cancelled h hup

/-- a machine that runs is sound -/
theorem Sound.of_running {done : List Event} {lines : List FileLine} {roots : List ReadLine}
    (hkept : m.run.workspace.KeptUnder p files env fun _ => false) (hdone : Did done s m.run)
    (hinput : m.input.Carries ReadLine.IsCut m.fired roots) (hwalk : m.walk.Carries FileLine.IsCut m.fired lines)
    (hrules : RulesSound p files env m.fired m.control) (hrunning : m.control.isDone = false)
    (hevents : events = done ++ (now p files env lines m.control ++ roots.flatMap (p.rootEvents files env))) :
    m.Sound p files env s events :=
  ⟨hkept, done, _, hevents, hdone, .running hinput hwalk hrules hrunning⟩

/-- a machine that was cancelled is sound -/
theorem Sound.cancel (h : m.Sound p files env s events) (hup : m.fired = true) :
    { m with control := .done (.error .cancelled) }.Sound p files env s events := by
  obtain ⟨hkept, done, rest, hevents, hdone, -⟩ := h
  exact ⟨hkept, done, rest, hevents, hdone, .cancelled rfl hup⟩

/-- a line of the input: it is blank, or its walk begins -/
theorem onRoot_sound (hset : Setting p files env s events)
    (hkept : m.run.workspace.KeptUnder p files env fun _ => false) {done : List Event} (hdone : Did done s m.run)
    {root : ReadLine} {more : List ReadLine} {lines : List FileLine}
    (hevents : events = done ++ (root :: more).flatMap (p.rootEvents files env))
    (hinput : m.input.Carries ReadLine.IsCut m.fired more) (hwalk : m.walk.Carries FileLine.IsCut m.fired lines) :
    (onRoot p files env m root).Sound p files env s events := by
  rw [List.flatMap_cons, Pipeline.rootEvents] at hevents
  unfold onRoot
  cases herror : root.error with
  | some e =>
    rw [herror] at hevents
    cases hset.good (.fail (.ofStream ("input line " ++ toString root.number) e)) (by rw [hevents]; simp)
  | none =>
    rw [herror] at hevents
    cases hblank : Text.isBlank root.text with
    | true =>
      rw [hblank] at hevents
      exact .of_running hkept hdone hinput hwalk trivial rfl hevents
    | false =>
      rw [hblank] at hevents
      let tour : Tour := ⟨root.text, files, p.ignore.value files env⟩
      have hlines : Channel.Carries FileLine.IsCut m.fired (p.walked files env root.text) ⟨tour.moves, []⟩ := by
        rw [hset.functional.walked_eq hset.placed]
        exact .start tour.moves_heeds _
      have hcount : Did [.root] m.run { m.run with summary := Event.tally m.run.summary .root } :=
        ⟨by simp [Event.isFail], rfl, rfl⟩
      refine .of_running hkept (hdone.trans hcount) hinput hlines trivial rfl ?_
      rw [hevents, List.append_assoc]
      rfl

/-- a line of a walk -/
theorem onLine_sound (hset : Setting p files env s events)
    (hkept : m.run.workspace.KeptUnder p files env fun _ => false) {done : List Event} (hdone : Did done s m.run)
    {root : ReadLine} {line : FileLine} {lines : List FileLine} {roots : List ReadLine}
    (hevents : events = done ++ ((line :: lines).flatMap (p.lineEvents files env root) ++
      roots.flatMap (p.rootEvents files env)))
    (hinput : m.input.Carries ReadLine.IsCut m.fired roots) (hwalk : m.walk.Carries FileLine.IsCut m.fired lines) :
    (onLine m root line).Sound p files env s events := by
  rw [List.flatMap_cons, Pipeline.lineEvents] at hevents
  unfold onLine
  cases herror : line.error with
  | some e =>
    rw [herror] at hevents
    cases hset.good (.fail (.ofStream line.render e)) (by rw [hevents]; simp)
  | none =>
    rw [herror] at hevents
    have hcount : Did [.line] m.run { m.run with summary := Event.tally m.run.summary .line } :=
      ⟨by simp [Event.isFail], rfl, rfl⟩
    refine .of_running hkept (hdone.trans hcount) hinput hwalk trivial rfl ?_
    rw [hevents]
    simp only [now, List.append_assoc, List.cons_append, List.nil_append]

/-- the records of a line whose categories are known -/
theorem finish_sound (hset : Setting p files env s events)
    (hkept : m.run.workspace.KeptUnder p files env fun _ => false) {done : List Event} (hdone : Did done s m.run)
    {root : ReadLine} {line : FileLine} {lines : List FileLine} {roots : List ReadLine}
    (hevents : events = done ++ (p.categoryEvents files env root line ++ lines.flatMap (p.lineEvents files env root) ++
      roots.flatMap (p.rootEvents files env)))
    (hinput : m.input.Carries ReadLine.IsCut m.fired roots) (hwalk : m.walk.Carries FileLine.IsCut m.fired lines) :
    (finish p m root line).Sound p files env s events := by
  have hfits : m.run.output.Fits ((p.categoryEvents files env root line).flatMap Event.pieces) :=
    Output.fits_of_unlimited (hdone.limit.trans hset.room) _
  have hgood : ∀ e ∈ p.categoryEvents files env root line, e.isFail = false := by
    intro e he
    refine hset.good e ?_
    rw [hevents]
    exact List.mem_append_right _ (List.mem_append_left _ (List.mem_append_left _ he))
  obtain ⟨hafter, -, hdid⟩ := Pipeline.processLine_plays hset.functional hset.placed root line m.run hkept
  obtain ⟨more, hmore, hends⟩ := hdid hfits
  rcases hends.of_noFail hgood with ⟨hr, rfl⟩ | ⟨-, hrises, -⟩
  · have hcontrol : (finish p m root line).control = .next (.lines root) false := by
      unfold finish
      rw [hr]
    refine .of_running hafter (hdone.trans hmore) hinput hwalk (by rw [hcontrol]; trivial) (by rw [hcontrol]; rfl) ?_
    rw [hevents, hcontrol, List.append_assoc, List.append_assoc]
    rfl
  · exact absurd hrises not_rises_silent

/-- a step of a rule -/
theorem rule_sound (hset : Setting p files env s events) {root : ReadLine} {line : FileLine}
    {before after : List (CategorySelector × Task)} {rule : CategorySelector} {t t' : Task} {w : World}
    (hcontrol : m.control = .rules root line (before ++ (rule, t) :: after))
    (ht : t.Steps rule line.path m.fired m.run.workspace.world t' w) (hm : m.Sound p files env s events) :
    { m.inWorld w with control := .rules root line (before ++ (rule, t') :: after) }.Sound p files env s events := by
  obtain ⟨hkept, done, rest, hevents, hdone, hahead⟩ := hm
  obtain ⟨roots, lines, hinput, hwalk, hrules, rfl⟩ := hahead.of_running (by rw [hcontrol]; rfl)
  rw [hcontrol] at hrules hevents
  obtain ⟨hnames, hsound⟩ := hrules
  have hrule : rule ∈ p.categories := by
    rw [← hnames]
    exact List.mem_map_of_mem (List.mem_append_right before List.mem_cons_self)
  obtain ⟨ht', hw⟩ := ht.sound (fun text => hset.functional.category_gives hset.placed hrule text) hkept.settledUnder
    (hsound (rule, t) (List.mem_append_right _ List.mem_cons_self))
  have hworld : (m.inWorld w).run.workspace.KeptUnder p files env fun _ => false :=
    ⟨⟨hw.1, hkept.1.categories, hkept.1.categoryNormalizers, hkept.1.nodeNormalizers⟩, hw.2⟩
  have hall : RulesSound p files env m.fired (.rules root line (before ++ (rule, t') :: after)) := by
    refine ⟨by rw [← hnames]; simp, fun x hx => ?_⟩
    rcases List.mem_append.1 hx with hx | hx
    · exact hsound x (List.mem_append_left _ hx)
    · rcases List.mem_cons.1 hx with rfl | hx
      · exact ht'
      · exact hsound x (List.mem_append_right _ (List.mem_cons_of_mem _ hx))
  exact .of_running hworld ⟨hdone.noFail, hdone.output, hdone.summary⟩ hinput hwalk hall rfl hevents

section

variable {root : ReadLine} {line : FileLine} {found : List (CategorySelector × MatchResult)}

/-- the rules of a line have all decided -/
theorem RulesSound.decided {fired : Bool}
    (h : RulesSound p files env fired (.rules root line (found.map fun x => (x.1, .decided x.2)))) :
    found.map Prod.fst = p.categories ∧ ∀ x ∈ found, (Task.decided x.2).Sound files env x.1 line.path fired := by
  obtain ⟨hnames, hsound⟩ := h
  rw [List.map_map] at hnames
  exact ⟨hnames, fun x hx => hsound _ (List.mem_map_of_mem hx)⟩

/-- rules that show nothing have given the categories of the file -/
theorem RulesSound.whole (hset : Setting p files env s events) {fired : Bool}
    (h : RulesSound p files env fired (.rules root line (found.map fun x => (x.1, .decided x.2))))
    (hwhole : (reports line.path found).any Selection.isCancelled = false) :
    reports line.path found = p.categoriesOf files env line.path :=
  reports_whole hset.functional hset.placed h.decided.1 (whole_of_reports hwhole h.decided.2)

/-- rules show that they were cut short only if the token has fired -/
theorem RulesSound.cut (hset : Setting p files env s events) {fired : Bool}
    (h : RulesSound p files env fired (.rules root line (found.map fun x => (x.1, .decided x.2))))
    (hcut : (reports line.path found).any Selection.isCancelled = true) : fired = true := by
  by_contra hdown
  have hright : ∀ x ∈ found, x.2 = x.1.verdict files env line.path :=
    fun x hx => (h.decided.2 x hx).resolve_right fun hup => hdown hup.1
  rw [reports_whole hset.functional hset.placed h.decided.1 hright,
    hset.functional.categories_uncut hset.placed line.path] at hcut
  cases hcut

/-- what is kept stays right if the categories of a file are added -/
theorem keep_kept {path : String} (h : m.run.workspace.KeptUnder p files env fun _ => false) :
    (m.keep path (p.categoriesOf files env path)).run.workspace.KeptUnder p files env fun _ => false :=
  ⟨⟨h.1.world, (h.1.categories.insertIfAbsent rfl).1, h.1.categoryNormalizers, h.1.nodeNormalizers⟩, h.2⟩

end

/-- **A step of a machine** leaves it sound. -/
theorem Step.sound (hset : Setting p files env s events) (h : Step p files env m m')
    (hm : m.Sound p files env s events) : m'.Sound p files env s events := by
  have hsound := hm
  obtain ⟨hkept, done, rest, hevents, hdone, hahead⟩ := hm
  cases h with
  | fire hdown => exact ⟨hkept, done, rest, hevents, hdone, hahead.fire⟩
  | read hinput => exact ⟨hkept, done, rest, hevents, hdone, hahead.produce (fun _ => hinput.carries) fun _ => id⟩
  | walk hwalk => exact ⟨hkept, done, rest, hevents, hdone, hahead.produce (fun _ => id) fun _ => hwalk.carries⟩
  | look hcontrol hdown =>
    obtain ⟨roots, lines, hinput, hwalk, -, rfl⟩ := hahead.of_running (by rw [hcontrol]; rfl)
    refine .of_running hkept hdone hinput hwalk trivial rfl ?_
    rw [hevents, hcontrol]
    rename_i loop
    cases loop <;> rfl
  | stop hcontrol hup => exact hsound.cancel hup
  | @takeRoot itemsLeft root queue hcontrol hitems =>
    obtain ⟨roots, lines, hinput, hwalk, -, rfl⟩ := hahead.of_running (by rw [hcontrol]; rfl)
    rw [hcontrol] at hevents
    rw [hitems] at hinput
    rcases hinput.take with ⟨more, rfl, hmore⟩ | ⟨hup, hcut⟩
    · exact onRoot_sound (m := { m with input := ⟨itemsLeft, queue⟩ }) hset hkept hdone hevents hmore hwalk
    · unfold onRoot
      rw [show root.error = some .cancelled from hcut]
      exact ⟨hkept, done, _, hevents, hdone, .cancelled rfl hup⟩
  | endRoots hcontrol hitems =>
    obtain ⟨roots, lines, hinput, -, -, rfl⟩ := hahead.of_running (by rw [hcontrol]; rfl)
    rw [hcontrol] at hevents
    rw [hitems] at hinput
    rw [hinput.closed] at hevents
    exact ⟨hkept, done, [], hevents, hdone, .finished rfl⟩
  | @takeLine root itemsLeft line queue hcontrol hitems =>
    obtain ⟨roots, lines, hinput, hwalk, -, rfl⟩ := hahead.of_running (by rw [hcontrol]; rfl)
    rw [hcontrol] at hevents
    rw [hitems] at hwalk
    rcases hwalk.take with ⟨more, rfl, hmore⟩ | ⟨hup, hcut⟩
    · exact onLine_sound (m := { m with walk := ⟨itemsLeft, queue⟩ }) hset hkept hdone hevents hinput hmore
    · unfold onLine
      rw [show line.error = some .cancelled from hcut]
      exact ⟨hkept, done, _, hevents, hdone, .cancelled rfl hup⟩
  | endLines hcontrol hitems =>
    obtain ⟨roots, lines, hinput, hwalk, -, rfl⟩ := hahead.of_running (by rw [hcontrol]; rfl)
    rw [hcontrol] at hevents
    have hclosed := hwalk
    rw [hitems] at hclosed
    rw [hclosed.closed] at hevents
    exact .of_running hkept hdone hinput hwalk trivial rfl hevents
  | reuse hcontrol hfound =>
    obtain ⟨roots, lines, hinput, hwalk, -, rfl⟩ := hahead.of_running (by rw [hcontrol]; rfl)
    rw [hcontrol] at hevents
    exact finish_sound hset hkept hdone hevents hinput hwalk
  | classify hcontrol hnew =>
    obtain ⟨roots, lines, hinput, hwalk, -, rfl⟩ := hahead.of_running (by rw [hcontrol]; rfl)
    rw [hcontrol] at hevents
    refine .of_running hkept hdone hinput hwalk ⟨by simp [Function.comp_def], fun x hx => ?_⟩ rfl hevents
    obtain ⟨rule, -, rfl⟩ := List.mem_map.1 hx
    trivial
  | rule hcontrol ht => exact rule_sound hset hcontrol ht hsound
  | abandon hcontrol hcut =>
    obtain ⟨roots, lines, -, -, hrules, -⟩ := hahead.of_running (by rw [hcontrol]; rfl)
    rw [hcontrol] at hrules
    exact hsound.cancel (hrules.cut hset hcut)
  | settle hcontrol hwhole =>
    obtain ⟨roots, lines, hinput, hwalk, hrules, rfl⟩ := hahead.of_running (by rw [hcontrol]; rfl)
    rw [hcontrol] at hrules hevents
    rw [hrules.whole hset hwhole]
    exact finish_sound hset (keep_kept hkept) ⟨hdone.noFail, hdone.output, hdone.summary⟩ hevents hinput hwalk

/-- **A machine is sound at any time.** -/
theorem Sound.of_reachable (hset : Setting p files env s events) (hm : m.Sound p files env s events)
    (h : Relation.ReflTransGen (Step p files env) m m') : m'.Sound p files env s events := by
  induction h with
  | refl => exact hm
  | tail _ hstep ih => exact hstep.sound hset ih

end Machine

/-! ## Cancellation -/

/-- a run has done no harm: the records written are the first of some records, what is kept is right, and a run after it
whose token does not fire does what it does on a fresh pipeline -/
structure Unharmed (p : Pipeline) (files : FileNode) (env : Environment) (records : List Record) (s : RunState) :
    Prop where
  written : ∃ front, front <+: records ∧ s.output.text = String.join (front.map Record.row)
  kept : s.workspace.Kept p files env
  later : ∀ input,
    let again := (p.run input).run { workspace := s.workspace.under fun _ => false }
    let fresh := (p.run input).run { workspace := { world := World.fresh files env } }
    again.1 = fresh.1 ∧ again.2.output.text = fresh.2.output.text

theorem recordsOf_prefix {xs ys : List Event} (h : xs <+: ys) : recordsOf xs <+: recordsOf ys := by
  obtain ⟨rest, rfl⟩ := h
  exact ⟨recordsOf rest, by simp [recordsOf]⟩

theorem Unharmed.of_did (h : p.Functional files env) (hplaced : p.Placed) {events done : List Event} {s s' : RunState}
    (hs : s.output = {}) (hdone : Did done s s') (hfront : done <+: events) (hkept : s'.workspace.Kept p files env) :
    Unharmed p files env (recordsOf events) s' where
  written := ⟨recordsOf done, recordsOf_prefix hfront, by
    rw [hdone.text, hs]
    exact String.empty_append⟩
  kept := hkept
  later := fun input => Pipeline.run_agrees h hplaced hkept Workspace.kept_fresh input

/-- a run that succeeds on a fresh pipeline has done its whole enumeration, in which nothing fails -/
theorem Pipeline.whole_of_succeeds (h : p.Functional files env) (hplaced : p.Placed) {input : Source}
    {summary : Summary}
    (hsucceeds : ((p.run input).run { workspace := { world := World.fresh files env } }).1 = .ok summary) :
    (∀ e ∈ p.enumeration files env input, e.isFail = false) ∧
      summary = (p.enumeration files env input).foldl Event.tally {} ∧
      ((p.run input).run { workspace := { world := World.fresh files env } }).2.output.text =
        String.join ((recordsOf (p.enumeration files env input)).map Record.row) := by
  obtain ⟨done, hdone, hends⟩ := (run_played h hplaced input
    (s := { workspace := { world := World.fresh files env } }) ⟨Workspace.kept_fresh, rfl⟩).2 nofun
  rw [hsucceeds] at hends
  have hsummary := hdone.summary
  have htext := hdone.text.trans String.empty_append
  generalize ((p.run input).run { workspace := { world := World.fresh files env } }).2.summary = counted at *
  cases hends with
  | finished hall =>
    subst hall
    exact ⟨hdone.noFail, hsummary, htext⟩

/-- a machine that is done has succeeded with everything, or it was cancelled -/
theorem Machine.Sound.done {s : RunState} {events : List Event} {m : Machine} (h : m.Sound p files env s events)
    {r : Except RunError Summary} (hr : m.control = .done r) :
    r = .ok (events.foldl Event.tally s.summary) ∧
        m.run.output.text = s.output.text ++ String.join ((recordsOf events).map Record.row) ∨
      r = .error .cancelled ∧ m.fired = true := by
  obtain ⟨-, done, rest, rfl, hdone, hahead⟩ := h
  cases hahead with
  | running _ _ _ hrunning =>
    rw [hr] at hrunning
    cases hrunning
  | finished hcontrol =>
    cases hr.symm.trans hcontrol
    rw [List.append_nil]
    exact .inl ⟨congrArg Except.ok hdone.summary, hdone.text⟩
  | cancelled hcontrol hup =>
    cases hr.symm.trans hcontrol
    exact .inr ⟨rfl, hup⟩

end

/-- **Cancellation is safe at any moment.** Let a pipeline be built from a configuration, with stages that are functions
of their candidates, let it be fresh or have served any runs, and let a run for an input succeed if nothing cancels it.
- However the reader of the input, the walk, the readers of the category rules and the loop take turns, and whenever
  the token fires, the run goes on until it is done, and it does not go on forever. It has done no harm at any moment,
  and when it is done, it has succeeded with the whole output or it was cancelled because the token had fired.
- The same holds of the run whose parts do their work one after the other, under any signal. -/
theorem Pipeline.cancellation_safe {files : FileNode} {env : Environment} {c : Config} {built : Pipeline}
    (hbuild : Pipeline.build env c = .ok built) (categoryOnly : Bool)
    (hfunctional : { built with categoryOnly := categoryOnly }.Functional files env)
    {ws : Workspace} (hserved : { built with categoryOnly := categoryOnly }.Served files env ws) (input : Source)
    {summary : Summary}
    (hsucceeds : (({ built with categoryOnly := categoryOnly }.run input).run
      { workspace := { world := World.fresh files env } }).1 = .ok summary) :
    let p : Pipeline := { built with categoryOnly := categoryOnly }
    let whole := ((p.run input).run { workspace := { world := World.fresh files env } }).2.output.text
    let records := recordsOf (p.enumeration files env input)
    whole = String.join (records.map Record.row) ∧
      WellFounded (fun m' m => Machine.Step p files env m m') ∧
      (∀ m, (∃ r, m.control = .done r) ∨ ∃ m', Machine.Step p files env m m' ∧ m'.fired = m.fired) ∧
      (∀ m, Relation.ReflTransGen (Machine.Step p files env) (Machine.start ws input) m →
        Unharmed p files env records m.run ∧
          ∀ r, m.control = .done r →
            r = .ok summary ∧ m.run.output.text = whole ∨ r = .error .cancelled ∧ m.fired = true) ∧
      ∀ fires : Nat → Bool,
        let r := (p.run input).run { workspace := ws.under fires }
        Unharmed p files env records r.2 ∧
          (r.1 = .ok summary ∧ r.2.output.text = whole ∨ r.1 = .error .cancelled ∧ ∃ n, fires n = true) := by
  intro p whole records
  have hplaced : p.Placed := build_placed hbuild categoryOnly
  have hws : ws.Kept p files env := Served.kept hfunctional hplaced hserved
  obtain ⟨hgood, hsummary, hwhole⟩ := whole_of_succeeds hfunctional hplaced hsucceeds
  have hset : Machine.Setting p files env (Machine.start ws input).run (p.enumeration files env input) :=
    ⟨hfunctional, hplaced, rfl, hgood⟩
  refine ⟨hwhole, Machine.step_wellFounded p files env, Machine.exists_step p files env, fun m hm => ?_,
    fun fires => ?_⟩
  · have hsound := (Machine.sound_start hws input).of_reachable hset hm
    obtain ⟨done, rest, hevents, hdone, -⟩ := hsound.ahead
    refine ⟨Unharmed.of_did hfunctional hplaced rfl hdone ⟨rest, hevents.symm⟩ hsound.kept.1, fun r hr => ?_⟩
    rcases hsound.done hr with ⟨hok, htext⟩ | hcancelled
    · exact .inl ⟨hok.trans (congrArg Except.ok hsummary.symm),
        htext.trans (String.empty_append.trans hwhole.symm)⟩
    · exact .inr hcancelled
  · obtain ⟨hkept, hdid⟩ :=
      run_played hfunctional hplaced input (s := { workspace := ws.under fires }) (hws.under fires)
    obtain ⟨done, hdone, hends⟩ := hdid nofun
    rcases hends.of_noFail hgood with ⟨hr, rfl⟩ | ⟨hr, hrises, hfront⟩
    · refine ⟨Unharmed.of_did hfunctional hplaced rfl hdone (List.prefix_refl _) hkept.1, .inl ⟨hr.trans ?_, ?_⟩⟩
      · exact congrArg Except.ok (hdone.summary.trans hsummary.symm)
      · exact hdone.text.trans (String.empty_append.trans hwhole.symm)
    · exact ⟨Unharmed.of_did hfunctional hplaced rfl hdone hfront hkept.1, .inr ⟨hr, hrises⟩⟩

/-- the token fires before the first look, or the signal goes up as a category rule reads the file -/
theorem Pipeline.cancellation_safe_small :
    (∃ m, Relation.ReflTransGen (Machine.Step smallPipeline smallTree ⟨[]⟩)
        (Machine.start { world := World.fresh smallTree ⟨[]⟩ } smallInput) m ∧
      m.control = .done (.error .cancelled) ∧
      Unharmed smallPipeline smallTree ⟨[]⟩
        (recordsOf (smallPipeline.enumeration smallTree ⟨[]⟩ smallInput)) m.run) ∧
      let r := (smallPipeline.run smallInput).run
        { workspace := { world := { files := smallTree, signal := fun n => decide (8 ≤ n) } } }
      r.1 = .error .cancelled ∧
        Unharmed smallPipeline smallTree ⟨[]⟩
          (recordsOf (smallPipeline.enumeration smallTree ⟨[]⟩ smallInput)) r.2 := by
  have hsucceeds : ((smallPipeline.run smallInput).run { workspace := { world := World.fresh smallTree ⟨[]⟩ } }).1 =
      .ok ⟨1, 1, 1⟩ := by
    decide +kernel
  have hsafe := cancellation_safe smallPipeline_built false smallPipeline_functional .fresh smallInput hsucceeds
  have hstopped : Relation.ReflTransGen (Machine.Step smallPipeline smallTree ⟨[]⟩)
      (Machine.start { world := World.fresh smallTree ⟨[]⟩ } smallInput) _ :=
    .tail (.single (.fire rfl)) (.stop rfl rfl)
  exact ⟨⟨_, hstopped, rfl, (hsafe.2.2.2.1 _ hstopped).1⟩, by decide +kernel,
    (hsafe.2.2.2.2 fun n => decide (8 ≤ n)).1⟩

end Gleaner
