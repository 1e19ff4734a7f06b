/-
Runs whose parts work beside each other.

A run has an input that is read, a walk through the tree below a path, a reader for each category rule that looks at
lines, and the loop that receives from all of them, and a token that may fire at any time. `Machine.Step` lets any of
them do its next step: the reader and the walk put items into channels, the loop looks at the token and then receives
an item, and behind a line of a walk the rules do their steps in any order until all have decided. If one of them was
cut short, the run ends; otherwise the categories are kept and the records of the line are written. A look at the token
and the item received behind it are two steps, so the token may fire in between.

The walk asks the ignore chain in a world of its own (`Tour.moves`). All other stages run in the one world, whose signal
stays down: the token takes its place.

Results:
- `exists_step`: a machine goes on until it is done;
- `step_wellFounded`: it does not go on forever, however its parts take turns.
-/
import Gleaner.Proofs.Runs
import Gleaner.Proofs.Channels

namespace Gleaner

/-! ## Category rules -/

/-- how far a category rule has come with a file -/
inductive Task where
  | pending
  /-- receives the lines of the file -/
  | scanning (reader : Channel ReadLine)
  | decided (r : MatchResult)

namespace Task

/-- what a rule does with the result for a line -/
def heard (line : ReadLine) (reader : Channel ReadLine) : MatchResult → Task
  | .ok found => .decided (.ok found)
  | .error e =>
    if e.isUnmatched then .scanning reader else .decided (.error (e.within ("line " ++ toString line.number)))

/-- a step of a rule for the file at a path -/
inductive Steps (rule : CategorySelector) (path : String) (fired : Bool) : Task → World → Task → World → Prop where
  | name {w : World} (hmode : rule.mode = .filename) :
      Steps rule path fired .pending w (.decided (rule.chain.run path w).1) (rule.chain.run path w).2
  | refuse {w : World} {e : IoError} (hmode : rule.mode = .text) (hopen : w.files.openFile path = .error e) :
      Steps rule path fired .pending w (.decided (.error (.unmatched ("cannot open: " ++ e.message))))
        (Act.warn ("cannot open " ++ path ++ ": " ++ e.message) w).2
  | start {w : World} {source : Source} (hmode : rule.mode = .text) (hopen : w.files.openFile path = .ok source) :
      Steps rule path fired .pending w (.scanning ⟨source.moves, []⟩) w
  | read {w : World} {reader reader' : Channel ReadLine} (h : reader.Produces fired reader') :
      Steps rule path fired (.scanning reader) w (.scanning reader') w
  | fail {w : World} {rest : List (Move ReadLine)} {line : ReadLine} {queue : List ReadLine} {e : StreamError}
      (h : line.error = some e) :
      Steps rule path fired (.scanning ⟨rest, line :: queue⟩) w (.decided (.error (.stream e))) w
  | apply {w : World} {rest : List (Move ReadLine)} {line : ReadLine} {queue : List ReadLine}
      (h : line.error = none) :
      Steps rule path fired (.scanning ⟨rest, line :: queue⟩) w
        (heard line ⟨rest, queue⟩ (rule.chain.run line.text w).1) (rule.chain.run line.text w).2
  | exhaust {w : World} :
      Steps rule path fired (.scanning {}) w (.decided (.error (.unmatched "no line matched"))) w

end Task

/-- the entry of a rule that has decided, with the places around it -/
def CategorySelector.report (s : CategorySelector) (path : String) (r : MatchResult) : MatchResult :=
  let what := match s.mode with
    | .filename => "file category "
    | .text => "text category "
  Selection.located [what ++ path, labelled "category" s.name] r

/-- the entries of rules that have decided -/
def reports (path : String) (found : List (CategorySelector × MatchResult)) : List Selection :=
  Selection.gather (fun x => x.1.name) (fun x => x.1.report path x.2) 0 found

/-! ## Machines -/

/-- the loops of a run -/
inductive Loop where
  | roots
  | lines (root : ReadLine)

/-- where the run is -/
inductive Control where
  /-- at the next item of a loop, before or behind the look at the token -/
  | next (loop : Loop) (looked : Bool)
  | line (root : ReadLine) (line : FileLine)
  | rules (root : ReadLine) (line : FileLine) (tasks : List (CategorySelector × Task))
  | done (r : Except RunError Summary)

structure Machine where
  /-- whether the token has fired -/
  fired : Bool := false
  run : RunState
  input : Channel ReadLine
  walk : Channel FileLine := {}
  control : Control := .next .roots false

namespace Machine

/-- the machine of a run -/
def start (ws : Workspace) (input : Source) : Machine where
  run := { workspace := ws.under fun _ => false }
  input := ⟨input.moves, []⟩

/-- a line of the input has been received -/
def onRoot (p : Pipeline) (files : FileNode) (env : Environment) (m : Machine) (root : ReadLine) : Machine :=
  match root.error with
  | some e => { m with control := .done (.error (.ofStream ("input line " ++ toString root.number) e)) }
  | none =>
    if Text.isBlank root.text then { m with control := .next .roots false }
    else { m with
      run := { m.run with summary := Event.tally m.run.summary .root }
      walk := ⟨Tour.moves ⟨root.text, files, p.ignore.value files env⟩, []⟩
      control := .next (.lines root) false }

/-- a line of a walk has been received -/
def onLine (m : Machine) (root : ReadLine) (line : FileLine) : Machine :=
  match line.error with
  | some e => { m with control := .done (.error (.ofStream line.render e)) }
  | none => { m with
      run := { m.run with summary := Event.tally m.run.summary .line }
      control := .line root line }

/-- writes the records of a line whose categories are kept -/
def finish (p : Pipeline) (m : Machine) (root : ReadLine) (line : FileLine) : Machine where
  fired := m.fired
  run := ((p.processLine root line).run m.run).2
  input := m.input
  walk := m.walk
  control := match ((p.processLine root line).run m.run).1 with
    | .ok _ => .next (.lines root) false
    | .error e => .done (.error e)

/-- the machine in another world -/
def inWorld (m : Machine) (w : World) : Machine :=
  { m with run := { m.run with workspace := { m.run.workspace with world := w } } }

/-- keeps the categories of a path -/
def keep (m : Machine) (path : String) (found : List Selection) : Machine :=
  { m with
    run := { m.run with
      workspace := { m.run.workspace with
        categories := (m.run.workspace.categories.insertIfAbsent path found).1 } } }

/-- a step of any part of a run -/
inductive Step (p : Pipeline) (files : FileNode) (env : Environment) : Machine → Machine → Prop where
  /-- the token fires -/
  | fire {m : Machine} (h : m.fired = false) : Step p files env m { m with fired := true }
  | read {m : Machine} {input : Channel ReadLine} (h : m.input.Produces m.fired input) :
      Step p files env m { m with input := input }
  | walk {m : Machine} {walk : Channel FileLine} (h : m.walk.Produces m.fired walk) :
      Step p files env m { m with walk := walk }
  | look {m : Machine} {loop : Loop} (h : m.control = .next loop false) (hdown : m.fired = false) :
      Step p files env m { m with control := .next loop true }
  | stop {m : Machine} {loop : Loop} {looked : Bool} (h : m.control = .next loop looked) (hup : m.fired = true) :
      Step p files env m { m with control := .done (.error .cancelled) }
  | takeRoot {m : Machine} {rest : List (Move ReadLine)} {root : ReadLine} {queue : List ReadLine}
      (h : m.control = .next .roots true) (hinput : m.input = ⟨rest, root :: queue⟩) :
      Step p files env m (onRoot p files env { m with input := ⟨rest, queue⟩ } root)
  | endRoots {m : Machine} (h : m.control = .next .roots true) (hinput : m.input = {}) :
      Step p files env m { m with control := .done (.ok m.run.summary) }
  | takeLine {m : Machine} {root : ReadLine} {rest : List (Move FileLine)} {line : FileLine} {queue : List FileLine}
      (h : m.control = .next (.lines root) true) (hwalk : m.walk = ⟨rest, line :: queue⟩) :
      Step p files env m (onLine { m with walk := ⟨rest, queue⟩ } root line)
  | endLines {m : Machine} {root : ReadLine} (h : m.control = .next (.lines root) true) (hwalk : m.walk = {}) :
      Step p files env m { m with control := .next .roots false }
  /-- the categories of the file are kept already -/
  | reuse {m : Machine} {root : ReadLine} {line : FileLine} {found : List Selection}
      (h : m.control = .line root line) (hkept : m.run.workspace.categories.get? line.path = some found) :
      Step p files env m (finish p m root line)
  | classify {m : Machine} {root : ReadLine} {line : FileLine} (h : m.control = .line root line)
      (hnew : m.run.workspace.categories.get? line.path = none) :
      Step p files env m { m with control := .rules root line (p.categories.map fun rule => (rule, .pending)) }
  | rule {m : Machine} {root : ReadLine} {line : FileLine} {before after : List (CategorySelector × Task)}
      {rule : CategorySelector} {t t' : Task} {w : World}
      (h : m.control = .rules root line (before ++ (rule, t) :: after))
      (ht : t.Steps rule line.path m.fired m.run.workspace.world t' w) :
      Step p files env m { m.inWorld w with control := .rules root line (before ++ (rule, t') :: after) }
  /-- a rule was cut short -/
  | abandon {m : Machine} {root : ReadLine} {line : FileLine} {found : List (CategorySelector × MatchResult)}
      (h : m.control = .rules root line (found.map fun x => (x.1, .decided x.2)))
      (hcut : (reports line.path found).any Selection.isCancelled = true) :
      Step p files env m { m with control := .done (.error .cancelled) }
  | settle {m : Machine} {root : ReadLine} {line : FileLine} {found : List (CategorySelector × MatchResult)}
      (h : m.control = .rules root line (found.map fun x => (x.1, .decided x.2)))
      (hwhole : (reports line.path found).any Selection.isCancelled = false) :
      Step p files env m (finish p (m.keep line.path (reports line.path found)) root line)

end Machine

/-! ## Machines go on -/

/-- a rule that has not decided can do a step -/
theorem Task.exists_steps (rule : CategorySelector) (path : String) (fired : Bool) (w : World) {t : Task}
    (h : ∀ r, t ≠ .decided r) : ∃ t' w', t.Steps rule path fired w t' w' := by
  cases t with
  | pending =>
    cases hmode : rule.mode with
    | filename => exact ⟨_, _, .name hmode⟩
    | text =>
      cases hopen : w.files.openFile path with
      | error e => exact ⟨_, _, .refuse hmode hopen⟩
      | ok source => exact ⟨_, _, .start hmode hopen⟩
  | scanning reader =>
    rcases reader.exists_produces fired with ⟨line, queue, hqueue⟩ | rfl | ⟨reader', hreader⟩
    · obtain ⟨rest, _⟩ := reader
      cases hqueue
      cases herror : line.error with
      | some e => exact ⟨_, _, .fail herror⟩
      | none => exact ⟨_, _, .apply herror⟩
    · exact ⟨_, _, .exhaust⟩
    · exact ⟨_, _, .read hreader⟩
  | decided r => exact absurd rfl (h r)

/-- all rules have decided, or there is one that has not -/
theorem exists_undecided (tasks : List (CategorySelector × Task)) :
    (∃ found : List (CategorySelector × MatchResult), tasks = found.map fun x => (x.1, .decided x.2)) ∨
      ∃ before rule t after, tasks = before ++ (rule, t) :: after ∧ ∀ r, t ≠ .decided r := by
  induction tasks with
  | nil => exact .inl ⟨[], rfl⟩
  | cons x rest ih =>
    obtain ⟨rule, t⟩ := x
    cases t with
    | decided r =>
      rcases ih with ⟨found, rfl⟩ | ⟨before, other, t, after, rfl, ht⟩
      · exact .inl ⟨(rule, r) :: found, rfl⟩
      · exact .inr ⟨(rule, .decided r) :: before, other, t, after, rfl, ht⟩
    | pending => exact .inr ⟨[], rule, .pending, rest, rfl, nofun⟩
    | scanning reader => exact .inr ⟨[], rule, .scanning reader, rest, rfl, nofun⟩

namespace Machine

variable {p : Pipeline} {files : FileNode} {env : Environment}

theorem onRoot_fired (m : Machine) (root : ReadLine) : (onRoot p files env m root).fired = m.fired := by
  unfold onRoot
  split
  · rfl
  · split <;> rfl

theorem onLine_fired (m : Machine) (root : ReadLine) (line : FileLine) : (onLine m root line).fired = m.fired := by
  unfold onLine
  split <;> rfl

/-- **A machine goes on until it is done**, whether or not the token fires. -/
theorem exists_step (p : Pipeline) (files : FileNode) (env : Environment) (m : Machine) :
    (∃ r, m.control = .done r) ∨ ∃ m', Step p files env m m' ∧ m'.fired = m.fired := by
  cases hcontrol : m.control with
  | next loop looked =>
    refine .inr ?_
    cases hfired : m.fired with
    | true => exact ⟨_, .stop hcontrol hfired, hfired⟩
    | false =>
      rw [← hfired]
      cases looked with
      | false => exact ⟨_, .look hcontrol hfired, rfl⟩
      | true =>
        cases loop with
        | roots =>
          rcases m.input.exists_produces m.fired with ⟨root, queue, hqueue⟩ | hend | ⟨input, hinput⟩
          · have hinput : m.input = ⟨m.input.rest, root :: queue⟩ := by rw [← hqueue]
            exact ⟨_, .takeRoot hcontrol hinput, onRoot_fired _ _⟩
          · exact ⟨_, .endRoots hcontrol hend, rfl⟩
          · exact ⟨_, .read hinput, rfl⟩
        | lines root =>
          rcases m.walk.exists_produces m.fired with ⟨line, queue, hqueue⟩ | hend | ⟨walk, hwalk⟩
          · have hwalk : m.walk = ⟨m.walk.rest, line :: queue⟩ := by rw [← hqueue]
            exact ⟨_, .takeLine hcontrol hwalk, onLine_fired _ _ _⟩
          · exact ⟨_, .endLines hcontrol hend, rfl⟩
          · exact ⟨_, .walk hwalk, rfl⟩
  | line root line =>
    refine .inr ?_
    cases hkept : m.run.workspace.categories.get? line.path with
    | some found => exact ⟨_, .reuse hcontrol hkept, rfl⟩
    | none => exact ⟨_, .classify hcontrol hkept, rfl⟩
  | rules root line tasks =>
    refine .inr ?_
    rcases exists_undecided tasks with ⟨found, rfl⟩ | ⟨before, rule, t, after, rfl, ht⟩
    · cases hcut : (reports line.path found).any Selection.isCancelled with
      | true => exact ⟨_, .abandon hcontrol hcut, rfl⟩
      | false => exact ⟨_, .settle hcontrol hcut, rfl⟩
    · obtain ⟨t', w, hstep⟩ := Task.exists_steps rule line.path m.fired m.run.workspace.world ht
      exact ⟨_, .rule hcontrol hstep, rfl⟩
  | done r => exact .inl ⟨r, rfl⟩

end Machine

/-! ## Machines come to their end -/

namespace Task

def isPending : Task → Bool
  | .pending => true
  | _ => false

/-- how many steps a rule that has begun takes at most -/
def weight : Task → Nat
  | .scanning reader => 1 + reader.weight
  | _ => 0

/-- a step begins with a file, or goes on with it -/
theorem Steps.weight_lt {rule : CategorySelector} {path : String} {fired : Bool} {t t' : Task} {w w' : World}
    (h : t.Steps rule path fired w t' w') :
    t.isPending = true ∧ t'.isPending = false ∨
      t.isPending = false ∧ t'.isPending = false ∧ t'.weight < t.weight := by
  cases h with
  | name => exact .inl ⟨rfl, rfl⟩
  | refuse => exact .inl ⟨rfl, rfl⟩
  | start => exact .inl ⟨rfl, rfl⟩
  | read h => exact .inr ⟨rfl, rfl, Nat.add_lt_add_left h.weight_lt 1⟩
  | fail => exact .inr ⟨rfl, rfl, Nat.lt_of_lt_of_le Nat.zero_lt_one (Nat.le_add_right _ _)⟩
  | @apply w rest line queue _ =>
    refine .inr ⟨rfl, ?_⟩
    have hpositive : 0 < weight (.scanning ⟨rest, line :: queue⟩) :=
      Nat.lt_of_lt_of_le Nat.zero_lt_one (Nat.le_add_right _ _)
    unfold heard
    split
    · exact ⟨rfl, hpositive⟩
    · split
      · exact ⟨rfl, Nat.add_lt_add_left Channel.weight_take 1⟩
      · exact ⟨rfl, hpositive⟩
  | exhaust => exact .inr ⟨rfl, rfl, Nat.lt_of_lt_of_le Nat.zero_lt_one (Nat.le_add_right _ _)⟩

end Task

namespace Control

/-- how far a line is from its end -/
def phase : Control → Nat
  | .next .roots looked => if looked then 0 else 1
  | .next (.lines _) looked => if looked then 2 else 3
  | .rules _ _ _ => 4
  | .line _ _ => 5
  | .done _ => 0

def isDone : Control → Bool
  | .done _ => true
  | _ => false

/-- the rules that have not begun, and what those that have take at most -/
def tasksWeight : Control → Nat ×ₗ Nat
  | .rules _ _ tasks => toLex (tasks.countP fun x => x.2.isPending, (tasks.map fun x => x.2.weight).sum)
  | _ => toLex (0, 0)

end Control

namespace Machine

variable {p : Pipeline} {files : FileNode} {env : Environment}

/-- what every step lowers: whether the token can fire and the run is not done, what the channels have left, and how far
the line at hand has come -/
def rank (m : Machine) : Nat ×ₗ Nat ×ₗ Nat ×ₗ Nat ×ₗ Nat ×ₗ (Nat ×ₗ Nat) :=
  toLex (if m.fired then 0 else 1, toLex (if m.control.isDone then 0 else 1, toLex (m.input.weight,
    toLex (m.walk.weight, toLex (m.control.phase, m.control.tasksWeight)))))

/-- the rank of a machine that is done, or nearer to the end of a line -/
theorem rank_lt_of_phase {m m' : Machine} (hfired : m'.fired = m.fired) (hinput : m'.input = m.input)
    (hwalk : m'.walk = m.walk) (hrunning : m.control.isDone = false)
    (hphase : m'.control.isDone = true ∨ m'.control.isDone = false ∧ m'.control.phase < m.control.phase) :
    m'.rank < m.rank := by
  simp only [rank, Prod.Lex.toLex_lt_toLex, hfired, hinput, hwalk, hrunning]
  rcases hphase with hdone | ⟨hgoes, hnext⟩
  · simp [hdone]
  · simp [hgoes, hnext]

/-- behind a line, a machine is done or at the next one -/
theorem finish_phase (p : Pipeline) (m : Machine) (root : ReadLine) (line : FileLine) :
    (finish p m root line).control.isDone = true ∨
      (finish p m root line).control.isDone = false ∧ (finish p m root line).control.phase = 3 := by
  unfold finish
  cases ((p.processLine root line).run m.run).1 with
  | ok _ => exact .inr ⟨rfl, rfl⟩
  | error e => exact .inl rfl

/-- **Every step lowers the rank.** -/
theorem rank_lt {m m' : Machine} (h : Step p files env m m') : m'.rank < m.rank := by
  cases h with
  | fire hdown => simp [rank, Prod.Lex.toLex_lt_toLex, hdown]
  | read hinput => simp [rank, Prod.Lex.toLex_lt_toLex, hinput.weight_lt]
  | walk hwalk => simp [rank, Prod.Lex.toLex_lt_toLex, hwalk.weight_lt]
  | @look loop hcontrol hdown =>
    refine rank_lt_of_phase rfl rfl rfl (by rw [hcontrol]; rfl) (.inr ⟨rfl, ?_⟩)
    cases loop <;> simp [hcontrol, Control.phase]
  | stop hcontrol hup => exact rank_lt_of_phase rfl rfl rfl (by rw [hcontrol]; rfl) (.inl rfl)
  | takeRoot hcontrol hinput =>
    unfold onRoot
    split
    · simp [rank, Prod.Lex.toLex_lt_toLex, hcontrol, Control.isDone]
    · split <;> simp [rank, Prod.Lex.toLex_lt_toLex, hcontrol, hinput, Control.isDone, Channel.weight_take]
  | endRoots hcontrol hinput => exact rank_lt_of_phase rfl rfl rfl (by rw [hcontrol]; rfl) (.inl rfl)
  | takeLine hcontrol hwalk =>
    unfold onLine
    split <;> simp [rank, Prod.Lex.toLex_lt_toLex, hcontrol, hwalk, Control.isDone, Channel.weight_take]
  | endLines hcontrol hwalk =>
    exact rank_lt_of_phase rfl rfl rfl (by rw [hcontrol]; rfl) (.inr ⟨rfl, by rw [hcontrol]; exact Nat.lt_succ_self 1⟩)
  | @reuse root line found hcontrol hkept =>
    have hphase : m.control.phase = 5 := by rw [hcontrol]; rfl
    refine rank_lt_of_phase rfl rfl rfl (by rw [hcontrol]; rfl) ((finish_phase p m root line).imp_right fun h => ?_)
    exact ⟨h.1, by rw [h.2, hphase]; decide⟩
  | classify hcontrol hnew =>
    exact rank_lt_of_phase rfl rfl rfl (by rw [hcontrol]; rfl) (.inr ⟨rfl, by rw [hcontrol]; exact Nat.lt_succ_self 4⟩)
  | @rule root line before after rule t t' w hcontrol ht =>
    have htasks : (Control.rules root line (before ++ (rule, t') :: after)).tasksWeight <
        (Control.rules root line (before ++ (rule, t) :: after)).tasksWeight := by
      simp only [Control.tasksWeight, Prod.Lex.toLex_lt_toLex, List.countP_append, List.countP_cons, List.map_append,
        List.map_cons, List.sum_append, List.sum_cons]
      rcases ht.weight_lt with ⟨hbefore, hafter⟩ | ⟨hbefore, hafter, hweight⟩
      · simp [hbefore, hafter]
      · simp [hbefore, hafter, hweight]
    simp [rank, Prod.Lex.toLex_lt_toLex, hcontrol, Control.isDone, Control.phase, inWorld, htasks]
  | abandon hcontrol hcut => exact rank_lt_of_phase rfl rfl rfl (by rw [hcontrol]; rfl) (.inl rfl)
  | @settle root line found hcontrol hwhole =>
    have hphase : m.control.phase = 4 := by rw [hcontrol]; rfl
    refine rank_lt_of_phase rfl rfl rfl (by rw [hcontrol]; rfl)
      ((finish_phase p (m.keep line.path (reports line.path found)) root line).imp_right fun h => ?_)
    exact ⟨h.1, by rw [h.2, hphase]; decide⟩

/-- **No machine goes on forever**, however its parts take turns. -/
theorem step_wellFounded (p : Pipeline) (files : FileNode) (env : Environment) :
    WellFounded fun m' m => Step p files env m m' :=
  Subrelation.wf rank_lt (InvImage.wf rank wellFounded_lt)

end Machine

end Gleaner
