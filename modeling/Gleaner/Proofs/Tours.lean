/-
Walks as producers.

If the ignore chain answers by the path alone and leaves the files as they are, a walk looks at the signal before every
entry and every line and emits lines in between: it is a producer (`Move`). `Tour.moves` are its moves, found from the
files and the answers of the chain.

`Tour.Guides` says that in the worlds of an invariant the chain gives the answers of the tour. There the walk gives what
its moves give, whatever the signal does (`survey_follows`).
-/
import Gleaner.Proofs.Candidates
import Gleaner.Proofs.Producers
import Gleaner.Proofs.Visits

namespace Gleaner

/-- a root, the files and the answers of an ignore chain to paths -/
structure Tour where
  root : String
  files : FileNode
  verdict : String → MatchResult

/-- the item shows that the signal was up -/
def FileLine.IsCut (l : FileLine) : Prop := l.error = some .cancelled

namespace Tour

/-! ## Moves -/

/-- what the walk ends with if the signal is up at an entry -/
def stopped (t : Tour) : FileLine := { path := t.root, error := some .cancelled }

/-- what the walk ends with if the ignore chain fails on a path -/
def failed (path : String) (e : MatchError) : FileLine := { path := path, error := some (.ignore path e.message) }

/-- the moves of reading a node under a path, if it is a file that can be opened -/
def readMoves (path : String) (n : FileNode) : List (Move FileLine) :=
  match n.isRegular, n.source with
  | true, .ok source => source.moves.map (Move.map (FileLine.ofReadLine path))
  | _, _ => []

/-- the moves of reading the file at a path, if there is one -/
def fileMoves (t : Tour) (path : String) : List (Move FileLine) :=
  match t.files.lookup path with
  | .ok n => readMoves path n
  | .error _ => []

/-- the moves at an entry and below it -/
def entryMoves (t : Tour) (path : String) (prunes : Bool) (below : List (Move FileLine)) : List (Move FileLine) :=
  .look t.stopped ::
    match t.verdict path with
    | .ok _ => if prunes then [] else below
    | .error e => if e.isUnmatched then t.fileMoves path ++ below else [.close (failed path e)]

mutual
/-- the moves of a walk from a node -/
def nodeMoves (t : Tour) (path : String) : FileNode → List (Move FileLine)
  | .dir entries => t.entryMoves path true (entriesMoves t path entries)
  | _ => t.entryMoves path true []

/-- the moves of a walk through entries of a directory -/
def entriesMoves (t : Tour) (dir : String) : List (String × FileNode) → List (Move FileLine)
  | [] => []
  | (name, n) :: rest => nodeMoves t (joinPath dir name) n ++ entriesMoves t dir rest
end

/-- the moves of the whole walk -/
def moves (t : Tour) : List (Move FileLine) :=
  match t.files.lookupEntry t.root, t.files.lookup t.root with
  | .ok (.link _), .ok (.dir entries) => t.entryMoves t.root false (t.entriesMoves t.root (arrangedEntries entries))
  | .ok (.link _), .error _ => [.look t.stopped]
  | .ok n, _ => t.nodeMoves t.root n.arranged
  | .error _, _ => [.look t.stopped]

/-! ## The looks of a walk -/

theorem fileMoves_heeds (t : Tour) (path : String) : Move.Heeds FileLine.IsCut (t.fileMoves path) := by
  intro last h
  unfold fileMoves readMoves at h
  split at h
  · split at h
    · obtain ⟨m, hm, hmap⟩ := List.mem_map.1 h
      cases m with
      | look line =>
        cases hmap
        exact readFrom_heeds _ _ _ line hm
      | emit line => cases hmap
      | close line => cases hmap
    · exact absurd h List.not_mem_nil
  · exact absurd h List.not_mem_nil

theorem entryMoves_heeds (t : Tour) (path : String) (prunes : Bool) {below : List (Move FileLine)}
    (hbelow : Move.Heeds FileLine.IsCut below) : Move.Heeds FileLine.IsCut (t.entryMoves path prunes below) := by
  intro last h
  unfold entryMoves at h
  rcases List.mem_cons.1 h with h | h
  · cases h
    rfl
  · split at h
    · split at h
      · exact absurd h List.not_mem_nil
      · exact hbelow last h
    · split at h
      · exact (t.fileMoves_heeds path).append hbelow last h
      · cases List.mem_singleton.1 h

mutual
theorem nodeMoves_heeds (t : Tour) (path : String) (n : FileNode) : Move.Heeds FileLine.IsCut (t.nodeMoves path n) := by
  cases n with
  | dir entries => exact t.entryMoves_heeds path true (entriesMoves_heeds t path entries)
  | file content => exact t.entryMoves_heeds path true fun _ h => absurd h List.not_mem_nil
  | link target => exact t.entryMoves_heeds path true fun _ h => absurd h List.not_mem_nil

theorem entriesMoves_heeds (t : Tour) (dir : String) (entries : List (String × FileNode)) :
    Move.Heeds FileLine.IsCut (t.entriesMoves dir entries) := by
  cases entries with
  | nil => exact fun _ h => absurd h List.not_mem_nil
  | cons e rest => exact (nodeMoves_heeds t _ e.2).append (entriesMoves_heeds t dir rest)
end

/-- **The looks of a walk** end it with an item that shows the signal. -/
theorem moves_heeds (t : Tour) : Move.Heeds FileLine.IsCut t.moves := by
  have hlook : Move.Heeds FileLine.IsCut [Move.look t.stopped] := by
    intro last h
    cases List.mem_singleton.1 h
    rfl
  unfold moves
  split
  · exact t.entryMoves_heeds _ _ (t.entriesMoves_heeds _ _)
  · exact hlook
  · exact t.nodeMoves_heeds _ _
  · exact hlook

/-! ## What moves give and what a walk gives -/

/-- a chain gives the answers of a tour in the worlds of an invariant, and these are worlds with its files -/
structure Guides (t : Tour) (c : Chain) (Ok : World → Prop) : Prop where
  run : ∀ path, (c.run path).Gives Ok (t.verdict path)
  files : ∀ w, Ok w → w.files = t.files
  core : ∀ w w' : World, w.core = w'.core → Ok w → Ok w'

/-- a part of a walk that began in a world gave what moves give there -/
structure Followed (Ok : World → Prop) (moves : List (Move FileLine)) (w : World) (r : Walked × World) : Prop where
  lines : r.1.lines = (Move.run w.signal w.looks moves).1
  goesOn : r.1.goesOn = (Move.run w.signal w.looks moves).2.2
  looks : r.1.goesOn = true → r.2.looks = (Move.run w.signal w.looks moves).2.1
  signal : r.2.signal = w.signal
  ok : Ok r.2

/-- in all worlds of `Ok` a part of a walk gives what moves give -/
def Follows (Ok : World → Prop) (a : Act Walked) (moves : List (Move FileLine)) : Prop :=
  ∀ w, Ok w → Followed Ok moves w (a w)

variable {Ok : World → Prop} {xs ys : List (Move FileLine)} {w w₁ w₂ : World} {first second : Walked}

theorem Followed.nothing (h : Ok w) : Followed Ok [] w ({}, w) := ⟨rfl, rfl, fun _ => rfl, rfl, h⟩

/-- the second part comes if the first lets the walk go on -/
theorem Followed.andThen (h₁ : Followed Ok xs w (first, w₁)) (hgo : first.goesOn = true)
    (h₂ : Followed Ok ys w₁ (second, w₂)) : Followed Ok (xs ++ ys) w (first.andThen second, w₂) := by
  have hrun : Move.run w.signal w.looks (xs ++ ys) =
      (first.lines ++ (Move.run w₁.signal w₁.looks ys).1, (Move.run w₁.signal w₁.looks ys).2) := by
    have hgoes := h₁.goesOn
    rw [hgo] at hgoes
    rw [Move.run_append, if_pos hgoes.symm, ← h₁.lines, ← h₁.looks hgo, h₁.signal]
  constructor
  · rw [hrun]
    exact congrArg (first.lines ++ ·) h₂.lines
  · rw [hrun]
    exact h₂.goesOn
  · rw [hrun]
    exact h₂.looks
  · exact h₂.signal.trans h₁.signal
  · exact h₂.ok

theorem Followed.stop (h : Followed Ok xs w (first, w₁)) (hstop : first.goesOn = false) :
    Followed Ok (xs ++ ys) w (first, w₁) := by
  have hrun : Move.run w.signal w.looks (xs ++ ys) = Move.run w.signal w.looks xs := by
    have hgoes := h.goesOn
    rw [hstop] at hgoes
    rw [Move.run_append, if_neg (by rw [← hgoes]; exact Bool.false_ne_true)]
  exact ⟨hrun ▸ h.lines, hrun ▸ h.goesOn, fun hgo => (Bool.false_ne_true (hstop.symm.trans hgo)).elim, h.signal, h.ok⟩

/-- one part of a walk and another after it -/
theorem Followed.sequence (h : Followed Ok xs w (first, w₁)) {b : Act Walked} (hb : Follows Ok b ys) :
    Followed Ok (xs ++ ys) w (if first.goesOn then (first.andThen (b w₁).1, (b w₁).2) else (first, w₁)) := by
  cases hgo : first.goesOn with
  | true => exact h.andThen hgo (hb w₁ h.ok)
  | false => exact h.stop hgo

/-- the signal is up at a look -/
theorem Followed.halted (hok : Ok { w with looks := w.looks + 1 }) (hup : w.signal w.looks = true) (last : FileLine)
    (ms : List (Move FileLine)) :
    Followed Ok (.look last :: ms) w ({ lines := [last], goesOn := false }, { w with looks := w.looks + 1 }) := by
  have hrun : Move.run w.signal w.looks (.look last :: ms) = ([last], w.looks + 1, false) := by
    rw [Move.run, if_pos hup]
  exact ⟨by rw [hrun], by rw [hrun], Bool.noConfusion, rfl, hok⟩

/-- behind a look at a signal that is not up, the rest is as if the walk began there -/
theorem Followed.looked {ms : List (Move FileLine)} {r : Walked × World}
    (h : Followed Ok ms { w with looks := w.looks + 1 } r) (hdown : ¬ w.signal w.looks = true) (last : FileLine) :
    Followed Ok (.look last :: ms) w r := by
  have hrun : Move.run w.signal w.looks (.look last :: ms) = Move.run w.signal (w.looks + 1) ms := by
    rw [Move.run, if_neg hdown]
  exact ⟨hrun ▸ h.lines, hrun ▸ h.goesOn, hrun ▸ h.looks, h.signal, h.ok⟩

/-- what leaves the signal and the looks alone does not show in the rest of the walk -/
theorem Followed.behind {ms : List (Move FileLine)} {r : Walked × World} (h : Followed Ok ms w₁ r)
    (hsignal : w₁.signal = w.signal) (hlooks : w₁.looks = w.looks) : Followed Ok ms w r := by
  have hrun : Move.run w₁.signal w₁.looks ms = Move.run w.signal w.looks ms := by rw [hsignal, hlooks]
  exact ⟨hrun ▸ h.lines, hrun ▸ h.goesOn, hrun ▸ h.looks, h.signal.trans hsignal, h.ok⟩

variable {t : Tour} {c : Chain}

/-- the lines of a file -/
theorem readLines_followed (path : String) (source : Source)
    (hcore : ∀ w w' : World, w.core = w'.core → Ok w → Ok w') (hw : Ok w) :
    let items := (Act.readLines source w).1.map (FileLine.ofReadLine path)
    Followed Ok (source.moves.map (Move.map (FileLine.ofReadLine path))) w
      ({ lines := items, goesOn := !items.any fun l => l.error == some .cancelled }, (Act.readLines source w).2) := by
  have hitems : (Act.readLines source w).1 = (Move.run w.signal w.looks source.moves).1 :=
    readLines_eq_run _ w.signal w.looks
  have hgoes := Move.run_goesOn (fun l : ReadLine => l.error == some .cancelled)
    (readFrom_open source.failure 0 source.lines)
    (fun last h => beq_iff_eq.2 (readFrom_heeds source.failure 0 _ last h))
    (fun item h => beq_eq_false_iff_ne.2 (readFrom_emits_uncut source.failure 0 _ h)) w.signal w.looks
  have hany : ∀ items : List ReadLine,
      ((items.map (FileLine.ofReadLine path)).any fun l => l.error == some .cancelled) =
        items.any fun l => l.error == some .cancelled := by
    intro items
    rw [List.any_map]
    rfl
  constructor
  · simp only [Move.run_map, hitems]
  · simp only [Move.run_map, hitems, hany]
    exact hgoes.symm
  · intro _
    simp only [Move.run_map]
    change w.looks + (Act.readLines source w).1.countP (·.error.isNone) + 1 = _
    rw [hitems]
    exact (run_readFrom_looks source.failure w.signal w.looks 0 source.lines).symm
  · rfl
  · exact hcore w _ rfl hw

theorem visitLeaf_followed (h : t.Guides c Ok) (path : String) (hw : Ok w) :
    Followed Ok (t.fileMoves path) w (Walker.visitLeaf path w) := by
  rw [Walker.visitLeaf_run, Walker.scanFile_run, h.files w hw]
  unfold fileMoves readMoves FileNode.isFile FileNode.openFile
  cases t.files.lookup path with
  | error e => exact Followed.nothing hw
  | ok n =>
    cases hregular : n.isRegular with
    | false => simpa [hregular] using Followed.nothing hw
    | true =>
      cases hsource : n.source with
      | ok source => simpa [bind, Except.bind, hregular, hsource] using readLines_followed path source h.core hw
      | error e =>
        -- a file that cannot be opened leaves a warning
        have hwarned : Followed Ok [] w ({}, (Act.warn ("cannot open " ++ path ++ ": " ++ e.message) w).2) :=
          ⟨rfl, rfl, fun _ => rfl, rfl, h.core w _ rfl hw⟩
        simpa [bind, Except.bind, hregular, hsource] using hwarned

/-- the ignore chain answers, and the signal stays as it is -/
theorem isIgnored_guided (h : t.Guides c Ok) (path : String) (hw : Ok w) :
    ((Walker.mk t.root c).isIgnored path w).1 =
        (match t.verdict path with
          | .ok _ => .ok true
          | .error e => if e.isUnmatched then .ok false else .error (failed path e)) ∧
      Ok ((Walker.mk t.root c).isIgnored path w).2 ∧
      ((Walker.mk t.root c).isIgnored path w).2.signal = w.signal ∧
      ((Walker.mk t.root c).isIgnored path w).2.looks = w.looks := by
  obtain ⟨hverdict, hok⟩ := h.run path w hw
  rw [Walker.isIgnored_run, hverdict]
  exact ⟨rfl, hok, (c.run_blind path).signal w, (c.run_blind path).looks w⟩

/-- **A visit follows the moves at an entry**, if what is below it does. -/
theorem visit_follows (h : t.Guides c Ok) (path : String) (prunes : Bool) {below : Act Walked}
    (hbelow : Follows Ok below ys) :
    Follows Ok (Walker.visit ⟨t.root, c⟩ path prunes below) (t.entryMoves path prunes ys) := by
  intro w hw
  rw [Walker.visit_run, Walker.interruption?_run]
  unfold entryMoves
  have hw₁ : Ok { w with looks := w.looks + 1 } := h.core w _ rfl hw
  by_cases hup : w.signal w.looks = true
  · simp only [if_pos hup]
    exact Followed.halted hw₁ hup t.stopped _
  simp only [if_neg hup]
  refine Followed.looked ?_ hup t.stopped
  obtain ⟨hverdict, hw₂, hsignal, hlooks⟩ := isIgnored_guided h path hw₁
  rcases hi : (Walker.mk t.root c).isIgnored path { w with looks := w.looks + 1 } with ⟨answer, w₂⟩
  rw [hi] at hverdict hw₂ hsignal hlooks
  refine Followed.behind ?_ hsignal hlooks
  simp only at hverdict
  cases hv : t.verdict path with
  | ok found =>
    rw [hv] at hverdict
    subst hverdict
    cases prunes with
    | true => exact ⟨rfl, rfl, fun _ => rfl, rfl, hw₂⟩
    | false =>
      have hpassed := hbelow w₂ hw₂
      exact ⟨hpassed.lines, hpassed.goesOn, hpassed.looks, hpassed.signal, hpassed.ok⟩
  | error e =>
    rw [hv] at hverdict
    simp only at hverdict ⊢
    split at hverdict
    · rename_i hunmatched
      subst hverdict
      rw [if_pos hunmatched]
      exact (visitLeaf_followed h path hw₂).sequence hbelow
    · rename_i hfailed
      subst hverdict
      rw [if_neg hfailed]
      exact ⟨rfl, rfl, nofun, rfl, hw₂⟩

mutual
theorem walkNode_follows (h : t.Guides c Ok) (path : String) (n : FileNode) :
    Follows Ok (Walker.walkNode ⟨t.root, c⟩ path n) (t.nodeMoves path n) := by
  cases n with
  | dir entries => exact visit_follows h path true (walkEntries_follows h path entries)
  | file content => exact visit_follows h path true fun w hw => Followed.nothing hw
  | link target => exact visit_follows h path true fun w hw => Followed.nothing hw

theorem walkEntries_follows (h : t.Guides c Ok) (dir : String) (entries : List (String × FileNode)) :
    Follows Ok (Walker.walkEntries ⟨t.root, c⟩ dir entries) (t.entriesMoves dir entries) := by
  cases entries with
  | nil => exact fun w hw => Followed.nothing hw
  | cons e rest =>
    obtain ⟨name, n⟩ := e
    intro w hw
    rw [Walker.walkEntries_run]
    exact (walkNode_follows h (joinPath dir name) n w hw).sequence (walkEntries_follows h dir rest)
end

theorem skipEntry_follows (h : t.Guides c Ok) (path : String) (e : IoError) :
    Follows Ok (Walker.skipEntry ⟨t.root, c⟩ path e) [.look t.stopped] := by
  intro w hw
  rw [Walker.skipEntry_run, Walker.interruption?_run]
  have hw₁ : Ok { w with looks := w.looks + 1 } := h.core w _ rfl hw
  by_cases hup : w.signal w.looks = true
  · simp only [if_pos hup]
    exact Followed.halted hw₁ hup t.stopped []
  · simp only [if_neg hup]
    refine Followed.looked ?_ hup t.stopped
    exact ⟨rfl, rfl, fun _ => rfl, rfl, h.core w _ rfl hw⟩

/-- **A walk follows the moves of its tour**, under any signal. -/
theorem survey_follows (h : t.Guides c Ok) : Follows Ok (Walker.survey ⟨t.root, c⟩) t.moves := by
  intro w hw
  unfold Walker.survey
  rw [Act.bind_run, Act.get_run]
  simp only [h.files w hw]
  unfold moves
  rcases t.files.lookupEntry t.root with e | n
  · exact skipEntry_follows h t.root e w hw
  cases n with
  | file content => exact walkNode_follows h t.root _ w hw
  | dir entries => exact walkNode_follows h t.root _ w hw
  | link target =>
    rcases t.files.lookup t.root with e | m
    · exact skipEntry_follows h t.root e w hw
    cases m with
    | dir entries => exact visit_follows h t.root false (walkEntries_follows h t.root _) w hw
    | file content => exact walkNode_follows h t.root _ w hw
    | link other => exact walkNode_follows h t.root _ w hw

end Tour

/-! ## Chains that are functions of the path -/

namespace Chain

/-- the world behind a chain that has been asked for some texts -/
def after (c : Chain) (asked : List String) (w : World) : World := asked.foldl (fun w text => (c.run text w).2) w

/-- whatever it has been asked before, a chain gives one answer to a text and leaves the files as they are -/
def IsFunction (c : Chain) (w : World) (verdict : String → MatchResult) : Prop :=
  ∀ asked, (∀ text, (c.run text (c.after asked w)).1 = verdict text) ∧ (c.after asked w).files = w.files

/-- worlds that cannot be told from one in which the chain has been asked for some texts -/
def Asked (c : Chain) (w₀ w : World) : Prop := ∃ asked, w.core = (c.after asked w₀).core

theorem after_snoc (c : Chain) (asked : List String) (text : String) (w : World) :
    c.after (asked ++ [text]) w = (c.run text (c.after asked w)).2 := by
  simp [after, List.foldl_append]

theorem Asked.refl (c : Chain) (w : World) : c.Asked w w := ⟨[], rfl⟩

/-- **A chain that is a function guides a tour.** -/
theorem IsFunction.guides {c : Chain} {w₀ : World} {verdict : String → MatchResult} (h : c.IsFunction w₀ verdict)
    (root : String) : Tour.Guides ⟨root, w₀.files, verdict⟩ c (c.Asked w₀) where
  run := by
    rintro path w ⟨asked, hcore⟩
    obtain ⟨hverdict, hnext⟩ := (c.run_blind path).of_core hcore
    refine ⟨hverdict.trans ((h asked).1 path), asked ++ [path], ?_⟩
    rw [after_snoc, hnext]
  files := by
    rintro w ⟨asked, hcore⟩
    exact (congrArg World.files hcore).trans (h asked).2
  core := by
    rintro w w' hcore ⟨asked, hasked⟩
    exact ⟨asked, hcore.symm.trans hasked⟩

section

variable {scripts : Place → Option Callable} {files : FileNode} {env : Environment} {c : Chain}

/-- a chain of functions guides a tour through settled worlds -/
theorem settled_guides (h : ∀ s ∈ c.stages, s.IsFunction files env) (hplace : Stands scripts c.place c.stages)
    (root : String) : Tour.Guides ⟨root, files, c.value files env⟩ c (World.Settled scripts files env) where
  run := run_gives h hplace
  files := fun _ hw => hw.files_eq
  core := fun w w' hcore => by
    have hfiles : w.core.files = w'.core.files := congrArg World.files hcore
    have henv : w.core.env = w'.core.env := congrArg World.env hcore
    have hsessions : w.core.sessions = w'.core.sessions := congrArg World.sessions hcore
    exact World.Settled.lasting w w' hfiles henv hsessions

/-- **A chain of functions is a function of the path** in every settled world. -/
theorem isFunction_of_settled (h : ∀ s ∈ c.stages, s.IsFunction files env) (hplace : Stands scripts c.place c.stages)
    {w : World} (hw : w.Settled scripts files env) : c.IsFunction w (c.value files env) := by
  have hafter : ∀ asked, (c.after asked w).Settled scripts files env := by
    intro asked
    induction asked using List.reverseRecOn with
    | nil => exact hw
    | append_singleton asked text ih =>
      rw [after_snoc]
      exact (run_gives h hplace text _ ih).2
  exact fun asked => ⟨fun text => (run_gives h hplace text _ (hafter asked)).1,
    (hafter asked).files_eq.trans hw.files_eq.symm⟩

end

end Chain

end Gleaner
