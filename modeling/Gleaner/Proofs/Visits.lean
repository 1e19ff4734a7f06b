/-
What the parts of a walk do in one world.

Every part of a walk is an action; these are its result and the world behind it, written out. `visit_visited` sums up
what a visit can come to, in any world, and `walk_closed` what holds of a walk since it holds of its parts.
-/
import Gleaner.Proofs.Actions
import Gleaner.Walk

namespace Gleaner

namespace Walker

theorem interruption?_run (w : Walker) (world : World) :
    w.interruption? world =
      (if world.signal world.looks then some { path := w.root, error := some .cancelled } else none,
        { world with looks := world.looks + 1 }) := by
  have hlook : Act.cancelled world = (world.signal world.looks, { world with looks := world.looks + 1 }) := rfl
  unfold interruption?
  rw [Act.bind_run, hlook]
  cases world.signal world.looks <;> rfl

theorem isIgnored_run (w : Walker) (path : String) (world : World) :
    w.isIgnored path world =
      (match (w.ignore.run path world).1 with
        | .ok _ => .ok true
        | .error e =>
          if e.isUnmatched then .ok false else .error { path := path, error := some (.ignore path e.message) },
        (w.ignore.run path world).2) := by
  unfold isIgnored
  rw [Act.bind_run]
  cases (w.ignore.run path world).1 with
  | ok _ => rfl
  | error e =>
    simp only
    split <;> rfl

theorem scanFile_run (path : String) (world : World) :
    scanFile path world =
      match world.files.openFile path with
      | .error e => ({}, (Act.warn ("cannot open " ++ path ++ ": " ++ e.message) world).2)
      | .ok source =>
        let items := (Act.readLines source world).1.map (FileLine.ofReadLine path)
        ({ lines := items, goesOn := !items.any fun l => l.error == some .cancelled },
          (Act.readLines source world).2) := by
  unfold scanFile
  rw [Act.bind_run, Act.get_run]
  simp only
  cases world.files.openFile path <;> rfl

theorem visitLeaf_run (path : String) (world : World) :
    visitLeaf path world = if world.files.isFile path then scanFile path world else ({}, world) := by
  unfold visitLeaf
  rw [Act.bind_run, Act.get_run]
  simp only
  split <;> rfl

theorem visit_run (w : Walker) (path : String) (prunes : Bool) (below : Act Walked) (world : World) :
    w.visit path prunes below world =
      match w.interruption? world with
      | (some stop, world) => ({ lines := [stop], goesOn := false }, world)
      | (none, world) =>
        match w.isIgnored path world with
        | (.error stop, world) => ({ lines := [stop], goesOn := false }, world)
        | (.ok true, world) =>
          if prunes then ({ left := [path] }, world)
          else (Walked.andThen { left := [path] } (below world).1, (below world).2)
        | (.ok false, world) =>
          match visitLeaf path world with
          | (here, world) =>
            if here.goesOn then (here.andThen (below world).1, (below world).2) else (here, world) := by
  unfold visit
  rw [Act.bind_run]
  rcases w.interruption? world with ⟨stop | stop, world⟩
  · simp only [Act.bind_run]
    rcases w.isIgnored path world with ⟨stop | ⟨_ | _⟩, world⟩
    · rfl
    · simp only [Act.bind_run]
      rcases visitLeaf path world with ⟨here, world⟩
      cases h : here.goesOn <;> simp [h, Act.bind_run, Act.pure_run]
    · cases prunes <;> rfl
  · rfl

theorem skipEntry_run (w : Walker) (path : String) (e : IoError) (world : World) :
    w.skipEntry path e world =
      match w.interruption? world with
      | (some stop, world) => ({ lines := [stop], goesOn := false }, world)
      | (none, world) =>
        ({}, (Act.warn ("skipping entry: IO error for operation on " ++ path ++ ": " ++ e.message) world).2) := by
  unfold skipEntry
  rw [Act.bind_run]
  rcases w.interruption? world with ⟨stop | stop, world⟩ <;> rfl

theorem walkEntries_run (w : Walker) (dir name : String) (n : FileNode) (rest : List (String × FileNode))
    (world : World) :
    w.walkEntries dir ((name, n) :: rest) world =
      match w.walkNode (joinPath dir name) n world with
      | (first, world) =>
        if first.goesOn then
          (first.andThen (w.walkEntries dir rest world).1, (w.walkEntries dir rest world).2)
        else (first, world) := by
  rw [walkEntries, Act.bind_run]
  rcases w.walkNode (joinPath dir name) n world with ⟨first, world⟩
  cases h : first.goesOn <;> simp [h, Act.bind_run, Act.pure_run]

/-! ## What a visit can come to -/

/-- the outcomes of a visit; `below` is what there is below the entry, found in some world -/
inductive Visited (root path : String) (prunes : Bool) (below : World → Walked) : Walked → Prop where
  /-- the signal was up, or the ignore chain failed -/
  | stopped (last : FileLine) (h : last.path = root ∨ last.path = path) :
      Visited root path prunes below { lines := [last], goesOn := false }
  | pruned (h : prunes = true) : Visited root path prunes below { left := [path] }
  /-- the entry is ignored, but the walk goes on below it -/
  | passed (h : prunes = false) (world : World) :
      Visited root path prunes below (Walked.andThen { left := [path] } (below world))
  /-- the signal went up in the lines of the entry -/
  | cut (here : Walked) (h : ∀ l ∈ here.lines, l.path = path) (hleft : here.left = []) :
      Visited root path prunes below here
  | seen (here : Walked) (h : ∀ l ∈ here.lines, l.path = path) (hleft : here.left = []) (world : World) :
      Visited root path prunes below (here.andThen (below world))

theorem visitLeaf_lines (path : String) (world : World) :
    (∀ l ∈ (visitLeaf path world).1.lines, l.path = path) ∧ (visitLeaf path world).1.left = [] := by
  rw [visitLeaf_run]
  split
  · rw [scanFile_run]
    cases world.files.openFile path with
    | error e => exact ⟨fun l hl => absurd hl List.not_mem_nil, rfl⟩
    | ok source =>
      refine ⟨fun l hl => ?_, rfl⟩
      obtain ⟨item, -, rfl⟩ := List.mem_map.1 hl
      rfl
  · exact ⟨fun l hl => absurd hl List.not_mem_nil, rfl⟩

/-- the line that ends a walk at an entry has the path of the entry -/
theorem isIgnored_error {w : Walker} {path : String} {world : World} {stop : FileLine}
    (h : (w.isIgnored path world).1 = .error stop) : stop.path = path := by
  rw [isIgnored_run] at h
  cases hr : (w.ignore.run path world).1 with
  | ok found => rw [hr] at h; cases h
  | error e =>
    rw [hr] at h
    simp only at h
    split at h
    · cases h
    · cases h
      rfl

theorem interruption?_some {w : Walker} {world : World} {stop : FileLine}
    (h : (w.interruption? world).1 = some stop) : stop.path = w.root := by
  rw [interruption?_run] at h
  simp only at h
  split at h
  · cases h
    rfl
  · cases h

/-- **What a visit comes to**, in any world. -/
theorem visit_visited (w : Walker) (path : String) (prunes : Bool) (below : Act Walked) (world : World) :
    Visited w.root path prunes (fun world => (below world).1) (w.visit path prunes below world).1 := by
  rw [visit_run]
  rcases hi : w.interruption? world with ⟨stop | stop, world₁⟩
  · simp only
    rcases hg : w.isIgnored path world₁ with ⟨stop | ⟨_ | _⟩, world₂⟩
    · exact .stopped stop (.inr (isIgnored_error (by rw [hg])))
    · simp only
      obtain ⟨hlines, hleft⟩ := visitLeaf_lines path world₂
      rcases hl : visitLeaf path world₂ with ⟨here, world₃⟩
      rw [hl] at hlines hleft
      simp only
      cases hgo : here.goesOn with
      | true => exact .seen here hlines hleft world₃
      | false => exact .cut here hlines hleft
    · simp only
      cases prunes with
      | true => exact .pruned rfl
      | false => exact .passed rfl _
  · exact .stopped stop (.inl (interruption?_some (by rw [hi])))

/-! ## What holds of walks -/

section

variable {keys : String → Prop} {P : ∀ {α : Type}, Act α → Prop} (hP : Act.Seeing keys P) {w : Walker}

include hP

theorem interruption?_closed : P w.interruption? := by
  refine hP.bind hP.cancelled fun up => ?_
  cases up <;> exact hP.pure _

theorem isIgnored_closed (h : ∀ path, P (w.ignore.run path)) (path : String) : P (w.isIgnored path) := by
  refine hP.bind (h path) fun r => ?_
  cases r with
  | ok found => exact hP.pure _
  | error e =>
    simp only
    split <;> exact hP.pure _

theorem visitLeaf_closed (path : String) : P (visitLeaf path) := by
  refine hP.get (fun w w' hw => by rw [hw]) fun w => ?_
  split
  · refine hP.get (fun w w' hw => by rw [hw]) fun w => ?_
    cases w.files.openFile path with
    | error e => exact hP.bind (hP.warn _) fun _ => hP.pure _
    | ok source => exact hP.bind (hP.readLines source) fun lines => hP.pure _
  · exact hP.pure _

theorem visit_closed (h : ∀ path, P (w.ignore.run path)) (path : String) (prunes : Bool) {below : Act Walked}
    (hbelow : P below) : P (w.visit path prunes below) := by
  refine hP.bind (interruption?_closed hP) fun stop => ?_
  cases stop with
  | some stop => exact hP.pure _
  | none =>
    refine hP.bind (isIgnored_closed hP h path) fun ignored => ?_
    match ignored with
    | .error stop => exact hP.pure _
    | .ok true =>
      cases prunes with
      | true => exact hP.pure _
      | false => exact hP.bind hbelow fun _ => hP.pure _
    | .ok false =>
      refine hP.bind (visitLeaf_closed hP path) fun here => ?_
      split
      · exact hP.pure _
      · exact hP.bind hbelow fun _ => hP.pure _

mutual
theorem walkNode_closed (h : ∀ path, P (w.ignore.run path)) (path : String) (n : FileNode) : P (w.walkNode path n) := by
  cases n with
  | dir entries => exact visit_closed hP h path true (walkEntries_closed h path entries)
  | file content => exact visit_closed hP h path true (hP.pure _)
  | link target => exact visit_closed hP h path true (hP.pure _)

theorem walkEntries_closed (h : ∀ path, P (w.ignore.run path)) (dir : String) (entries : List (String × FileNode)) :
    P (w.walkEntries dir entries) := by
  match entries with
  | [] => exact hP.pure _
  | (name, n) :: rest =>
    unfold walkEntries
    refine hP.bind (walkNode_closed h (joinPath dir name) n) fun first => ?_
    split
    · exact hP.pure _
    · exact hP.bind (walkEntries_closed h dir rest) fun _ => hP.pure _
end

theorem skipEntry_closed (path : String) (e : IoError) : P (w.skipEntry path e) := by
  refine hP.bind (interruption?_closed hP) fun stop => ?_
  cases stop with
  | some stop => exact hP.pure _
  | none => exact hP.bind (hP.warn _) fun _ => hP.pure _

/-- **What holds of the ignore chain** holds of walks. -/
theorem walk_closed (h : ∀ path, P (w.ignore.run path)) : P w.walk := by
  refine hP.bind (hP.get (fun w w' hw => by rw [hw]) fun world => ?_) fun _ => hP.pure _
  simp only
  split
  · exact visit_closed hP h _ _ (walkEntries_closed hP h _ _)
  · exact skipEntry_closed hP _ _
  · exact walkNode_closed hP h _ _
  · exact skipEntry_closed hP _ _

end

end Walker

end Gleaner
