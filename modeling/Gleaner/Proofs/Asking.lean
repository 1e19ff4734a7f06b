/-
What runs ask of their rules.

A run asks its rules for the lines below a path, for the categories of a file, for the rewritten text of a label or a
node, and for the nodes in a line (`Question`). `Traced` is a part of a run that notes what it asks, each question with
what is kept when it is asked; `Pipeline.traced` is a run that does, and but for its notes it is the run itself
(`traced_part`).

The rules that a question evaluates are evaluated in turn, each in the world that the one before has left; answers that
are kept evaluate none. If one of the evaluations fails with a hard error, the question meets it (`Question.Meets`), and
the run fails, wherever it was asked (`run_fails_of_meets`).

Results:
- `mem_selectAll_of_hard`, `normalize_of_hard`, `Walker.asked_stops`: a hard error shows in what answers a question;
- `Traced.Alert.bind`, `Traced.Alert.forIn`: parts of a run one after the other, and loops;
- `Pipeline.run_fails_of_meets`: runs.
-/
import Gleaner.Proofs.Kinds
import Gleaner.Proofs.Plays
import Gleaner.Proofs.Pruning

namespace Gleaner

open Act

/-! ## Lists of rules -/

/-- **A rule that fails with a hard error** has an entry that says so. -/
theorem mem_selectAll_of_hard {α : Type} {name : α → String} {select : α → Act MatchResult} {rules : List α}
    {w : World} {x : α × World} (hx : x ∈ evaluated select rules w) (h : Hard (select x.1 x.2).1) :
    ∃ s ∈ (Selection.selectAll name select 0 rules w).1, ∃ e, s.outcome = .error e ∧ e.unmatched = false := by
  obtain ⟨cancelled, hkind⟩ := hard_iff.1 h
  obtain ⟨s, hs, e, he, hsame⟩ := (selectAll_kind_iff 0).2 ⟨x, hx, hkind⟩
  exact ⟨s, hs, e, he, congrArg Prod.fst hsame⟩

/-- **A normalizer that fails with a hard error** ends the search for one. -/
theorem normalize_of_hard {input : String} {rules : List Normalizer} {w : World} {x : Normalizer × World}
    (hx : x ∈ tried (·.run input) rules w) (h : Hard (x.1.run input x.2).1) :
    ∃ e, (normalize rules input w).1 = .error e := by
  obtain ⟨cancelled, hkind⟩ := hard_iff.1 h
  obtain ⟨e, he, -⟩ := exists_error_of_kind (normalize_kind_iff.2 ⟨x, hx, hkind⟩)
  exact ⟨e, he⟩

/-! ## Walks -/

namespace Walker

/-- the paths that a visit asks the ignore chain about, each with the world in which it does -/
def visitAsks (w : Walker) (path : String) (prunes : Bool) (below : World → List (String × World)) (world : World) :
    List (String × World) :=
  match w.interruption? world with
  | (some _, _) => []
  | (none, world) =>
    (path, world) :: match w.isIgnored path world with
      | (.error _, _) => []
      | (.ok true, world) => if prunes then [] else below world
      | (.ok false, world) =>
        match visitLeaf path world with
        | (here, world) => if here.goesOn then below world else []

mutual
def nodeAsks (w : Walker) (path : String) : FileNode → World → List (String × World)
  | .dir entries, world => w.visitAsks path true (entriesAsk w path entries) world
  | _, world => w.visitAsks path true (fun _ => []) world

def entriesAsk (w : Walker) (dir : String) : List (String × FileNode) → World → List (String × World)
  | [], _ => []
  | (name, n) :: rest, world =>
    nodeAsks w (joinPath dir name) n world ++ match w.walkNode (joinPath dir name) n world with
      | (first, world) => if first.goesOn then entriesAsk w dir rest world else []
end

/-- the paths that a walk asks the ignore chain about, each with the world in which it does -/
def asked (w : Walker) (world : World) : List (String × World) :=
  match world.files.lookupEntry w.root, world.files.lookup w.root with
  | .ok (.link _), .ok (.dir entries) =>
    w.visitAsks w.root false (w.entriesAsk w.root (arrangedEntries entries)) world
  | .ok (.link _), .error _ => []
  | .ok n, _ => w.nodeAsks w.root n.arranged world
  | .error _, _ => []

/-- one of the lines of a walk is an error -/
def Stops (found : Walked) : Prop := ∃ l ∈ found.lines, l.error ≠ none

theorem Stops.left {first : Walked} (h : Stops first) (others : Walked) : Stops (first.andThen others) := by
  obtain ⟨l, hl, herror⟩ := h
  exact ⟨l, List.mem_append_left _ hl, herror⟩

theorem Stops.right {others : Walked} (h : Stops others) (first : Walked) : Stops (first.andThen others) := by
  obtain ⟨l, hl, herror⟩ := h
  exact ⟨l, List.mem_append_right _ hl, herror⟩

variable {w : Walker} {x : String × World}

theorem visitAsks_stops {path : String} {prunes : Bool} {below : Act Walked} {asks : World → List (String × World)}
    (h : Hard (w.ignore.run x.1 x.2).1) (hbelow : ∀ world, x ∈ asks world → Stops (below world).1) {world : World}
    (hx : x ∈ w.visitAsks path prunes asks world) : Stops (w.visit path prunes below world).1 := by
  rw [visit_run]
  unfold visitAsks at hx
  rcases hi : w.interruption? world with ⟨stop | stop, world₁⟩
  · rw [hi] at hx
    simp only at hx ⊢
    rcases List.mem_cons.1 hx with rfl | hx
    · obtain ⟨e, he, hhard⟩ := h
      have hignored : w.isIgnored path world₁ =
          (.error { path := path, error := some (.ignore path e.message) }, (w.ignore.run path world₁).2) := by
        rw [isIgnored_run]
        simp only [he, hhard, Bool.false_eq_true, if_false]
      rw [hignored]
      exact ⟨_, List.mem_singleton.2 rfl, Option.some_ne_none _⟩
    · rcases hg : w.isIgnored path world₁ with ⟨stop | ⟨_ | _⟩, world₂⟩ <;> rw [hg] at hx
      · exact absurd hx List.not_mem_nil
      · simp only at hx ⊢
        rcases hl : visitLeaf path world₂ with ⟨here, world₃⟩
        rw [hl] at hx
        simp only at hx ⊢
        by_cases hgo : here.goesOn = true
        · rw [if_pos hgo] at hx ⊢
          exact (hbelow world₃ hx).right here
        · rw [if_neg hgo] at hx
          exact absurd hx List.not_mem_nil
      · simp only at hx ⊢
        cases prunes with
        | true => exact absurd hx List.not_mem_nil
        | false => exact (hbelow world₂ hx).right _
  · rw [hi] at hx
    exact absurd hx List.not_mem_nil

mutual
theorem nodeAsks_stops (h : Hard (w.ignore.run x.1 x.2).1) (path : String) (n : FileNode) {world : World}
    (hx : x ∈ w.nodeAsks path n world) : Stops (w.walkNode path n world).1 := by
  cases n with
  | dir entries => exact visitAsks_stops h (fun _ => entriesAsk_stops h path entries) hx
  | file content => exact visitAsks_stops h (fun _ hnone => absurd hnone List.not_mem_nil) hx
  | link target => exact visitAsks_stops h (fun _ hnone => absurd hnone List.not_mem_nil) hx

theorem entriesAsk_stops (h : Hard (w.ignore.run x.1 x.2).1) (dir : String) (entries : List (String × FileNode))
    {world : World} (hx : x ∈ w.entriesAsk dir entries world) : Stops (w.walkEntries dir entries world).1 := by
  match entries with
  | [] => exact absurd hx List.not_mem_nil
  | (name, n) :: rest =>
    rw [walkEntries_run]
    unfold entriesAsk at hx
    have hfirst : x ∈ w.nodeAsks (joinPath dir name) n world → Stops (w.walkNode (joinPath dir name) n world).1 :=
      fun hx => nodeAsks_stops h (joinPath dir name) n hx
    rcases hn : w.walkNode (joinPath dir name) n world with ⟨first, world₁⟩
    rw [hn] at hx hfirst
    simp only at hx ⊢
    rcases List.mem_append.1 hx with hx | hx
    · by_cases hgo : first.goesOn = true
      · rw [if_pos hgo]
        exact (hfirst hx).left _
      · rw [if_neg hgo]
        exact hfirst hx
    · by_cases hgo : first.goesOn = true
      · rw [if_pos hgo] at hx ⊢
        exact (entriesAsk_stops h dir rest hx).right first
      · rw [if_neg hgo] at hx
        exact absurd hx List.not_mem_nil
end

theorem survey_run (w : Walker) (world : World) :
    w.survey world =
      match world.files.lookupEntry w.root, world.files.lookup w.root with
      | .ok (.link _), .ok (.dir entries) => w.visit w.root false (w.walkEntries w.root (arrangedEntries entries)) world
      | .ok (.link _), .error e => w.skipEntry w.root e world
      | .ok n, _ => w.walkNode w.root n.arranged world
      | .error e, _ => w.skipEntry w.root e world := by
  unfold survey
  rw [bind_run, get_run]
  simp only
  cases world.files.lookupEntry w.root with
  | error e => rfl
  | ok n =>
    cases n with
    | file content => rfl
    | dir entries => rfl
    | link target =>
      cases world.files.lookup w.root with
      | error e => rfl
      | ok m => cases m <;> rfl

/-- **An ignore chain that fails with a hard error** shows in the lines of the walk. -/
theorem asked_stops (h : Hard (w.ignore.run x.1 x.2).1) {world : World} (hx : x ∈ w.asked world) :
    ∃ l ∈ (w.walk world).1, l.error ≠ none := by
  change Stops (w.survey world).1
  rw [survey_run]
  unfold asked at hx
  split at hx
  · exact visitAsks_stops h (fun _ => entriesAsk_stops h w.root _) hx
  · exact absurd hx List.not_mem_nil
  · exact nodeAsks_stops h w.root _ hx
  · exact absurd hx List.not_mem_nil

end Walker

/-! ## What is kept -/

namespace Workspace

variable {ws : Workspace}

/-- categories that are not kept are found -/
theorem selectCategories_of_miss (rules : List CategorySelector) {path : String} (h : ws.categories.get? path = none) :
    (selectCategories rules path ws).1 = (Gleaner.selectCategories rules path ws.world).1 := by
  unfold selectCategories Memo.getOrTry
  simp only [h]
  have hact : act (Gleaner.selectCategories rules path) ws =
      ((Gleaner.selectCategories rules path ws.world).1,
        { ws with world := (Gleaner.selectCategories rules path ws.world).2 }) := rfl
  rw [hact]
  by_cases hcut : (Gleaner.selectCategories rules path ws.world).1.any Selection.isCancelled = true
  · simp only [hcut, if_true]
  · simp only [hcut, Bool.false_eq_true, if_false, Memo.insertIfAbsent, h]

/-- a failure to rewrite a text is not kept -/
theorem getOrTry_of_error {rules : List Normalizer} {input : String} {read : Workspace → Memo (List Normalized)}
    {write : Workspace → Memo (List Normalized) → Workspace} (h : (read ws).get? input = none) {e : MatchError}
    (he : (normalize rules input ws.world).1 = .error e) :
    (Memo.getOrTry read write input (act (normalize rules input)) ws).1 = .error e := by
  have hact : act (normalize rules input) ws =
      (.error e, { ws with world := (normalize rules input ws.world).2 }) := by
    rw [← he]
    rfl
  simp only [Memo.getOrTry, h, hact]

end Workspace

/-! ## Parts of a run that fail -/

namespace Run

variable {α β : Type}

/-- a part of a run fails, from any state -/
def Fails (m : Run α) : Prop := ∀ s, ∃ e, (m.run s).1 = .error e

/-- a round of a loop lets the loop go on, if it does not fail -/
def GoesOn (m : Run (ForInStep PUnit)) : Prop := ∀ s step, (m.run s).1 = .ok step → step = .yield ⟨⟩

theorem fails_throw (e : RunError) : Fails (throw e : Run α) := fun _ => ⟨e, rfl⟩

theorem Fails.left {m : Run α} (h : Fails m) (f : α → Run β) : Fails (m >>= f) := by
  intro s
  obtain ⟨e, he⟩ := h s
  refine ⟨e, ?_⟩
  rw [Run.bind_run]
  rcases hm : m.run s with ⟨r, s'⟩
  rw [hm] at he
  cases he
  rfl

theorem Fails.right {f : α → Run β} (h : ∀ a, Fails (f a)) (m : Run α) : Fails (m >>= f) := by
  intro s
  rw [Run.bind_run]
  rcases m.run s with ⟨e | a, s'⟩
  · exact ⟨e, rfl⟩
  · exact h a s'

/-- a part that fails with what has been looked up -/
theorem lift_fails {a : StateM Workspace α} {g : α → Run β} {s : RunState} (h : Fails (g (a s.workspace).1)) :
    ∃ e, ((Run.lift a >>= g).run s).1 = .error e := h _

theorem GoesOn.pure : GoesOn (pure (.yield ⟨⟩)) := fun _ _ h => (Except.ok.inj h).symm

theorem GoesOn.bind {f : α → Run (ForInStep PUnit)} (h : ∀ a, GoesOn (f a)) (m : Run α) : GoesOn (m >>= f) := by
  intro s step hstep
  rw [Run.bind_run] at hstep
  rcases hm : m.run s with ⟨e | a, s'⟩
  · rw [hm] at hstep
    cases hstep
  · rw [hm] at hstep
    exact h a s' step hstep

/-- **A loop fails** if one of its rounds does. -/
theorem Fails.forIn {l : List α} {body : α → PUnit → Run (ForInStep PUnit)} (hgo : ∀ x ∈ l, GoesOn (body x ⟨⟩))
    {x : α} (hx : x ∈ l) (h : Fails (body x ⟨⟩)) : Fails (forIn l ⟨⟩ body) := by
  induction l with
  | nil => exact absurd hx List.not_mem_nil
  | cons y rest ih =>
    rw [List.forIn_cons]
    rcases List.mem_cons.1 hx with rfl | hx
    · exact h.left _
    · have hrest : Fails (ForIn.forIn rest ⟨⟩ body) := ih (fun z hz => hgo z (List.mem_cons_of_mem _ hz)) hx
      intro s
      rw [Run.bind_run]
      have hfirst := hgo y List.mem_cons_self s
      rcases hm : (body y ⟨⟩).run s with ⟨e | step, s'⟩
      · exact ⟨e, rfl⟩
      · rw [hm] at hfirst
        rw [hfirst step rfl]
        exact hrest s'

end Run

/-! ## Traced runs -/

/-- what a run asks of its rules -/
inductive Question where
  /-- which lines are below a path, but for ignored entries -/
  | walk (root : String)
  | categories (path : String)
  | rewriteLabel (label : String)
  | nodes (category content : String)
  | rewriteValue (value : String)

namespace Question

@[reducible]
def Answer : Question → Type
  | .walk _ => List FileLine
  | .categories _ => List Selection
  | .nodes _ _ => List Selection
  | .rewriteLabel _ => Except MatchError (List Normalized)
  | .rewriteValue _ => Except MatchError (List Normalized)

/-- how the answer is found -/
def answer (p : Pipeline) : (q : Question) → StateM Workspace q.Answer
  | .walk root => Workspace.act (Walker.walk ⟨root, p.ignore⟩)
  | .categories path => Workspace.selectCategories p.categories path
  | .nodes category content => Workspace.act (selectNodes p.nodes category content)
  | .rewriteLabel label => Workspace.normalizeCategory p.categoryNormalizers label
  | .rewriteValue value => Workspace.normalizeNode p.nodeNormalizers value

/-- **a question meets a hard error**: its answer is not kept, and a rule that is evaluated for it fails with one -/
def Meets (p : Pipeline) (ws : Workspace) : Question → Prop
  | .walk root => ∃ x ∈ Walker.asked ⟨root, p.ignore⟩ ws.world, Hard (p.ignore.run x.1 x.2).1
  | .categories path => ws.categories.get? path = none ∧
      ∃ x ∈ evaluated (·.select path) p.categories ws.world, Hard (x.1.select path x.2).1
  | .nodes category content =>
    ∃ x ∈ evaluated (·.select category content) p.nodes ws.world, Hard (x.1.select category content x.2).1
  | .rewriteLabel label => ws.categoryNormalizers.get? label = none ∧
      ∃ x ∈ tried (·.run label) p.categoryNormalizers ws.world, Hard (x.1.run label x.2).1
  | .rewriteValue value => ws.nodeNormalizers.get? value = none ∧
      ∃ x ∈ tried (·.run value) p.nodeNormalizers ws.world, Hard (x.1.run value x.2).1

instance (p : Pipeline) (ws : Workspace) (q : Question) : Decidable (q.Meets p ws) :=
  match q with
  | .walk _ | .nodes _ _ => inferInstanceAs (Decidable (∃ x ∈ _, Hard _))
  | .categories _ | .rewriteLabel _ | .rewriteValue _ => inferInstanceAs (Decidable (_ = none ∧ ∃ x ∈ _, Hard _))

end Question

/-- a part of a run, and what it asks in a state, each question with what is kept when it is asked -/
structure Traced (α : Type) where
  part : Run α
  asks : RunState → List (Question × Workspace)

namespace Traced

variable {α β : Type}

instance : Monad Traced where
  pure a := ⟨pure a, fun _ => []⟩
  bind t f := ⟨t.part >>= fun a => (f a).part, fun s =>
    t.asks s ++ match t.part.run s with
      | (.ok a, s) => (f a).asks s
      | (.error _, _) => []⟩

/-- a part of a run that asks nothing -/
def quiet (m : Run α) : Traced α := ⟨m, fun _ => []⟩

/-- a question -/
def ask (p : Pipeline) (q : Question) : Traced q.Answer := ⟨Run.lift (q.answer p), fun s => [(q, s.workspace)]⟩

theorem bind_asks {t : Traced α} {f : α → Traced β} {s s₁ : RunState} {a : α} (h : t.part.run s = (.ok a, s₁)) :
    (t >>= f).asks s = t.asks s ++ (f a).asks s₁ := by
  change t.asks s ++ (match t.part.run s with
    | (.ok a, s) => (f a).asks s
    | (.error _, _) => []) = _
  rw [h]

theorem bind_run {t : Traced α} {f : α → Traced β} {s s₁ : RunState} {a : α} (h : t.part.run s = (.ok a, s₁)) :
    (t >>= f).part.run s = (f a).part.run s₁ := Run.bind_of_ok h _

/-- nothing is asked behind a part -/
theorem asks_of_quiet {t : Traced α} {f : α → Traced β} (hf : ∀ a s, (f a).asks s = []) (s : RunState) :
    (t >>= f).asks s = t.asks s := by
  rcases hrun : t.part.run s with ⟨e | a, s₁⟩
  · change t.asks s ++ (match t.part.run s with
      | (.ok a, s) => (f a).asks s
      | (.error _, _) => []) = _
    rw [hrun]
    exact List.append_nil _
  · rw [bind_asks hrun, hf, List.append_nil]

/-- what asks nothing, in two parts -/
theorem quiet_bind (m : Run α) (f : α → Run β) : quiet (m >>= f) = quiet m >>= fun a => quiet (f a) :=
  congrArg (mk (m >>= f)) (funext fun s =>
    (asks_of_quiet (t := quiet m) (f := fun a => quiet (f a)) (fun _ _ => rfl) s).symm)

/-- a part that does not fail has come to the end of its first part -/
theorem exists_of_bind {t : Traced α} {f : α → Traced β} {s : RunState} {b : β}
    (h : ((t >>= f).part.run s).1 = .ok b) : ∃ a s₁, t.part.run s = (.ok a, s₁) ∧ ((f a).part.run s₁).1 = .ok b := by
  rcases hrun : t.part.run s with ⟨e | a, s₁⟩
  · have herror : (t >>= f).part.run s = (.error e, s₁) := by
      change (t.part >>= fun a => (f a).part).run s = _
      rw [Run.bind_run, hrun]
    rw [herror] at h
    cases h
  · refine ⟨a, s₁, rfl, ?_⟩
    rw [bind_run hrun] at h
    exact h

end Traced

namespace Pipeline

/-- the rewritten texts that answer a question; a failure ends the run -/
def tracedTexts (stage : String) (line : FileLine) (answer : Traced (Except MatchError (List Normalized))) :
    Traced (List Normalized) := do
  match ← answer with
  | .ok found => return found
  | .error e => .quiet (throw (.selection stage line.render e.message))

def tracedNodes (p : Pipeline) (root : ReadLine) (line : FileLine) (category : Selected) : Traced Unit := do
  for node in ← .ask p (.nodes category.normalized.result line.content) do
    match ← .quiet (selected? "node" line node) with
    | none => pure ()
    | some value =>
      for n in ← tracedTexts "node normalizer" line (.ask p (.rewriteValue value)) do
        .quiet (writeRecord ⟨root, line, category, some ⟨node, n⟩⟩)

def tracedLine (p : Pipeline) (root : ReadLine) (line : FileLine) : Traced Unit := do
  let categories ← .ask p (.categories line.path)
  if categories.any Selection.isCancelled then .quiet (throw .cancelled)
  for category in categories do
    match ← .quiet (selected? "category" line category) with
    | none => pure ()
    | some label =>
      let found ← tracedTexts "category normalizer" line (.ask p (.rewriteLabel label))
      for n in found do
        let chosen : Selected := ⟨category, n⟩
        if p.categoryOnly then .quiet (writeRecord ⟨root, line, chosen, none⟩) else p.tracedNodes root line chosen

def tracedLines (p : Pipeline) (root : ReadLine) : List FileLine → Traced Unit
  | [] => .quiet Run.checkSignal
  | line :: rest => do
    .quiet Run.checkSignal
    match line.error with
    | some e => .quiet (throw (.ofStream line.render e))
    | none =>
      .quiet (Run.count fun s => { s with lines := s.lines + 1 })
      p.tracedLine root line
      p.tracedLines root rest

def tracedRoot (p : Pipeline) (root : ReadLine) : Traced Unit := do
  .quiet (Run.count fun s => { s with roots := s.roots + 1 })
  p.tracedLines root (← .ask p (.walk root.text))

def tracedRoots (p : Pipeline) : List ReadLine → Traced Unit
  | [] => .quiet Run.checkSignal
  | root :: rest => do
    .quiet Run.checkSignal
    match root.error with
    | some e => .quiet (throw (.ofStream ("input line " ++ toString root.number) e))
    | none =>
      if !Text.isBlank root.text then p.tracedRoot root
      p.tracedRoots rest

/-- a run that notes what it asks -/
def traced (p : Pipeline) (input : Source) : Traced Summary := do
  p.tracedRoots (← .quiet (Run.act (Act.readLines input)))
  return (← .quiet get).summary

end Pipeline

/-! ## Hard errors -/

/-- a traced part of a run is the part but for its notes, and the part fails if a question of it meets a hard error -/
structure Traced.Alert {α : Type} (p : Pipeline) (t : Traced α) (m : Run α) : Prop where
  part : t.part = m
  fails : ∀ {s q ws}, (q, ws) ∈ t.asks s → q.Meets p ws → ∃ e, (m.run s).1 = .error e

namespace Traced.Alert

variable {α β : Type} {p : Pipeline}

theorem quiet (m : Run α) : Alert p (.quiet m) m where
  part := rfl
  fails hq := absurd hq List.not_mem_nil

theorem pure (a : α) : Alert p (Pure.pure a) (Pure.pure a) where
  part := rfl
  fails hq := absurd hq List.not_mem_nil

/-- what is done behind a part, if the part and the rest are traced and every question of the part that meets a hard
error makes both together fail -/
theorem andThen {t : Traced α} {f : α → Traced β} {g : α → Run β}
    (h : ∀ {s q ws}, (q, ws) ∈ t.asks s → q.Meets p ws → ∃ e, ((t.part >>= g).run s).1 = .error e)
    (hf : ∀ a, Alert p (f a) (g a)) : Alert p (t >>= f) (t.part >>= g) where
  part := congrArg (t.part >>= ·) (funext fun a => (hf a).part)
  fails := by
    intro s q ws hq hmeets
    rcases List.mem_append.1 hq with hq | hq
    · exact h hq hmeets
    · rw [Run.bind_run]
      rcases hm : t.part.run s with ⟨e | a, s'⟩
      · exact ⟨e, rfl⟩
      · rw [hm] at hq
        exact (hf a).fails hq hmeets

/-- **Parts one after the other** -/
theorem bind {t : Traced α} {m : Run α} {f : α → Traced β} {g : α → Run β} (h : Alert p t m)
    (hf : ∀ a, Alert p (f a) (g a)) : Alert p (t >>= f) (m >>= g) := by
  obtain rfl := h.part
  refine .andThen (fun {s q ws} hq hmeets => ?_) hf
  obtain ⟨e, he⟩ := h.fails hq hmeets
  rw [Run.bind_run]
  rcases hm : t.part.run s with ⟨r, s'⟩
  rw [hm] at he
  cases he
  exact ⟨e, rfl⟩

/-- a question, and what is done with its answer -/
theorem ask {q : Question} {f : q.Answer → Traced β} {g : q.Answer → Run β}
    (hmeets : ∀ ws, q.Meets p ws → Run.Fails (g (q.answer p ws).1)) (hf : ∀ a, Alert p (f a) (g a)) :
    Alert p (.ask p q >>= f) (Run.lift (q.answer p) >>= g) := by
  refine .andThen (fun {s r ws} hr hmeet => ?_) hf
  cases List.mem_singleton.1 hr
  exact Run.lift_fails (hmeets s.workspace hmeet)

/-- loops -/
theorem forIn {l : List α} {body : α → PUnit → Traced (ForInStep PUnit)} {rounds : α → PUnit → Run (ForInStep PUnit)}
    (h : ∀ x, Alert p (body x ⟨⟩) (rounds x ⟨⟩)) : Alert p (ForIn.forIn l ⟨⟩ body) (ForIn.forIn l ⟨⟩ rounds) := by
  induction l with
  | nil => exact .pure _
  | cons x rest ih =>
    rw [List.forIn_cons, List.forIn_cons]
    refine (h x).bind fun step => ?_
    cases step with
    | done => exact .pure _
    | yield => exact ih

/-- a part that may be left out -/
theorem guard {c : Bool} {t : Traced PUnit} {m : Run PUnit} {f : PUnit → Traced β} {g : PUnit → Run β}
    (h : Alert p t m) (hf : ∀ u, Alert p (f u) (g u)) :
    Alert p (if c then t >>= f else f ⟨⟩) (if c then m >>= g else g ⟨⟩) := by
  cases c with
  | true => exact h.bind hf
  | false => exact hf ⟨⟩

end Traced.Alert

namespace Pipeline

open Traced

theorem selected?_fails {s : Selection} {e : SelectionError} (he : s.outcome = .error e) (hhard : e.unmatched = false)
    (stage : String) (line : FileLine) : Run.Fails (selected? stage line s) := by
  unfold selected?
  simp only [he, hhard, Bool.false_eq_true, if_false]
  exact Run.fails_throw _

/-- a loop over entries fails at one with a hard error -/
theorem entries_fail {stage : String} {line : FileLine} {found : List Selection}
    {g : Selection → Option String → Run (ForInStep PUnit)} (hgo : ∀ s r, Run.GoesOn (g s r))
    (h : ∃ s ∈ found, ∃ e, s.outcome = .error e ∧ e.unmatched = false) :
    Run.Fails (forIn found ⟨⟩ fun s _ => selected? stage line s >>= g s) := by
  obtain ⟨s, hs, e, he, hhard⟩ := h
  exact .forIn (fun x _ => .bind (hgo x) _) hs (.left (selected?_fails he hhard stage line) _)

section

variable (p : Pipeline) (root : ReadLine)

/-- a text that is rewritten -/
theorem tracedTexts_alert {stage : String} {line : FileLine} {q : Question} {text : String} {rules : List Normalizer}
    {read : Workspace → Memo (List Normalized)} {write : Workspace → Memo (List Normalized) → Workspace}
    {answer : Traced (Except MatchError (List Normalized))}
    (hpart : answer.part = Run.lift (Memo.getOrTry read write text (Workspace.act (normalize rules text))))
    (hasks : ∀ s, answer.asks s = [(q, s.workspace)])
    (hmeets : ∀ ws, q.Meets p ws → (read ws).get? text = none ∧
      ∃ x ∈ tried (·.run text) rules ws.world, Hard (x.1.run text x.2).1) :
    Alert p (tracedTexts stage line answer)
      (normalized stage line (Memo.getOrTry read write text (Workspace.act (normalize rules text)))) := by
  unfold tracedTexts normalized
  rw [← hpart]
  refine .andThen (fun {s r ws} hr hmeet => ?_) fun texts => ?_
  · rw [hasks] at hr
    cases List.mem_singleton.1 hr
    obtain ⟨hmiss, x, hx, hhard⟩ := hmeets _ hmeet
    obtain ⟨e, he⟩ := normalize_of_hard hx hhard
    rw [hpart]
    refine Run.lift_fails ?_
    rw [Workspace.getOrTry_of_error hmiss he]
    exact Run.fails_throw _
  · cases texts with
    | ok found => exact .pure found
    | error e => exact .quiet _

theorem tracedNodes_alert (line : FileLine) (category : Selected) :
    Alert p (p.tracedNodes root line category) (p.processNodes root line category) := by
  unfold tracedNodes processNodes
  refine .ask (fun ws hmeets => ?_) fun nodes =>
    .bind (.forIn fun node => .bind (.quiet _) fun found => ?_) .pure
  · obtain ⟨x, hx, hhard⟩ := hmeets
    refine .left (entries_fail (fun node found => ?_) (mem_selectAll_of_hard hx hhard)) _
    cases found with
    | none => exact .pure
    | some value => exact .bind (fun _ => .bind (fun _ => .pure) _) _
  · cases found with
    | none => exact .pure _
    | some value =>
      exact .bind (p.tracedTexts_alert rfl (fun _ => rfl) fun ws hmeets => hmeets) fun found =>
        .bind (.forIn fun n => .bind (.quiet _) fun _ => .pure _) fun _ => .pure _

theorem tracedLine_alert (line : FileLine) : Alert p (p.tracedLine root line) (p.processLine root line) := by
  unfold tracedLine processLine
  refine .ask (fun ws hmeets => ?_) fun categories =>
    .guard (.quiet _) fun _ => .bind (.forIn fun category => .bind (.quiet _) fun label => ?_) .pure
  · obtain ⟨hmiss, x, hx, hhard⟩ := hmeets
    unfold Question.answer
    rw [Workspace.selectCategories_of_miss p.categories hmiss]
    simp only
    split
    · exact .left (Run.fails_throw _) _
    · refine .left (entries_fail (fun category label => ?_) (mem_selectAll_of_hard hx hhard)) _
      cases label with
      | none => exact .pure
      | some label => exact .bind (fun _ => .bind (fun _ => .pure) _) _
  · cases label with
    | none => exact .pure _
    | some label =>
      refine .bind (p.tracedTexts_alert rfl (fun _ => rfl) fun ws hmeets => hmeets) fun found =>
        .bind (.forIn fun n => ?_) fun _ => .pure _
      by_cases honly : p.categoryOnly = true
      · simp only [honly, if_true]
        exact .bind (.quiet _) fun _ => .pure _
      · simp only [honly, if_false, Bool.false_eq_true]
        exact .bind (p.tracedNodes_alert root line _) fun _ => .pure _

theorem tracedLines_alert (lines : List FileLine) : Alert p (p.tracedLines root lines) (p.processLines root lines) := by
  induction lines with
  | nil => exact .quiet _
  | cons line rest ih =>
    unfold tracedLines processLines
    refine .bind (.quiet _) fun _ => ?_
    cases line.error with
    | some e => exact .quiet _
    | none => exact .bind (.quiet _) fun _ => .bind (p.tracedLine_alert root line) fun _ => ih

/-- a line that is an error ends a run -/
theorem processLines_fails {lines : List FileLine} (h : ∃ l ∈ lines, l.error ≠ none) :
    Run.Fails (p.processLines root lines) := by
  induction lines with
  | nil =>
    obtain ⟨l, hl, -⟩ := h
    exact absurd hl List.not_mem_nil
  | cons line rest ih =>
    unfold processLines
    refine .right (fun _ => ?_) _
    cases herror : line.error with
    | some e => exact Run.fails_throw _
    | none =>
      obtain ⟨l, hl, hne⟩ := h
      rcases List.mem_cons.1 hl with rfl | hl
      · exact absurd herror hne
      · exact .right (fun _ => .right (fun _ => ih ⟨l, hl, hne⟩) _) _

theorem tracedRoot_alert : Alert p (p.tracedRoot root) (p.processRoot root) := by
  unfold tracedRoot processRoot
  refine .bind (.quiet _) fun _ => .ask (fun ws hmeets => ?_) (p.tracedLines_alert root)
  obtain ⟨x, hx, hhard⟩ := hmeets
  exact p.processLines_fails root (Walker.asked_stops hhard hx)

theorem tracedRoots_alert (roots : List ReadLine) : Alert p (p.tracedRoots roots) (p.processRoots roots) := by
  induction roots with
  | nil => exact .quiet _
  | cons root rest ih =>
    unfold tracedRoots processRoots
    refine .bind (.quiet _) fun _ => ?_
    cases root.error with
    | some e => exact .quiet _
    | none =>
      simp only
      by_cases hblank : (!Text.isBlank root.text) = true
      · simp only [hblank, if_true]
        exact .bind (p.tracedRoot_alert root) fun _ => ih
      · simp only [hblank]
        exact ih

theorem traced_alert (input : Source) : Alert p (p.traced input) (p.run input) := by
  unfold traced run
  exact .bind (.quiet _) fun lines => .bind (p.tracedRoots_alert lines) fun _ => .bind (.quiet _) fun _ => .pure _

end

/-- a traced run is the run but for its notes -/
theorem traced_part (p : Pipeline) (input : Source) : (p.traced input).part = p.run input := (p.traced_alert input).part

/-- **A run fails if one of its questions meets a hard error**, from any state. -/
theorem run_fails_of_meets {p : Pipeline} {input : Source} {s : RunState} {q : Question} {ws : Workspace}
    (hasked : (q, ws) ∈ (p.traced input).asks s) (hmeets : q.Meets p ws) : ∃ e, ((p.run input).run s).1 = .error e :=
  (p.traced_alert input).fails hasked hmeets

end Pipeline

end Gleaner
