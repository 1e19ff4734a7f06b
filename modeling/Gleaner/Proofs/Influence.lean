/-
What rules of a list have to do with each other.

The category rules of a list are evaluated for a path, the node rules of a list for a line and the category of its file.
Each rule is accounted for in the result, whatever turns the rules take (`Evaluates`). A rule is compiled to the same
wherever it stands in its list, up to where its chain stands, so it has a twin that is the only rule of a list
(`Independent`): it gives the same as its twin as long as the scripts of the other rules leave the files alone. If they
do not, it may give something else (`influenced_by_files`).

Results:
- `selectAll_accounted`: the entries of a list that is evaluated in order;
- `selectAll_inOrder`: evaluating a list in order is doing the duties of its rules in order;
- `unswayed`: a rule of a list and its twin;
- `selections_account`: compiled lists.
-/
import Gleaner.Proofs.Kinds
import Gleaner.Proofs.Merging
import Gleaner.Proofs.Records
import Gleaner.Proofs.Rounds

namespace Gleaner

open Act Relation

/-! ## Lists in order -/

section

variable {σ : Type} {name : σ → String} {select : σ → Act MatchResult}

theorem evaluated_fst (rules : List σ) (w : World) : (evaluated select rules w).map Prod.fst = rules := by
  induction rules generalizing w with
  | nil => rfl
  | cons rule rest ih => rw [evaluated, List.map_cons, ih]

theorem selectAll_cons (k : Nat) (rule : σ) (rest : List σ) (w : World) :
    (Selection.selectAll name select k (rule :: rest) w).1 =
      Selection.expand k (name rule) (select rule w).1 ++
        (Selection.selectAll name select (k + 1) rest (select rule w).2).1 := rfl

theorem selectAll_eq_gather (k : Nat) (rules : List σ) (w : World) :
    (Selection.selectAll name select k rules w).1 =
      Selection.gather (fun x => name x.1) (fun x => (select x.1 x.2).1) k (evaluated select rules w) := by
  induction rules generalizing k w with
  | nil => rfl
  | cons rule rest ih =>
    rw [selectAll_cons, ih]
    rfl

/-- **The entries of a list in order** account for every rule, in any world and whatever the signal does. -/
theorem selectAll_accounted (hgood : ∀ rule, Always Good (select rule)) (rules : List σ) (w : World) :
    Accounted (rules.map name) (Selection.selectAll name select 0 rules w).1 := by
  have hnames : (evaluated select rules w).map (fun x => name x.1) = rules.map name := by
    conv_rhs => rw [← (evaluated_fst rules w : (evaluated select rules w).map Prod.fst = rules), List.map_map]
    rfl
  rw [selectAll_eq_gather, ← hnames]
  exact Selection.gather_accounted fun x _ => hgood x.1 x.2

/-- rules that do their duties, and leave the signal alone -/
structure Dutiful (name : σ → String) (duty : σ → Duty) (select : σ → Act MatchResult) : Prop where
  name : ∀ rule, (duty rule).name = name rule
  good : ∀ rule, Always Good (select rule)
  does : ∀ rule (w w' : World), w'.signal = (fun _ => false) → w'.core = w.core →
    (select rule w').1 = (duty rule).report ((duty rule).run w).1 ∧
      (select rule w').2.core = ((duty rule).run w).2.core
  signal : ∀ rule w, (select rule w).2.signal = w.signal

variable {duty : σ → Duty}

/-- **To evaluate a list in order** is to do the duties of its rules in order. -/
theorem selectAll_inOrder (h : Dutiful name duty select) (rules : List σ) (k : Nat) {w w' : World}
    (hsignal : w'.signal = fun _ => false) (hw : w'.core = w.core) :
    (Selection.selectAll name select k rules w').1 =
        Selection.gather (fun x => x.1.name) (fun x => x.1.report x.2) k (Round.inOrder (rules.map duty) w).1 ∧
      (Selection.selectAll name select k rules w').2.core = (Round.inOrder (rules.map duty) w).2.core := by
  induction rules generalizing k w w' with
  | nil => exact ⟨rfl, hw⟩
  | cons rule rest ih =>
    obtain ⟨hresult, hworld⟩ := h.does rule w w' hsignal hw
    obtain ⟨hrest, hcore⟩ := ih (k + 1) ((h.signal rule w').trans hsignal) hworld
    refine ⟨?_, hcore⟩
    rw [selectAll_cons, hrest, hresult, ← h.name rule]
    rfl

end

/-- **Category rules do their duties.** -/
theorem CategorySelector.dutiful (path : String) :
    Dutiful CategorySelector.name (fun s => s.duty path) (fun s => s.select path) where
  name _ := rfl
  good s := s.select_good path
  does s _ _ := s.select_duty path
  signal s w := by
    have hrun : (s.select path w).2.signal = (s.search path w).2.signal := rfl
    rw [hrun, search]
    cases s.mode with
    | filename => exact (s.chain.run_blind path).signal w
    | text => exact scanFile_keeps_signal s.chain path w

/-- **Node rules do their duties.** -/
theorem NodeSelector.dutiful (category content : String) :
    Dutiful NodeSelector.name (fun s => s.duty category content) (fun s => s.select category content) where
  name _ := rfl
  good s := s.select_good category content
  does s _ _ _ := s.select_duty category content
  signal s w := (s.select_blind category content).signal w

/-! ## Twins of rules -/

/-- what the rules of a list have given is, for rule number `i` and up to the number, what `alone` gives, the only rule
of a list: in a round that `alone` can take, in which the token fires if it has fired, and, unless the token has cut the
rule short, in `program`, which evaluates the list of `alone` -/
structure SameAlone (i : Nat) (p : Place) (alone : Duty) (program : Act (List Selection)) (w' : World) (fired : Bool)
    (m : Round) (found : List (Duty × MatchResult)) (m' : Round) (found' : List (Duty × MatchResult)) : Prop where
  reached : ReflTransGen Round.Moves (.start [alone] w' fired) m'
  decided : m'.Decided found'
  fired : m'.fired = m.fired
  entries : ((Round.entries found).filter (·.index = i)).map (fun s => { s with index := 0 }) = Round.entries found'
  world : Twins p alone.chain.place m.world m'.world
  value : Round.entries found' = (program w'.silent).1 ∧ m'.world.core = (program w'.silent).2.core ∨
    m.fired = true ∧ ∃ s, Round.entries found' = [s] ∧ s.isCancelled = true

/-- **The rules of a list leave rule number `i` to itself**: as long as the others do not change the files, it gives
what it gives as the only rule of a list -/
def Unswayed (duties : List Duty) (i : Nat) (p : Place) (alone : Duty) (program : Act (List Selection)) : Prop :=
  ∀ (w w' : World) (fired : Bool) (m : Round) (found : List (Duty × MatchResult)), Twins p alone.chain.place w w' →
    ReflTransGen (Round.Sparing i) (.start duties w fired) m → m.Decided found →
      ∃ m' found', SameAlone i p alone program w' fired m found m' found'

theorem expand_renumbered (i k : Nat) (name : String) (r : MatchResult) :
    (Selection.expand i name r).map (fun s => { s with index := k }) = Selection.expand k name r := by
  cases r with
  | ok found => simp [Selection.expand]
  | error e => rfl

/-- **A rule of a list and its twin** -/
theorem unswayed {duties : List Duty} {i : Nat} {d d' : Duty} {program : Act (List Selection)}
    (hapart : Round.Apart duties) (hd : duties[i]? = some d) (hmoved : d.Moved d')
    (halone : ∀ w, (program w.silent).1 = Selection.expand 0 d'.name (d'.report (d'.run w).1) ∧
      (program w.silent).2.core = (d'.run w).2.core) : Unswayed duties i d.chain.place d' program := by
  intro w w' fired m found htwins hreach hdecided
  obtain ⟨r, v, hmine, hworld, hlone⟩ := Round.projected hapart hd hmoved htwins hreach hdecided
  have hentries : Round.entries [(d', r)] = Selection.expand 0 d'.name (d'.report r) := List.append_nil _
  refine ⟨_, [(d', r)], hlone, rfl, rfl, ?_, hworld, ?_⟩
  · rw [hmine, expand_renumbered, hentries, hmoved.name, Duty.report, Duty.report, hmoved.places]
  · rw [hentries]
    rcases Round.decided_alone hlone with hsame | ⟨hfired, hcut⟩
    · rw [(halone w').1, (halone w').2, ← hsame]
      exact .inl ⟨rfl, rfl⟩
    · obtain ⟨e, he, hcancelled⟩ := hcut.located d'.places
      refine .inr ⟨hfired, ⟨0, d'.name, .error (.of e)⟩, ?_, hcancelled⟩
      rw [Duty.report, he]
      rfl

/-! ## Compiled lists -/

/-- rules that are compiled to the same wherever they stand -/
structure Movable {ρ σ : Type} (part : Part) (compile : Nat → ρ → Except ConfigError σ) (label : ρ → String)
    (duty : σ → Duty) : Prop where
  place : ∀ i spec rule, compile i spec = .ok rule → (duty rule).chain.place = { part := part, rule := i }
  label : ∀ i spec rule, compile i spec = .ok rule → (duty rule).name = label spec
  moved : ∀ i spec rule, compile i spec = .ok rule →
    ∃ alone, compile 0 spec = .ok alone ∧ (duty rule).Moved (duty alone)

/-- a chain is compiled to the same as that of the only rule of a list -/
theorem Chain.compile_alone {env : Environment} {part : Part} {i : Nat} {specs : List StageSpec} {c : Chain}
    (h : Chain.compile env { part := part, rule := i } specs = .ok c) :
    ∃ alone, Chain.compile env { part := part, rule := 0 } specs = .ok alone ∧
      c.stages = alone.stages ∧ c.place.stage = alone.place.stage := by
  obtain ⟨stages, hstages, rfl⟩ := Pipeline.map_eq_ok h
  refine ⟨⟨{ part := part, rule := 0 }, stages⟩, ?_, rfl, rfl⟩
  rw [compile, hstages]
  rfl

theorem CategorySelector.movable (env : Environment) (path : String) :
    Movable .category (CategorySelector.compile env) CategoryRule.name (fun s => s.duty path) where
  place i spec rule h := Pipeline.category_place h
  label i spec rule h := Pipeline.category_name h
  moved i spec rule h := by
    unfold compile at h ⊢
    simp only at h ⊢
    split at h
    · obtain ⟨c, hc, rfl⟩ := Pipeline.map_eq_ok h
      obtain ⟨alone, halone, hstages, hstage⟩ := Chain.compile_alone (Pipeline.foundAt_eq_ok hc)
      rw [halone]
      exact ⟨_, rfl, rfl, rfl, hstages, hstage, rfl, rfl⟩
    · obtain ⟨c, hc, rfl⟩ := Pipeline.map_eq_ok h
      obtain ⟨alone, halone, hstages, hstage⟩ := Chain.compile_alone (Pipeline.foundAt_eq_ok hc)
      rw [halone]
      exact ⟨_, rfl, rfl, rfl, hstages, hstage, rfl, rfl⟩
    · cases h

theorem NodeSelector.movable (env : Environment) (category content : String) :
    Movable .node (NodeSelector.compile env) NodeRule.name (fun s => s.duty category content) where
  place i spec rule h := Pipeline.node_place h
  label i spec rule h := congrArg Prod.fst (Pipeline.node_rule h)
  moved i spec rule h := by
    obtain ⟨c, hc, rfl⟩ := Pipeline.map_eq_ok h
    obtain ⟨alone, halone, hstages, hstage⟩ := Chain.compile_alone (Pipeline.foundAt_eq_ok hc)
    unfold compile
    rw [halone]
    exact ⟨_, rfl, rfl, rfl, hstages, hstage, rfl, rfl⟩

section

variable {ρ σ : Type} {what : String} {compile : Nat → ρ → Except ConfigError σ} {specs : List ρ} {rules : List σ}

theorem compileRules_at {k : Nat} (h : Selection.compileRules what compile k specs = .ok rules) {i : Nat} {spec : ρ}
    (hspec : specs[i]? = some spec) : ∃ rule, rules[i]? = some rule ∧ compile (k + i) spec = .ok rule := by
  induction specs generalizing k rules i with
  | nil => cases hspec
  | cons first rest ih =>
    obtain ⟨rule, hrule, h⟩ := Pipeline.bind_eq_ok h
    obtain ⟨others, hothers, h⟩ := Pipeline.bind_eq_ok h
    cases h
    cases i with
    | zero =>
      cases hspec
      exact ⟨rule, rfl, Pipeline.foundAt_eq_ok hrule⟩
    | succ i =>
      obtain ⟨other, hother, hcompile⟩ := ih hothers hspec
      exact ⟨other, hother, by rw [← hcompile, Nat.add_right_comm, Nat.add_assoc]⟩

variable {part : Part} {label : ρ → String} {name : σ → String} {duty : σ → Duty} {select : σ → Act MatchResult}

/-- the chains of compiled rules stand apart -/
theorem Movable.apart (hmovable : Movable part compile label duty)
    (h : Selection.compileRules what compile 0 specs = .ok rules) : Round.Apart (rules.map duty) := by
  have hplace : ∀ (i : Nat) (d : Duty), (rules.map duty)[i]? = some d →
      d.chain.place = { part := part, rule := i } := by
    intro i d hd
    rw [List.getElem?_map] at hd
    obtain ⟨rule, hrule, rfl⟩ := Option.map_eq_some_iff.1 hd
    obtain ⟨spec, hspec⟩ := Pipeline.compileRules_getElem? h hrule
    rw [Nat.zero_add] at hspec
    exact hmovable.place i spec rule hspec
  intro i j d e hij hd he k l hsame
  rw [hplace i d hd, hplace j e he] at hsame
  exact hij (congrArg Place.rule hsame)

/-- every rule of a list is accounted for: if the list is evaluated in order, in any world and whatever the signal
does, and if the rules take turns; to go in order is one of the ways to take turns -/
structure Evaluates (names : List String) (duties : List Duty) (program : Act (List Selection)) : Prop where
  inOrder : ∀ w, Accounted names (program w).1
  inTurns : ∀ (w : World) (fired : Bool) (m : Round) (found : List (Duty × MatchResult)),
    ReflTransGen Round.Moves (.start duties w fired) m → m.Decided found → Accounted names (Round.entries found)
  ordered : ∀ w : World, ∃ m found, ReflTransGen Round.Moves (.start duties w false) m ∧ m.Decided found ∧
    m.fired = false ∧ Round.entries found = (program w.silent).1 ∧ m.world.core = (program w.silent).2.core

/-- every rule of a list gives what its twin gives as the only rule of a list -/
def Independent (compileAll : List ρ → Except ConfigError (List σ)) (duty : σ → Duty)
    (selectAll : List σ → Act (List Selection)) (specs : List ρ) (rules : List σ) : Prop :=
  ∀ i spec, specs[i]? = some spec → ∃ rule alone, rules[i]? = some rule ∧ compileAll [spec] = .ok [alone] ∧
    Unswayed (rules.map duty) i (duty rule).chain.place (duty alone) (selectAll [alone])

theorem Dutiful.evaluates (hdutiful : Dutiful name duty select) (rules : List σ) :
    Evaluates (rules.map name) (rules.map duty) (Selection.selectAll name select 0 rules) where
  inOrder := selectAll_accounted hdutiful.good rules
  inTurns w fired m found hreach hdecided := by
    have hnames : (rules.map duty).map Duty.name = rules.map name := by
      rw [List.map_map]
      exact List.map_congr_left fun rule _ => hdutiful.name rule
    rw [← hnames]
    exact Round.entries_accounted hreach hdecided
  ordered w := by
    obtain ⟨m, hreach, hdecided, hdown, hworld⟩ := Round.exists_inOrder (rules.map duty) w
    have hcore : w.silent.core = w.core := rfl
    obtain ⟨hentries, hbehind⟩ := selectAll_inOrder hdutiful rules 0 rfl hcore
    exact ⟨m, _, hreach, hdecided, hdown, hentries.symm, by rw [hworld, hbehind]⟩

theorem Movable.independent (hmovable : Movable part compile label duty) (hdutiful : Dutiful name duty select)
    (h : Selection.compileRules what compile 0 specs = .ok rules) :
    Independent (Selection.compileRules what compile 0) duty (Selection.selectAll name select 0) specs rules := by
  intro i spec hspec
  obtain ⟨rule, hrule, hcompile⟩ := compileRules_at h hspec
  obtain ⟨alone, halone, hmoved⟩ := hmovable.moved _ spec rule hcompile
  refine ⟨rule, alone, hrule, ?_, ?_⟩
  · rw [Selection.compileRules, halone]
    rfl
  · have hd : (rules.map duty)[i]? = some (duty rule) := by rw [List.getElem?_map, hrule, Option.map_some]
    refine unswayed (hmovable.apart h) hd hmoved fun w => ?_
    have hcore : w.silent.core = w.core := rfl
    obtain ⟨hentries, hbehind⟩ := selectAll_inOrder hdutiful [alone] 0 rfl hcore
    refine ⟨hentries.trans ?_, hbehind⟩
    exact List.append_nil _

end

/-- **Compiled lists of rules** account for every rule, and no rule depends on the others as long as they leave the
files alone. Whatever turns the rules take, they go on until all have decided. -/
theorem selections_account {env : Environment} {categorySpecs : List CategoryRule} {nodeSpecs : List NodeRule}
    {categories : List CategorySelector} {nodes : List NodeSelector}
    (hcategories : compileCategories env categorySpecs = .ok categories)
    (hnodes : compileNodes env nodeSpecs = .ok nodes)
    (path category content : String) :
    (Evaluates (categorySpecs.map CategoryRule.name) (categories.map fun s => s.duty path)
        (selectCategories categories path) ∧
      Independent (compileCategories env) (fun s => s.duty path) (fun rules => selectCategories rules path)
        categorySpecs categories) ∧
    (Evaluates (nodeSpecs.map NodeRule.name) (nodes.map fun s => s.duty category content)
        (selectNodes nodes category content) ∧
      Independent (compileNodes env) (fun s => s.duty category content)
        (fun rules => selectNodes rules category content) nodeSpecs nodes) ∧
    (∀ m : Round, (∃ found, m.Decided found) ∨ ∃ m', Round.Moves m m' ∧ m'.fired = m.fired) ∧
    WellFounded fun m' m : Round => Round.Moves m m' := by
  refine ⟨⟨?_, ?_⟩, ⟨?_, ?_⟩, Round.exists_moves, Round.moves_wellFounded⟩
  · have hrules : Selection.compileRules "category" (CategorySelector.compile env) 0 categorySpecs = .ok categories :=
      hcategories
    have hnames : categories.map CategorySelector.name = categorySpecs.map CategoryRule.name :=
      Pipeline.compileRules_map (fun _ _ _ hrule => Pipeline.category_name hrule) hrules
    rw [← hnames]
    exact (CategorySelector.dutiful path).evaluates categories
  · exact (CategorySelector.movable env path).independent (CategorySelector.dutiful path) hcategories
  · have hrules : Selection.compileRules "node" (NodeSelector.compile env) 0 nodeSpecs = .ok nodes := hnodes
    have hnames : nodes.map NodeSelector.name = nodeSpecs.map NodeRule.name :=
      Pipeline.compileRules_map (fun _ _ _ hrule => congrArg Prod.fst (Pipeline.node_rule hrule)) hrules
    rw [← hnames]
    exact (NodeSelector.dutiful category content).evaluates nodes
  · exact (NodeSelector.movable env category content).independent (NodeSelector.dutiful category content) hnodes

/-- two category rules without scripts: there is a round, and the second gives in it what it gives by itself -/
theorem selections_account_pair :
    let specs : List CategoryRule :=
      [{ name := "a", text := [.ofValues ["k"]] }, { name := "b", filename := [.ofValues ["v"]] }]
    let a : CategorySelector := ⟨"a", .text, ⟨{ part := .category }, [.values ["k"]]⟩⟩
    let b : CategorySelector := ⟨"b", .filename, ⟨{ part := .category, rule := 1 }, [.values ["v"]]⟩⟩
    let w : World := { files := .dir [("x", .file [111, 10])] }
    compileCategories ⟨[]⟩ specs = .ok [a, b] ∧ compileNodes ⟨[]⟩ [] = .ok [] ∧
      ∃ m found, ReflTransGen Round.Moves (.start [a.duty "x", b.duty "x"] w false) m ∧ m.Decided found ∧
        Accounted ["a", "b"] (Round.entries found) ∧
        ((Round.entries found).filter (·.index = 1)).map (fun s => { s with index := 0 }) = [⟨0, "b", .ok "v"⟩] := by
  intro specs a b w
  have hcategories : compileCategories ⟨[]⟩ specs = .ok [a, b] := rfl
  have hnodes : compileNodes ⟨[]⟩ [] = .ok [] := rfl
  obtain ⟨⟨hevaluates, hindependent⟩, -⟩ := selections_account hcategories hnodes "x" "" ""
  obtain ⟨m, found, hmoves, hdecided, hdown, -⟩ := hevaluates.ordered w
  obtain ⟨rule, alone, hrule, halone, hunswayed⟩ := hindependent 1 specs[1] rfl
  cases hrule
  cases halone
  have hsparing : ReflTransGen (Round.Sparing 1) (.start [a.duty "x", b.duty "x"] w false) m := by
    refine Round.sparing_of_still (fun j e hj he s hs => ?_) hmoves
    match j with
    | 0 =>
      cases he
      cases List.mem_singleton.1 hs
      exact fun _ _ _ => rfl
    | 1 => exact absurd rfl hj
    | j + 2 => cases he
  obtain ⟨m', found', hsame⟩ := hunswayed w w false m found (.fresh _ _ _ _) hsparing hdecided
  refine ⟨hcategories, hnodes, m, found, hmoves, hdecided, hevaluates.inTurns w false m found hmoves hdecided, ?_⟩
  rcases hsame.value with ⟨hvalue, -⟩ | ⟨hfired, -⟩
  · exact hsame.entries.trans hvalue
  · rw [hdown] at hfired
    cases hfired

/-- a rule empties the file before another rule looks at its lines, which gives something else than by itself -/
theorem influenced_by_files :
    let specs : List CategoryRule :=
      [{ name := "a", filename := [.ofShell ">x>x/y"] }, { name := "b", text := [.ofValues ["v"]] }]
    let a : CategorySelector := ⟨"a", .filename, ⟨{ part := .category }, [.shell { body := ">x>x/y" }]⟩⟩
    let b : CategorySelector := ⟨"b", .text, ⟨{ part := .category, rule := 1 }, [.values ["v"]]⟩⟩
    let alone : CategorySelector := ⟨"b", .text, ⟨{ part := .category }, [.values ["v"]]⟩⟩
    let w : World := { files := .dir [("x", .file [111, 10])], env := ⟨[("PATH", "/usr/bin")]⟩ }
    compileCategories w.env specs = .ok [a, b] ∧ compileCategories w.env [specs[1]] = .ok [alone] ∧
      ((selectCategories [a, b] "x" w).1.filter (·.index = 1)).map (fun s => { s with index := 0 }) ≠
        (selectCategories [alone] "x" w).1 := by
  intro specs a b alone w
  refine ⟨rfl, rfl, fun hsame => ?_⟩
  have hlist : ((selectCategories [a, b] "x" w).1.filter (·.index = 1)).map (fun s => s.outcome.toOption) = [none] := by
    decide +kernel
  have halone : (selectCategories [alone] "x" w).1.map (fun s => s.outcome.toOption) = [some "v"] := by decide +kernel
  have houtcomes := congrArg (List.map fun s => s.outcome.toOption) hsame
  rw [List.map_map, halone] at houtcomes
  cases hlist.symm.trans houtcomes

end Gleaner
