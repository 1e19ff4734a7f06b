/-
What runs write.

A record names the rules and normalizers that its texts come from (`Record.WellFormed`), since all that a run looks up
is sound. So in whatever worlds a pipeline has been used, with whatever signals and outputs, and however a run ends,
its output is made of lines of JSON that the configuration admits (`Config.Admits`); only the last of them may be cut
short, by a write that was refused.

Results:
- `Pipeline.run_writes`: a run keeps what is sound and writes well-formed records, with any room for them;
- `Record.WellFormed.admitted`: the JSON of a well-formed record;
- `Pipeline.output_admitted`: the output of a run.
-/
import Gleaner.Proofs.Findings
import Gleaner.Proofs.Printing
import Gleaner.Proofs.Runs
import Gleaner.Proofs.Writing

namespace Gleaner

/-! ## Well-formed records -/

/-- an entry of a rule of a list, and what one of some normalizers, if any, has rewritten its text to -/
structure Selected.From {α : Type} (rules : List α) (name : α → String) (Q : α → Prop) (normalizers : List Normalizer)
    (s : Selected) : Prop where
  rule : ∃ rule, rules[s.origin.index]? = some rule ∧ name rule = s.origin.name ∧ Q rule
  text : ∃ text, s.origin.outcome = .ok text ∧ Filled text ∧ s.normalized.Of normalizers text

structure Record.WellFormed (p : Pipeline) (r : Record) : Prop where
  root_number : 1 ≤ r.root.number
  root_text : Filled r.root.text
  line_number : 1 ≤ r.line.number
  category : r.category.From p.categories CategorySelector.name (fun _ => True) p.categoryNormalizers
  node : match r.node with
    | none => p.categoryOnly = true
    | some node => p.categoryOnly = false ∧ node.From p.nodes NodeSelector.name
        (fun rule => rule.category.isMatch r.category.normalized.result = true) p.nodeNormalizers

theorem Normalized.Of.filled {rules : List Normalizer} {input : String} {n : Normalized} (h : n.Of rules input)
    (hinput : Filled input) : Filled n.result := by
  rcases h with rfl | ⟨i, rule, -, -, -, hresult⟩
  · exact hinput
  · exact hresult

/-- an entry that has a text, and a text it is rewritten to -/
theorem Selection.Of.selected {α : Type} {rules : List α} {name : α → String} {Q : α → String → Prop} {R : α → Prop}
    {s : Selection} (h : s.Of rules name Q) {text : String} (htext : s.outcome = .ok text)
    (hQ : ∀ rule, Q rule text → Filled text ∧ R rule) {normalizers : List Normalizer} {n : Normalized}
    (hn : n.Of normalizers text) : Selected.From rules name R normalizers ⟨s, n⟩ := by
  obtain ⟨rule, hrule, hname, hfound⟩ := h
  obtain ⟨hfilled, hR⟩ := hQ rule (hfound text htext)
  exact ⟨⟨rule, hrule, hname, hR⟩, text, htext, hfilled, hn⟩

/-! ## Runs -/

namespace Pipeline

/-- what runs keep and what they write -/
def contract (p : Pipeline) : Contract where
  Keeps := Workspace.Sound p
  Writes := Record.WellFormed p

variable {p : Pipeline}

theorem act_writes {α : Type} {a : Act α} {P : α → Prop} (h : Act.Always P a) :
    Run.Writes p.contract P (Run.act a) :=
  lift_writes fun ws hws => ⟨hws.act a, h ws.world⟩

theorem check_writes : Run.Writes p.contract (fun _ => True) Run.checkSignal :=
  checkSignal_writes fun _ hws => hws.act _

/-- **The nodes in a line** -/
theorem processNodes_writes (honly : p.categoryOnly = false) {root : ReadLine} (hnumber : 1 ≤ root.number)
    (hroot : Filled root.text) {line : FileLine} (hline : 1 ≤ line.number) {category : Selected}
    (hcategory : category.From p.categories CategorySelector.name (fun _ => True) p.categoryNormalizers) :
    Run.Writes p.contract (fun _ => True) (p.processNodes root line category) := by
  let Q (rule : NodeSelector) (text : String) : Prop :=
    Filled text ∧ rule.category.isMatch category.normalized.result = true
  have hfound : Act.Always (fun found => ∀ s ∈ found, s.Of p.nodes NodeSelector.name Q)
      (selectNodes p.nodes category.normalized.result line.content) :=
    Selection.selectAll_of (fun rule _ => rule.select_filled _ _) (List.drop_zero (l := p.nodes))
  unfold processNodes
  refine (act_writes hfound).bind fun found hentries => ?_
  refine (Run.Writes.forIn fun node hnode => ?_).bind fun _ _ => Run.Writes.pure trivial
  refine entry_writes fun value hvalue => ?_
  refine normalized_writes (fun ws hws => Workspace.normalizeNode_sound hws value) fun n hn => ?_
  refine round_writes (writeRecord_writes ⟨hnumber, hroot, hline, hcategory, honly, ?_⟩)
  exact (hentries node hnode).selected hvalue (fun _ hQ => hQ) hn

/-- **The records of a line** -/
theorem processLine_writes {root : ReadLine} (hnumber : 1 ≤ root.number) (hroot : Filled root.text) {line : FileLine}
    (hline : 1 ≤ line.number) : Run.Writes p.contract (fun _ => True) (p.processLine root line) := by
  let Found (found : List Selection) : Prop := ∀ s ∈ found, s.Of p.categories CategorySelector.name fun _ => Filled
  have hfound : ∀ ws, p.contract.Keeps ws → p.contract.Keeps (Workspace.selectCategories p.categories line.path ws).2 ∧
      Found (Workspace.selectCategories p.categories line.path ws).1 :=
    fun _ hws => Workspace.selectCategories_sound hws line.path
  unfold processLine
  refine (lift_writes hfound).bind fun found hentries => ?_
  by_cases hcut : found.any Selection.isCancelled = true
  · rw [if_pos hcut]
    exact (Run.Writes.fail (P := fun _ => False) .cancelled).bind fun _ hnever => hnever.elim
  rw [if_neg hcut]
  refine (Run.Writes.forIn fun category hcategory => ?_).bind fun _ _ => Run.Writes.pure trivial
  refine entry_writes fun label hlabel => ?_
  refine normalized_writes (fun ws hws => Workspace.normalizeCategory_sound hws label) fun n hn => ?_
  have hchosen : Selected.From p.categories CategorySelector.name (fun _ => True) p.categoryNormalizers ⟨category, n⟩ :=
    (hentries category hcategory).selected hlabel (fun _ hfilled => ⟨hfilled, trivial⟩) hn
  cases honly : p.categoryOnly with
  | true => exact round_writes (writeRecord_writes ⟨hnumber, hroot, hline, hchosen, honly⟩)
  | false => exact round_writes (processNodes_writes honly hnumber hroot hline hchosen)

/-- **The lines of a walk** -/
theorem processLines_writes {root : ReadLine} (hnumber : 1 ≤ root.number) (hroot : Filled root.text)
    {lines : List FileLine} (hlines : ∀ l ∈ lines, l.error = none → 1 ≤ l.number) :
    Run.Writes p.contract (fun _ => True) (p.processLines root lines) := by
  induction lines with
  | nil => exact check_writes
  | cons line rest ih =>
    unfold processLines
    refine check_writes.bind fun _ _ => ?_
    cases herror : line.error with
    | some e => exact Run.Writes.fail _
    | none =>
      have hline : 1 ≤ line.number := hlines line List.mem_cons_self herror
      refine (count_writes _).bind fun _ _ => ?_
      refine (processLine_writes hnumber hroot hline).bind fun _ _ => ?_
      exact ih fun l hl => hlines l (List.mem_cons_of_mem _ hl)

/-- **The lines of an input** -/
theorem processRoots_writes {roots : List ReadLine} (hroots : ∀ root ∈ roots, 1 ≤ root.number) :
    Run.Writes p.contract (fun _ => True) (p.processRoots roots) := by
  induction roots with
  | nil => exact check_writes
  | cons root rest ih =>
    have hnumber : 1 ≤ root.number := hroots root List.mem_cons_self
    have hrest : Run.Writes p.contract (fun _ => True) (p.processRoots rest) :=
      ih fun r hr => hroots r (List.mem_cons_of_mem _ hr)
    unfold processRoots
    refine check_writes.bind fun _ _ => ?_
    cases root.error with
    | some e => exact Run.Writes.fail _
    | none =>
      simp only
      cases hblank : Text.isBlank root.text with
      | true => exact hrest
      | false =>
        refine Run.Writes.bind (P := fun _ => True) ?_ fun _ _ => hrest
        unfold processRoot
        refine (count_writes _).bind fun _ _ => ?_
        refine (act_writes (Walker.walk_numbered _)).bind fun lines hlines => ?_
        exact processLines_writes hnumber hblank hlines

/-- **A run** keeps what is sound and writes well-formed records. -/
theorem run_writes (input : Source) : Run.Writes p.contract (fun _ => True) (p.run input) := by
  have hread : Act.Always (fun roots => ∀ root ∈ roots, 1 ≤ root.number) (Act.readLines input) :=
    fun w => readLines_number input _
  have hsummary : Run.Writes p.contract (fun _ => True) (do return (← get).summary : Run Summary) := fun _ hs =>
    ⟨hs, fun _ _ => trivial, [], .nothing rfl fun _ => rfl⟩
  unfold run
  refine (act_writes hread).bind fun roots hroots => ?_
  exact (processRoots_writes hroots).bind fun _ _ => hsummary

/-- what a pipeline keeps that has been used in any worlds: the files, the variables, the signal and all else may be
another at each run -/
inductive Used (p : Pipeline) : Workspace → Prop where
  | fresh (w : World) : p.Used { world := w }
  | run {ws : Workspace} (h : p.Used ws) (w : World) (input : Source) (output : Output) :
      p.Used ((p.run input).run { workspace := { ws with world := w }, output := output }).2.workspace

/-- **What a pipeline keeps is sound**, in whatever worlds it has been used. -/
theorem Used.sound {ws : Workspace} (h : p.Used ws) : ws.Sound p := by
  induction h with
  | fresh w => exact Workspace.sound_fresh w
  | @run ws _ w input output ih =>
    have hsound : ({ ws with world := w } : Workspace).Sound p := ih.inWorld w
    exact (run_writes input { workspace := { ws with world := w }, output := output } hsound).kept

/-- a pipeline that has served runs in one tree has been used -/
theorem Served.used {files : FileNode} {env : Environment} {ws : Workspace} (h : p.Served files env ws) : p.Used ws := by
  induction h with
  | fresh => exact .fresh _
  | @run ws _ fires input output ih => exact .run ih { ws.world with signal := fires } input output

end Pipeline

/-! ## The JSON of records -/

mutual
/-- the names of all fields of a value, at any depth -/
def Json.keys : Json → List String
  | .array items => itemKeys items
  | .object fields => fieldKeys fields
  | _ => []

def Json.itemKeys : List Json → List String
  | [] => []
  | item :: rest => item.keys ++ itemKeys rest

def Json.fieldKeys : List (String × Json) → List String
  | [] => []
  | (key, value) :: rest => key :: value.keys ++ fieldKeys rest
end

/-- the JSON of an entry: the number of a rule, its name unless that is empty, and a text -/
def entryJson (number : Int) (name text : String) : Json :=
  .object (("index", .ofInt number) :: (if name = "" then [] else [("name", .string name)]) ++
    [("result", .string text)])

/-- JSON of an entry of rule number `i` of those with some names, and of the text it was rewritten to: by one of the
normalizers with some names, or by none, under the number -1 and without a name -/
def SelectedJson (rules normalizers : List String) (i : Nat) (result : String) (j : Json) : Prop :=
  ∃ name text rewritten, rules[i]? = some name ∧ Filled text ∧ Filled result ∧
    (rewritten = entryJson (-1) "" text ∧ result = text ∨
      ∃ (k : Nat) (other : String), normalizers[k]? = some other ∧ rewritten = entryJson k other result) ∧
    j = .object [("origin", entryJson i name text), ("normalized", rewritten)]

/-- **JSON that a configuration admits** as a record: a path of the input and a line of a file, with their numbers, a
category and, unless runs stop behind the categories, a node of a rule for that category. -/
def Config.Admits (c : Config) (categoryOnly : Bool) (j : Json) : Prop :=
  ∃ number root linum content path i label category, 1 ≤ number ∧ Filled root ∧ 1 ≤ linum ∧
    SelectedJson (c.category.map (·.name)) (c.normalizer.category.map (·.name)) i label category ∧
    let front : List (String × Json) :=
      [("path", .object [("linum", .ofNat number), ("text", .string root)]),
        ("line", .object [("linum", .ofNat linum), ("content", .string content), ("path", .string path)]),
        ("category", category)]
    if categoryOnly then j = .object front
    else ∃ k rule value node, c.node[k]? = some rule ∧ rule.category.isMatch label = true ∧
      SelectedJson (c.node.map (·.name)) (c.normalizer.node.map (·.name)) k value node ∧
      j = .object (front ++ [("node", node)])

/-- a text that is not blank is not empty -/
theorem Filled.isEmpty {text : String} (h : Filled text) : text.isEmpty = false := by
  cases hempty : text.isEmpty with
  | false => rfl
  | true =>
    rw [String.isEmpty_iff.1 hempty] at h
    cases h

theorem Selection.json_of_ok {s : Selection} {text : String} (h : s.outcome = .ok text) :
    s.json = entryJson s.index s.name text := by
  unfold json entryJson ruleFields
  rw [h]
  by_cases hname : s.name = "" <;> simp [hname]

theorem Normalized.json_of_filled {n : Normalized} (h : Filled n.result) :
    n.json = entryJson n.number n.name n.result := by
  unfold json entryJson Selection.ruleFields
  rw [h.isEmpty]
  by_cases hname : n.name = "" <;> simp [hname]

/-- the JSON of an entry and what it was rewritten to -/
theorem Selected.From.json {α : Type} {rules : List α} {name : α → String} {Q : α → Prop}
    {normalizers : List Normalizer} {s : Selected} (h : s.From rules name Q normalizers) :
    SelectedJson (rules.map name) (normalizers.map (·.name)) s.origin.index s.normalized.result s.json := by
  obtain ⟨rule, hrule, hname, -⟩ := h.rule
  obtain ⟨text, htext, hfilled, hnormalized⟩ := h.text
  have hresult := hnormalized.filled hfilled
  refine ⟨s.origin.name, text, s.normalized.json, ?_, hfilled, hresult, ?_, ?_⟩
  · rw [List.getElem?_map, hrule, ← hname]
    rfl
  · rw [Normalized.json_of_filled hresult]
    rcases hnormalized with hidentity | ⟨i, other, hindex, hother, hname, -⟩
    · rw [hidentity]
      exact .inl ⟨rfl, rfl⟩
    · refine .inr ⟨i, s.normalized.name, ?_, ?_⟩
      · rw [List.getElem?_map, hother, ← hname]
        rfl
      · rw [Normalized.number, hindex]
  · rw [Selected.json, Selection.json_of_ok htext]

/-! ## Names of rules -/

namespace Pipeline

theorem compileRules_map {α β γ : Type} {what : String} {compile : Nat → α → Except ConfigError β} {f : β → γ} {g : α → γ}
    (hcompile : ∀ i rule r, compile i rule = .ok r → f r = g rule) {k : Nat} {rules : List α} {found : List β}
    (h : Selection.compileRules what compile k rules = .ok found) : found.map f = rules.map g := by
  induction rules generalizing k found with
  | nil =>
    cases h
    rfl
  | cons rule rest ih =>
    obtain ⟨first, hfirst, h⟩ := bind_eq_ok h
    obtain ⟨others, hothers, h⟩ := bind_eq_ok h
    cases h
    rw [List.map_cons, List.map_cons, hcompile k rule first (foundAt_eq_ok hfirst), ih hothers]

theorem category_name {env : Environment} {i : Nat} {rule : CategoryRule} {s : CategorySelector}
    (h : CategorySelector.compile env i rule = .ok s) : s.name = rule.name := by
  unfold CategorySelector.compile at h
  simp only at h
  split at h
  · obtain ⟨c, -, rfl⟩ := map_eq_ok h
    rfl
  · obtain ⟨c, -, rfl⟩ := map_eq_ok h
    rfl
  · cases h

theorem node_rule {env : Environment} {i : Nat} {rule : NodeRule} {s : NodeSelector}
    (h : NodeSelector.compile env i rule = .ok s) : (s.name, s.category) = (rule.name, rule.category) := by
  obtain ⟨c, -, rfl⟩ := map_eq_ok h
  rfl

theorem normalizer_name {env : Environment} {part : Part} {i : Nat} {rule : NormalizerRule} {n : Normalizer}
    (h : Normalizer.compile env part i rule = .ok n) : n.name = rule.name := by
  obtain ⟨c, -, rfl⟩ := map_eq_ok h
  rfl

theorem normalizer_names {env : Environment} {part : Part} {rules : List NormalizerRule} {found : List Normalizer}
    (h : compileNormalizers env part rules = .ok found) : found.map (·.name) = rules.map (·.name) := by
  have hrules : Selection.compileRules "normalizer" (Normalizer.compile env part) 0 rules = .ok found := h
  refine compileRules_map (fun i rule r hr => ?_) hrules
  exact normalizer_name hr

/-- a pipeline has the rules of a configuration, in its order -/
structure Names (p : Pipeline) (c : Config) : Prop where
  categories : p.categories.map (·.name) = c.category.map (·.name)
  nodes : p.nodes.map (fun s => (s.name, s.category)) = c.node.map fun rule => (rule.name, rule.category)
  categoryNormalizers : p.categoryNormalizers.map (·.name) = c.normalizer.category.map (·.name)
  nodeNormalizers : p.nodeNormalizers.map (·.name) = c.normalizer.node.map (·.name)

/-- **A pipeline that was built** has the rules of its configuration. -/
theorem build_names {env : Environment} {c : Config} {p : Pipeline} (h : Pipeline.build env c = .ok p)
    (categoryOnly : Bool) : { p with categoryOnly := categoryOnly }.Names c := by
  obtain ⟨ignore, -, h⟩ := bind_eq_ok h
  obtain ⟨categories, hcategories, h⟩ := bind_eq_ok h
  obtain ⟨nodes, hnodes, h⟩ := bind_eq_ok h
  obtain ⟨categoryNormalizers, hcategoryNormalizers, h⟩ := bind_eq_ok h
  obtain ⟨nodeNormalizers, hnodeNormalizers, h⟩ := bind_eq_ok h
  cases h
  constructor
  · have hrules : Selection.compileRules "category" (CategorySelector.compile env) 0 c.category = .ok categories :=
      hcategories
    refine compileRules_map (fun i rule r hr => ?_) hrules
    exact category_name hr
  · have hrules : Selection.compileRules "node" (NodeSelector.compile env) 0 c.node = .ok nodes := hnodes
    refine compileRules_map (fun i rule r hr => ?_) hrules
    exact node_rule hr
  · exact normalizer_names (foundAt_eq_ok hcategoryNormalizers)
  · exact normalizer_names (foundAt_eq_ok hnodeNormalizers)

end Pipeline

/-- **The JSON of a well-formed record** is one that the configuration admits. -/
theorem Record.WellFormed.admitted {p : Pipeline} {c : Config} {r : Record} (h : r.WellFormed p) (hnames : p.Names c) :
    c.Admits p.categoryOnly r.json := by
  have hcategory := h.category.json
  rw [hnames.categories, hnames.categoryNormalizers] at hcategory
  refine ⟨r.root.number, r.root.text, r.line.number, r.line.content, r.line.path, r.category.origin.index,
    r.category.normalized.result, r.category.json, h.root_number, h.root_text, h.line_number, hcategory, ?_⟩
  have hnode := h.node
  cases hr : r.node with
  | none =>
    rw [hr] at hnode
    rw [if_pos hnode, Record.json, hr]
    rfl
  | some node =>
    rw [hr] at hnode
    obtain ⟨honly, hfrom⟩ := hnode
    obtain ⟨rule, hrule, -, hmatch⟩ := hfrom.rule
    have hnames_nodes : p.nodes.map (·.name) = c.node.map (·.name) := by
      have := congrArg (List.map Prod.fst) hnames.nodes
      simpa [List.map_map, Function.comp_def] using this
    have hjson := hfrom.json
    rw [hnames_nodes, hnames.nodeNormalizers] at hjson
    have hsource : ∃ source, c.node[node.origin.index]? = some source ∧ source.category = rule.category := by
      have hat := congrArg (·[node.origin.index]?) hnames.nodes
      simp only [List.getElem?_map, hrule, Option.map_some] at hat
      obtain ⟨source, hsource, hpair⟩ := Option.map_eq_some_iff.1 hat.symm
      exact ⟨source, hsource, congrArg Prod.snd hpair⟩
    obtain ⟨source, hsource, hpattern⟩ := hsource
    rw [if_neg (by rw [honly]; exact Bool.false_ne_true)]
    refine ⟨node.origin.index, source, node.normalized.result, node.json, hsource, ?_, hjson, ?_⟩
    · rw [hpattern]
      exact hmatch
    · rw [Record.json, hr]
      rfl

/-! ## Outputs -/

/-- no field of an admitted record tells an error -/
theorem Config.Admits.no_err {c : Config} {categoryOnly : Bool} {j : Json} (h : c.Admits categoryOnly j) :
    "err" ∉ j.keys := by
  have hentry : ∀ number name text, "err" ∉ (entryJson number name text).keys := by
    intro number name text
    unfold entryJson
    by_cases hname : name = "" <;> simp [Json.keys, Json.fieldKeys, Json.ofInt, hname]
  have hselected : ∀ {rules normalizers i result j}, SelectedJson rules normalizers i result j → "err" ∉ j.keys := by
    rintro rules normalizers i result _ ⟨name, text, rewritten, -, -, -, hrewritten, rfl⟩
    have horigin := hentry i name text
    rcases hrewritten with ⟨rfl, -⟩ | ⟨k, other, -, rfl⟩
    · have hitself := hentry (-1) "" text
      simp [Json.keys, Json.fieldKeys, horigin, hitself]
    · have hother := hentry k other result
      simp [Json.keys, Json.fieldKeys, horigin, hother]
  obtain ⟨number, root, linum, content, path, i, label, category, -, -, -, hcategory, hrest⟩ := h
  have hcategory := hselected hcategory
  cases categoryOnly with
  | true =>
    have hrest : j = _ := hrest
    simp [hrest, Json.keys, Json.fieldKeys, Json.ofNat, hcategory]
  | false =>
    obtain ⟨k, rule, value, node, -, -, hnode, rfl⟩ := hrest
    have hnode := hselected hnode
    simp [Json.keys, Json.fieldKeys, Json.ofNat, hcategory, hnode]

/-- **Every record is well formed.** Let a pipeline be built from a configuration and used in any worlds, with any
signals and outputs. Whatever the world, the input and the room of a run are and however it ends, its output is made of
lines of JSON that the configuration admits, in which no field tells an error. If the run fails, a proper part of one
more such line may stand behind them, for which there was no room. -/
theorem Pipeline.output_admitted {env : Environment} {c : Config} {built : Pipeline}
    (hbuild : Pipeline.build env c = .ok built) (categoryOnly : Bool) {ws : Workspace}
    (hused : { built with categoryOnly := categoryOnly }.Used ws) (w : World) (input : Source) (limit : Option Nat)
    (failure : IoError) :
    let p : Pipeline := { built with categoryOnly := categoryOnly }
    let r := (p.run input).run
      { workspace := { ws with world := w }, output := { limit := limit, failure := failure } }
    ∃ rows : List Json,
      (∀ j ∈ rows, c.Admits categoryOnly j ∧ "err" ∉ j.keys ∧ '\n' ∉ j.render.toList) ∧
        (r.2.output.text = String.join (rows.map fun j => j.render ++ "\n") ∨
          ∃ e next front piece rest, r.1 = .error e ∧ c.Admits categoryOnly next ∧ "err" ∉ next.keys ∧
            next.pieces ++ ["\n"] = front ++ piece :: rest ∧
            r.2.output.text = String.join (rows.map fun j => j.render ++ "\n") ++ String.join front) := by
  intro p r
  let s : RunState := { workspace := { ws with world := w }, output := { limit := limit, failure := failure } }
  have hnames : p.Names c := build_names hbuild categoryOnly
  obtain ⟨records, hwrote⟩ := (run_writes input s (hused.sound.inWorld w)).wrote
  have hadmits : ∀ r ∈ records, c.Admits categoryOnly r.json := fun r hr => (hwrote.good r hr).admitted hnames
  have hrows : ∀ {part : List Record}, (∀ r ∈ part, r ∈ records) → ∀ j ∈ part.map Record.json,
      c.Admits categoryOnly j ∧ "err" ∉ j.keys ∧ '\n' ∉ j.render.toList := by
    intro part hpart j hj
    obtain ⟨r, hr, rfl⟩ := List.mem_map.1 hj
    exact ⟨hadmits r (hpart r hr), (hadmits r (hpart r hr)).no_err, r.newline_notMem⟩
  have htext : ∀ part : List Record, String.join (rowPieces part) =
      String.join ((part.map Record.json).map fun j => j.render ++ "\n") := by
    intro part
    rw [join_rowPieces, List.map_map]
    rfl
  have hempty : ∀ pieces, (s.output.written pieces).text = String.join pieces := fun pieces =>
    (s.output.written_text pieces).trans String.empty_append
  by_cases hfits : s.output.Fits (rowPieces records)
  · refine ⟨records.map Record.json, hrows fun _ hr => hr, .inl ?_⟩
    have houtput : r.2.output = s.output.written (rowPieces records) := by
      have hrun : r = _ := hwrote.fits limit hfits
      rw [hrun]
      change (((p.run input).freely s).2.output).capped limit = _
      rw [hwrote.output]
      rfl
    rw [houtput, hempty, htext]
  · obtain ⟨before, next, after, rfl, -, herror, hstops⟩ := hwrote.full limit (fun _ _ => Nat.zero_le _) hfits
    obtain ⟨front, piece, rest, hsplit, hleft⟩ := hstops.text
    have hnext := hadmits next (List.mem_append_right _ List.mem_cons_self)
    refine ⟨before.map Record.json, hrows fun r hr => List.mem_append_left _ hr, .inr ?_⟩
    refine ⟨_, next.json, front, piece, rest, herror, hnext, hnext.no_err, hsplit, ?_⟩
    rw [← htext, ← hempty (rowPieces before)]
    exact hleft

/-- behind a run in an empty tree, the pipeline writes a line that its configuration admits for the file of another -/
theorem Pipeline.output_admitted_small :
    let first := (smallPipeline.run smallInput).run { workspace := {}, output := {} }
    let r := (smallPipeline.run smallInput).run
      { workspace := { first.2.workspace with world := World.fresh smallTree ⟨[]⟩ }, output := {} }
    r.1 = .ok ⟨1, 1, 1⟩ ∧ ∃ rows : List Json, (∀ j ∈ rows, smallConfig.Admits false j) ∧
      smallRecord.row = String.join (rows.map fun j => j.render ++ "\n") := by
  intro first r
  have hused : smallPipeline.Used first.2.workspace := .run (.fresh {}) {} smallInput {}
  have hok : r.1 = .ok ⟨1, 1, 1⟩ := by decide +kernel
  have htext : r.2.output.text = smallRecord.row := by decide +kernel
  obtain ⟨rows, hrows, hwhole | ⟨e, _, _, _, _, he, -⟩⟩ :=
    output_admitted smallPipeline_built false hused (World.fresh smallTree ⟨[]⟩) smallInput none
      (.brokenPipe "Broken pipe (os error 32)")
  · exact ⟨hok, rows, fun j hj => (hrows j hj).1, htext.symm.trans hwhole⟩
  · cases hok.symm.trans he

end Gleaner
