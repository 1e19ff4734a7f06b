/-
What trying a pattern tells of a chain.

Two paths look for the matches of a line. One shows them: the groups of each, or a template filled in from all
(`Command.shown`). The other one is a chain of one stage with the same pattern and template, which gives texts and none
that is blank. What the first shows tells what the second gives (`Foretells`): the whole matches or the filled template
without what is blank in it, and no match if nothing is left or the line is not shown at all.

Results:
- `tryLines_eq`: what is written for the lines of an input;
- `lineJson_parse`: each of these lines is an object that can be read back;
- `stageFor_foretold`: the stage gives what is shown;
- `tryPattern_foretells`: all of it for any pattern and input.
-/
import Gleaner.Command.Basic
import Gleaner.Proofs.Classifying
import Gleaner.Proofs.Duties
import Gleaner.Proofs.JsonValues
import Gleaner.Proofs.Patterns

namespace Gleaner

open Act

variable {p : Regex.Pattern} {template : Option String}

/-! ## What is written -/

namespace Command

/-- the groups of the matches of a text -/
def listed (p : Regex.Pattern) (text : String) : List (List String) := (p.findAll text).map Regex.Match.texts

/-- a template filled in from all matches of a text -/
def expansion (p : Regex.Pattern) (template text : String) : String :=
  String.join ((p.findAll text).map (·.expand template))

/-- what is shown of the matches of a text -/
def shown (p : Regex.Pattern) (template : Option String) (text : String) : Json :=
  match template with
  | none => .array ((listed p text).map .ofStrings)
  | some t => .string (expansion p t text)

/-- the object that is written for a line -/
def lineJson (p : Regex.Pattern) (template : Option String) (line : ReadLine) : Json :=
  .object [("linum", .ofNat line.number), ("text", .string line.text), ("matches", shown p template line.text)]

theorem foundJson_eq_shown (p : Regex.Pattern) (template : Option String) (text : String) :
    foundJson template (p.findAll text) = shown p template text := by
  cases template with
  | none => simp only [foundJson, shown, listed, List.map_map, Function.comp_def]
  | some t => rfl

/-- an object is written just for a line that has a match -/
theorem matchedJson?_eq (line : ReadLine) :
    matchedJson? p template line = if p.isMatch line.text then some (lineJson p template line) else none := by
  have hnone := p.findAll_isEmpty line.text
  rw [lineJson, ← foundJson_eq_shown]
  unfold matchedJson?
  cases hfound : p.findAll line.text with
  | nil =>
    rw [hfound] at hnone
    have hmatch : p.isMatch line.text = false := by simpa using hnone
    rw [hmatch]
    rfl
  | cons first rest =>
    rw [hfound] at hnone
    have hmatch : p.isMatch line.text = true := by simpa using hnone
    rw [hmatch]
    rfl

/-- **One line is written for each line that has a match**, in order. -/
theorem tryLines_eq {lines : List ReadLine} (h : ∀ l ∈ lines, l.error = none) :
    tryLines p template lines =
      ((lines.filter fun l => p.isMatch l.text).map fun l => (lineJson p template l).render, none) := by
  induction lines with
  | nil => rfl
  | cons line rest ih =>
    obtain ⟨herror, hrest⟩ := List.forall_mem_cons.1 h
    rw [tryLines, herror]
    simp only [ih hrest, matchedJson?_eq]
    cases hmatch : p.isMatch line.text with
    | true => rw [List.filter_cons_of_pos (by exact hmatch)]; rfl
    | false => rw [List.filter_cons_of_neg (by simp [hmatch])]; rfl

/-- lists of groups enclose one another twice -/
theorem shown_shallow (n : Nat) (p : Regex.Pattern) (template : Option String) (text : String) :
    (shown p template text).Shallow (n + 2) := by
  cases template with
  | none =>
    refine .array fun j hj => ?_
    obtain ⟨groups, -, rfl⟩ := List.mem_map.1 hj
    refine .array fun item hitem => ?_
    obtain ⟨group, -, rfl⟩ := List.mem_map.1 hitem
    exact .string group
  | some t => exact .string _

/-- **What is written for a line** is read back as the object for the line. -/
theorem lineJson_parse (line : ReadLine) :
    Json.parse (lineJson p template line).render = .ok (lineJson p template line) := by
  have hshallow : (lineJson p template line).Shallow 127 := by
    refine .object (List.forall_mem_cons.2 ⟨.number line.number, List.forall_mem_cons.2 ⟨.string line.text, ?_⟩⟩)
    exact List.forall_mem_singleton.2 (shown_shallow 124 p template line.text)
  have hparse := Json.parse_shallow hshallow (.inl rfl)
  rwa [String.append_empty] at hparse

/-- an input is read to its end -/
def ReadsToEnd (input : Source) (w : World) : Prop :=
  (scan input (fun n => w.signal (w.looks + n)) fun _ => true).2 = .exhausted

theorem readLines_toEnd {input : Source} {w : World} (h : ReadsToEnd input w) :
    (Act.readLines input w).1 = numberedBehind 0 input.texts := by
  have hscan : scan input (fun n => w.signal (w.looks + n)) (fun _ => true) = _ := scan_eq_calls _ _ 0 input
  have hstreams := scanCalls_streams (fun n => w.signal (w.looks + n)) (fun _ => true) 0 input
  rw [ReadsToEnd, hscan] at h
  exact (congrArg Prod.fst hscan).trans (hstreams.exhausted.1 h).1

end Command

/-! ## What a chain gives -/

/-- what is not blank among texts -/
def kept (texts : List String) : List String := texts.filter fun text => !Text.isBlank text

theorem dropBlank_of_ne_nil {kind : String} {texts : List String} (h : kept texts ≠ []) :
    Stage.dropBlank kind texts = .ok (kept texts) := by
  unfold Stage.dropBlank
  split
  · rename_i hnone
    exact absurd hnone h
  · rfl

theorem dropBlank_of_nil {kind : String} {texts : List String} (h : kept texts = []) :
    Stage.dropBlank kind texts = .error (.unmatched (kind ++ " produced only blank output")) := by
  have hfilter : (texts.filter fun text => !Text.isBlank text) = [] := h
  rw [Stage.dropBlank, hfilter]

/-- a result is what is shown without the blank texts in it, and no match if none is left or nothing is shown at all -/
structure Foretells (printed : Bool) (texts : List String) (r : MatchResult) : Prop where
  outputs : printed = true → kept texts ≠ [] → r = .ok (kept texts)
  nothing : printed = false ∨ kept texts = [] → Unmatched r

/-- what a stage finds, without what is blank in it -/
theorem foretells_dropBlank {printed matched : Bool} {what kind : String} {texts : List String}
    (h : printed = true → kept texts ≠ [] → matched = true) (h' : printed = false → matched = false) :
    Foretells printed texts (Stage.whenMatched matched what texts >>= Stage.dropBlank kind) := by
  cases matched with
  | false =>
    have hnothing : Unmatched (Stage.whenMatched false what texts >>= Stage.dropBlank kind) := ⟨_, rfl, rfl⟩
    exact ⟨fun hprinted hkept => absurd (h hprinted hkept) Bool.false_ne_true, fun _ => hnothing⟩
  | true =>
    have hdrop : (Stage.whenMatched true what texts >>= Stage.dropBlank kind) = Stage.dropBlank kind texts := rfl
    rw [hdrop]
    refine ⟨fun _ hkept => dropBlank_of_ne_nil hkept, fun hnone => ?_⟩
    rcases hnone with hprinted | hkept
    · cases h' hprinted
    · rw [dropBlank_of_nil hkept]
      exact ⟨_, rfl, rfl⟩

/-- a chain of one stage gives what its stage gives -/
theorem Foretells.run_single {printed : Bool} {texts : List String} {s : Stage} {place : Place} {text : String}
    {w : World} (h : Foretells printed texts (s.apply place true text w).1) :
    Foretells printed texts ((⟨place, [s]⟩ : Chain).run text w).1 := by
  rw [Chain.run_single]
  refine ⟨fun hprinted hkept => ?_, fun hnone => ?_⟩
  · rw [h.outputs hprinted hkept]
  · obtain ⟨e, he, hunmatched⟩ := h.nothing hnone
    rw [he]
    simp only [hunmatched, if_true]
    exact ⟨_, rfl, rfl⟩

namespace Command

/-- the texts among what is shown that a chain gives: the first group of each match, or the filled template -/
def promised (p : Regex.Pattern) (template : Option String) (text : String) : List String :=
  match template with
  | none => (listed p text).filterMap List.head?
  | some t => [expansion p t text]

/-- the entry of a chain with a pattern and a template -/
def specFor (p : Regex.Pattern) : Option String → StageSpec
  | none => .ofRegex p
  | some t => (StageSpec.ofRegex p).withTemplate t

def stageFor (p : Regex.Pattern) : Option String → Stage
  | none => .regex p []
  | some t => .template p t

theorem compile_specFor (env : Environment) (place : Place) (h : ∀ t, template = some t → Text.isBlank t = false) :
    Chain.compile env place [specFor p template] = .ok ⟨place, [stageFor p template]⟩ := by
  cases template with
  | none => rfl
  | some t =>
    have hblank : (specFor p (some t)).blankField? = none := by
      simp [specFor, StageSpec.blankField?, StageSpec.ofRegex, StageSpec.withTemplate, h t rfl]
    have hvalid : (specFor p (some t)).validate = .ok () := by
      rw [StageSpec.validate, hblank]
      rfl
    rw [Chain.compile, Chain.compileFrom, hvalid]
    rfl

/-- the first groups of the matches that are listed are the whole matches -/
theorem promised_listed {regex : String} (hp : Regex.Pattern.compile regex = .ok p) (text : String) :
    promised p none text = (p.findAll text).map Regex.Match.whole := by
  rw [promised, listed, List.filterMap_map, ← List.filterMap_eq_map]
  refine List.filterMap_congr fun m hm => Regex.Match.head?_texts ?_
  rw [Regex.Pattern.length_groups hp hm]
  exact Regex.Pattern.groupNames_pos hp

/-- **A stage of the pattern and the template** gives what is shown. -/
theorem stageFor_foretold {regex : String} (hp : Regex.Pattern.compile regex = .ok p) (template : Option String)
    (place : Place) (text : String) (w : World) :
    Foretells (p.isMatch text) (promised p template text) ((stageFor p template).apply place true text w).1 := by
  have hnone := p.findAll_isEmpty text
  cases template with
  | none =>
    have happly : ((stageFor p none).apply place true text w).1 =
        Stage.whenMatched (!(p.findAll text).isEmpty) "regex" ((p.findAll text).map (·.whole)) >>=
          Stage.dropBlank "regex" := rfl
    rw [happly, hnone, Bool.not_not, promised_listed hp]
    exact foretells_dropBlank (fun hmatch _ => hmatch) id
  | some t =>
    have happly : ((stageFor p (some t)).apply place true text w).1 =
        Stage.whenMatched (!(expansion p t text).isEmpty) "template" [expansion p t text] >>=
          Stage.dropBlank "template" := rfl
    rw [happly]
    refine foretells_dropBlank (fun _ hkept => ?_) fun hmatch => ?_
    · -- an empty text is blank
      by_contra hempty
      refine hkept ?_
      have hblank : expansion p t text = "" := by simpa using hempty
      rw [promised, hblank]
      rfl
    · have hfound : p.findAll text = [] := by simpa [hmatch] using hnone
      simp [expansion, hfound]

/-- **What is shown of a pattern foretells what a chain gives.** For an input that is read to its end an object is
written for each line that has a match, in order, which is read back with the number and the text of the line. It
lists a text for each group of each match, or shows the filled template; and a chain of the pattern and the template
gives, in any world and wherever it stands, the whole matches that are listed or the filled template, without what is
blank, and has no match if nothing is left or the line is not shown. -/
theorem tryPattern_foretells {regex : String} {input : Source} {w : World} (hp : Regex.Pattern.compile regex = .ok p)
    (htemplate : ∀ t, template = some t → Text.isBlank t = false) (hend : ReadsToEnd input w) :
    let lines := numberedBehind 0 input.texts
    (tryPattern regex template input w).1 =
      ((lines.filter fun l => p.isMatch l.text).map fun l => (lineJson p template l).render, none) ∧
    (∀ l, Json.parse (lineJson p template l).render = .ok (lineJson p template l)) ∧
    (∀ text, ∀ groups ∈ listed p text, groups.length = p.groupNames.size) ∧
    ∀ env place, ∃ c, Chain.compile env place [specFor p template] = .ok c ∧
      ∀ text v, Foretells (p.isMatch text) (promised p template text) (c.run text v).1 := by
  refine ⟨?_, lineJson_parse, fun text groups hgroups => ?_, fun env place => ?_⟩
  · have herrors : ∀ l ∈ numberedBehind 0 input.texts, l.error = none := by
      intro l hl
      obtain ⟨i, hi, rfl⟩ := List.mem_mapIdx.1 hl
      rfl
    have hrun : (tryPattern regex template input w).1 = tryLines p template (Act.readLines input w).1 := by
      rw [tryPattern, hp]
      rfl
    rw [hrun, readLines_toEnd hend, tryLines_eq herrors]
  · obtain ⟨m, hm, rfl⟩ := List.mem_map.1 hgroups
    rw [m.length_texts, Regex.Pattern.length_groups hp hm]
  · exact ⟨_, compile_specFor env place htemplate,
      fun text v => (stageFor_foretold hp template place text v).run_single⟩

/-- a pattern with a template, tried on two lines: what is shown for the first is what a chain gives -/
theorem tryPattern_foretells_first :
    let input : Source := ⟨[97, 10, 98, 10], none⟩
    ∃ p, Regex.Pattern.compile "a" = .ok p ∧ ReadsToEnd input {} ∧ (tryPattern "a" (some "b$0") input {}).1.2 = none ∧
      ∃ c, Chain.compile ⟨[]⟩ {} [specFor p (some "b$0")] = .ok c ∧ (c.run "a" {}).1 = .ok ["ba"] ∧
        Unmatched (c.run "b" {}).1 := by
  intro input
  have hcompile : (Regex.Pattern.compile "a").toOption.map (fun p =>
      (p.isMatch "a", expansion p "b$0" "a", p.isMatch "b")) = some (true, "ba", false) := by decide +kernel
  cases hp : Regex.Pattern.compile "a" with
  | error e =>
    rw [hp] at hcompile
    cases hcompile
  | ok p =>
    rw [hp] at hcompile
    simp only [Except.toOption, Option.map_some, Option.some.injEq, Prod.mk.injEq] at hcompile
    obtain ⟨hmatch, hexpansion, hmiss⟩ := hcompile
    have htemplate : ∀ t, some "b$0" = some t → Text.isBlank t = false := by
      rintro _ ⟨⟩
      decide +kernel
    have hend : ReadsToEnd input {} := by
      unfold ReadsToEnd
      decide +kernel
    obtain ⟨hwritten, -, -, hchain⟩ := tryPattern_foretells hp htemplate hend
    obtain ⟨c, hc, hforetold⟩ := hchain ⟨[]⟩ {}
    have hkept : kept (promised p (some "b$0") "a") = ["ba"] := by
      rw [promised, hexpansion]
      decide +kernel
    have hgives := (hforetold "a" {}).outputs hmatch (by rw [hkept]; exact List.cons_ne_nil _ _)
    rw [hkept] at hgives
    exact ⟨p, rfl, hend, congrArg Prod.snd hwritten, c, hc, hgives, (hforetold "b" {}).nothing (.inl hmiss)⟩

end Command

end Gleaner
