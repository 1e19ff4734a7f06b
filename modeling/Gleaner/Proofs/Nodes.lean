/-
Trees that are read from tokens.

A tree of texts, lists and tables (`Tree.Written`) has its tokens in block form (`blockTokens`), where a list that is
the value of a field stands at the column of its table and has no tokens of its own around it, and in flow form
(`flowTokens`). From either the reader gets the tree back, and leaves what follows.

Every reader spends one step of its fuel on each call; three steps for each token are enough.

Results:
- `Reader.node_blockTokens`, `Reader.node_flowTokens`: what is read of a tree in the middle of others;
- `parse_of_reads`: what is read of the tokens of one tree.
-/
import Gleaner.Yaml.Node
import Gleaner.Yaml.Printer
import Mathlib.Tactic

namespace Gleaner

/-! ## Trees that are written -/

/-- names of fields: short words of letters that are no nulls -/
def Yaml.isWord (s : String) : Bool :=
  !s.isEmpty && s.toList.all Char.isAlpha && s.toList.length ≤ 1000 && !Yaml.isNullText s

/-- trees of texts, lists and tables, with words as keys and texts that satisfy `P` -/
inductive Tree.Written (P : String → Prop) : Tree → Prop where
  | text {s : String} (h : P s) : Written P (.text s)
  | list {items : List Tree} (h : ∀ t ∈ items, Written P t) : Written P (.list .items items)
  | table {fields : List (String × Tree)} (hkeys : ∀ f ∈ fields, Yaml.isWord f.1 = true)
      (h : ∀ f ∈ fields, Written P f.2) : Written P (.table fields)

namespace Yaml

/-- the letters of a word -/
theorem exists_letters {s : String} (hs : isWord s = true) :
    ∃ x xs, s.toList = x :: xs ∧ (∀ y ∈ x :: xs, y.isAlpha = true) ∧ (x :: xs).length ≤ 1000 := by
  simp only [isWord, Bool.and_eq_true, Bool.not_eq_true', decide_eq_true_eq, List.all_eq_true] at hs
  obtain ⟨⟨⟨hempty, halpha⟩, hlength⟩, -⟩ := hs
  have hne : s.toList ≠ [] := by
    intro hnil
    rw [String.toList_eq_nil_iff.1 hnil] at hempty
    cases hempty
  obtain ⟨x, xs, hcs⟩ := List.exists_cons_of_ne_nil hne
  exact ⟨x, xs, hcs, hcs ▸ halpha, hcs ▸ hlength⟩

mutual
/-- the tokens of a value in block form; `inList` tells whether it is an item of a list -/
def blockTokens (inList : Bool) : Tree → List Token
  | .list _ items =>
    if items.isEmpty then [.flowListStart, .flowListEnd]
    else if inList then .blockListStart :: (itemTokens items ++ [.blockEnd])
    else itemTokens items
  | .table fields =>
    if fields.isEmpty then [.flowTableStart, .flowTableEnd]
    else .blockTableStart :: (fieldTokens fields ++ [.blockEnd])
  | .text s => [.text s (style s = .plain)]
  | _ => [.text "null" true]

def itemTokens : List Tree → List Token
  | [] => []
  | item :: rest => .listEntry :: (blockTokens true item ++ itemTokens rest)

def fieldTokens : List (String × Tree) → List Token
  | [] => []
  | (key, value) :: rest => .key :: .text key true :: .value :: (blockTokens false value ++ fieldTokens rest)
end

mutual
/-- the tokens of a value between brackets and commas, all texts being quoted -/
def flowTokens : Tree → List Token
  | .list _ items => .flowListStart :: (flowItemTokens items ++ [.flowListEnd])
  | .table fields => .flowTableStart :: (flowFieldTokens fields ++ [.flowTableEnd])
  | .text s => [.text s false]
  | _ => [.text "null" true]

def flowItemTokens : List Tree → List Token
  | [] => []
  | [item] => flowTokens item
  | item :: rest => flowTokens item ++ .flowEntry :: flowItemTokens rest

def flowFieldTokens : List (String × Tree) → List Token
  | [] => []
  | [(key, value)] => .key :: .text key false :: .value :: flowTokens value
  | (key, value) :: rest =>
    .key :: .text key false :: .value :: (flowTokens value ++ .flowEntry :: flowFieldTokens rest)
end

/-! ## One node -/

/-- tokens that begin an item of a list -/
def startsItem : Token → Bool
  | .text _ _ | .flowListStart | .flowTableStart | .blockListStart | .blockTableStart => true
  | _ => false

namespace Reader

variable {r : Reader} {fuel : Nat} {block level : Bool} {rest : List Token}

/-- the reader behind some tokens -/
def behind (r : Reader) (rest : List Token) (events : Nat) : Reader := { r with tokens := rest, events := events }

theorem behind_tokens (events : Nat) : (r.behind rest events).tokens = rest := rfl

theorem behind_behind (rest' : List Token) (events events' : Nat) :
    (r.behind rest events).behind rest' events' = r.behind rest' events' := rfl

theorem peek_eq {t : Token} (h : r.tokens = t :: rest) : r.peek = some t := by rw [peek, h]; rfl

theorem next_eq {t : Token} (h : r.tokens = t :: rest) : r.next = r.behind rest r.events := by
  rw [next, h]
  rfl

theorem sees_eq {t : Token} (h : r.tokens = t :: rest) (ts : List Token) : r.sees ts = ts.contains t := by
  rw [sees, peek_eq h, Option.any_some]

/-- a token that begins an item is none of the tokens that end or separate -/
theorem contains_of_startsItem {t : Token} (ht : startsItem t = true) {stops : List Token}
    (hstops : ∀ t ∈ stops, startsItem t = false) : stops.contains t = false := by
  rw [List.contains_eq_any_beq, List.any_eq_false]
  intro t' ht' heq
  rw [beq_iff_eq.1 heq, hstops t' ht'] at ht
  cases ht

theorem not_sees {t : Token} (h : r.tokens = t :: rest) (ht : startsItem t = true) {ts : List Token}
    (hts : ∀ t ∈ ts, startsItem t = false) : r.sees ts = false := by
  rw [sees_eq h, contains_of_startsItem ht hts]

/-- what is read of a node behind its first token, which is no name and no tag -/
def parts (fuel : Nat) (block level : Bool) (r : Reader) : Token → Except YamlError (Node × Reader)
  | .text s plain => .ok ({ tree := scalarTree s plain none }, r.next)
  | .flowListStart => flowItems fuel true {} r.next
  | .flowTableStart => flowFields fuel true {} r.next
  | .listEntry => if level then levelItems fuel {} r else .error .unexpectedToken
  | .blockListStart => if block then blockItems fuel {} r.next else .error .unexpectedToken
  | .blockTableStart => if block then blockFields fuel {} r.next else .error .unexpectedToken
  | _ => .error .unexpectedToken

/-- tokens that begin a node without a name or a tag -/
def startsNode (t : Token) : Bool := startsItem t || t = .listEntry

theorem bind_pair {ε α β : Type} (x : Except ε (α × β)) : (do let (a, b) ← x; pure (a, b)) = x := by
  cases x <;> rfl

theorem node_eq {t : Token} (h : r.tokens = t :: rest) (ht : startsNode t = true) :
    node (fuel + 1) block level r = parts fuel block level r.count t := by
  have hcount : r.count.peek = some t := peek_eq h
  cases t with
  | text => simp only [node, peek_eq h, properties, bind, Except.bind, pure, Except.pure, hcount, parts, leaf]; rfl
  | flowListStart | flowTableStart =>
    simp only [node, peek_eq h, properties, bind, Except.bind, pure, Except.pure, hcount, parts]
    exact bind_pair _
  | listEntry | blockListStart | blockTableStart =>
    simp only [node, peek_eq h, properties, bind, Except.bind, pure, Except.pure, hcount, parts]
    split
    · exact bind_pair _
    · rfl
  | _ => cases ht

/-! ## Nodes in flow form -/

/-- the reader gets a tree back from some tokens of it, wherever they stand -/
def Reads (block level : Bool) (ts : List Token) (t : Tree) : Prop :=
  ∀ fuel (r : Reader) rest, r.tokens = ts ++ rest → 3 * ts.length ≤ fuel → (level = true → rest.head? ≠ some .listEntry) →
    ∃ events, node fuel block level r = .ok ({ tree := t }, r.behind rest events)

theorem reads_text {s : String} {plain : Bool} (hplain : plain = true → isNullText s = false ∧ s.isEmpty = false) :
    Reads block level [.text s plain] (.text s) := by
  intro fuel r rest hr hfuel _
  obtain ⟨fuel, rfl⟩ : ∃ n, fuel = n + 1 := ⟨fuel - 1, by simp at hfuel; omega⟩
  refine ⟨r.events + 1, ?_⟩
  have htree : scalarTree s plain none = .text s := by
    cases plain with
    | false => rfl
    | true =>
      obtain ⟨hnull, hempty⟩ := hplain rfl
      simp [scalarTree, hnull, hempty]
  rw [node_eq hr rfl, parts, htree]
  simp only [next, count, behind, hr, List.singleton_append, List.tail_cons]

theorem flowTokens_head {P : String → Prop} {t : Tree} (h : t.Written P) :
    ∃ first more, flowTokens t = first :: more ∧ startsItem first = true := by
  cases h with
  | text => exact ⟨_, _, by rw [flowTokens], rfl⟩
  | list => exact ⟨_, _, by rw [flowTokens], rfl⟩
  | table => exact ⟨_, _, by rw [flowTokens], rfl⟩

theorem flowItems_entry {p : Parts} (h : r.tokens = .flowEntry :: rest) :
    flowItems (fuel + 1) false p r = flowItems (fuel + 1) true p (r.behind rest r.events) := by
  have hend : r.sees [.flowListEnd] = false := by rw [sees_eq h]; rfl
  have hentry : r.sees [.flowEntry] = true := by rw [sees_eq h]; rfl
  rw [flowItems, flowItems]
  simp only [hend, hentry, next_eq h, Bool.false_eq_true, if_false, if_true, pure_bind]
  split <;> rfl

/-- the item that begins here, and what follows it -/
theorem flowItems_item {t : Tree} (h : Reads false false (flowTokens t) t)
    (hhead : ∃ first more, flowTokens t = first :: more ∧ startsItem first = true) (done : List Tree)
    (hr : r.tokens = flowTokens t ++ rest) (hfuel : 3 * (flowTokens t).length ≤ fuel) :
    ∃ events, flowItems (fuel + 1) true { items := done } r =
      flowItems fuel false { items := t :: done } (r.behind rest events) := by
  obtain ⟨first, more, htokens, hstarts⟩ := hhead
  have hfirst : r.tokens = first :: (more ++ rest) := by rw [hr, htokens, List.cons_append]
  have hend : r.sees [.flowListEnd] = false := not_sees hfirst hstarts (by simp [startsItem])
  have hkey : r.sees [.key] = false := not_sees hfirst hstarts (by simp [startsItem])
  obtain ⟨events, hnode⟩ := h fuel r rest hr hfuel nofun
  refine ⟨events, ?_⟩
  rw [flowItems]
  simp only [hend, hkey, Bool.false_eq_true, if_false, if_true, pure_bind, hnode]
  rfl

/-- further items of a list between brackets -/
theorem flowItems_more {items : List Tree} (h : ∀ t ∈ items, Reads false false (flowTokens t) t)
    (hhead : ∀ t ∈ items, ∃ first more, flowTokens t = first :: more ∧ startsItem first = true) (done : List Tree)
    (hr : r.tokens = items.flatMap (fun t => .flowEntry :: flowTokens t) ++ .flowListEnd :: rest)
    (hfuel : 3 * (items.flatMap fun t => Token.flowEntry :: flowTokens t).length < fuel) :
    ∃ events, flowItems fuel false { items := done } r =
      .ok ({ tree := .list .items (done.reverse ++ items) }, r.behind rest events) := by
  induction items generalizing fuel r done with
  | nil =>
    obtain ⟨fuel, rfl⟩ : ∃ n, fuel = n + 1 := ⟨fuel - 1, by omega⟩
    refine ⟨r.events + 1, ?_⟩
    have hend : r.sees [.flowListEnd] = true := by rw [sees_eq hr]; rfl
    rw [flowItems]
    simp only [hend, if_true, Parts.list, List.append_nil]
    rw [next_eq hr]
    rfl
  | cons t items ih =>
    obtain ⟨fuel, rfl⟩ : ∃ n, fuel = n + 1 := ⟨fuel - 1, by omega⟩
    rw [List.flatMap_cons, List.cons_append, List.cons_append, List.append_assoc] at hr
    rw [List.flatMap_cons, List.cons_append, List.length_cons, List.length_append] at hfuel
    have hself : 3 * (flowTokens t).length ≤ fuel := by omega
    have hothers : 3 * (items.flatMap fun t => Token.flowEntry :: flowTokens t).length < fuel := by omega
    obtain ⟨events, hitem⟩ := flowItems_item (r := r.behind _ r.events) (h t List.mem_cons_self)
      (hhead t List.mem_cons_self) done rfl hself
    obtain ⟨events', hmore⟩ := ih (r := (r.behind _ r.events).behind _ events)
      (fun t ht => h t (List.mem_cons_of_mem _ ht)) (fun t ht => hhead t (List.mem_cons_of_mem _ ht)) (t :: done) rfl
      hothers
    refine ⟨events', ?_⟩
    rw [flowItems_entry hr, hitem, hmore]
    simp [behind_behind]

theorem flowItemTokens_cons (t : Tree) (items : List Tree) :
    flowItemTokens (t :: items) = flowTokens t ++ items.flatMap fun t => .flowEntry :: flowTokens t := by
  induction items generalizing t with
  | nil => rw [flowItemTokens, List.flatMap_nil, List.append_nil]
  | cons t' items ih => simp only [flowItemTokens, ih, List.flatMap_cons, List.cons_append]

theorem reads_flowList {items : List Tree} (h : ∀ t ∈ items, Reads false false (flowTokens t) t)
    (hhead : ∀ t ∈ items, ∃ first more, flowTokens t = first :: more ∧ startsItem first = true) :
    Reads block level (flowTokens (.list .items items)) (.list .items items) := by
  intro fuel r rest hr hfuel _
  rw [flowTokens, List.cons_append, List.append_assoc] at hr
  rw [flowTokens, List.length_cons, List.length_append, List.length_singleton] at hfuel
  obtain ⟨fuel, rfl⟩ : ∃ n, fuel = n + 2 := ⟨fuel - 2, by omega⟩
  have hnode : node (fuel + 2) block level r =
      flowItems (fuel + 1) true {} (r.behind (flowItemTokens items ++ .flowListEnd :: rest) (r.events + 1)) := by
    rw [node_eq hr rfl, parts, next_eq (r := r.count) hr]
    rfl
  cases items with
  | nil =>
    refine ⟨r.events + 2, ?_⟩
    rw [flowItemTokens, List.nil_append] at hnode
    rw [hnode, flowItems, if_pos (by rw [sees_eq (behind_tokens _)]; rfl)]
    rfl
  | cons t items =>
    rw [flowItemTokens_cons, List.append_assoc] at hnode
    rw [flowItemTokens_cons, List.length_append] at hfuel
    have hself : 3 * (flowTokens t).length ≤ fuel := by omega
    have hothers : 3 * (items.flatMap fun t => Token.flowEntry :: flowTokens t).length < fuel := by omega
    obtain ⟨events, hitem⟩ := flowItems_item (r := r.behind _ (r.events + 1)) (h t List.mem_cons_self)
      (hhead t List.mem_cons_self) [] rfl hself
    obtain ⟨events', hmore⟩ := flowItems_more (r := (r.behind _ (r.events + 1)).behind _ events)
      (fun t ht => h t (List.mem_cons_of_mem _ ht)) (fun t ht => hhead t (List.mem_cons_of_mem _ ht)) [t] rfl hothers
    exact ⟨events', hnode.trans (hitem.trans hmore)⟩

theorem flowFields_entry {p : Parts} (h : r.tokens = .flowEntry :: rest) :
    flowFields (fuel + 1) false p r = flowFields (fuel + 1) true p (r.behind rest r.events) := by
  have hend : r.sees [.flowTableEnd] = false := by rw [sees_eq h]; rfl
  have hentry : r.sees [.flowEntry] = true := by rw [sees_eq h]; rfl
  rw [flowFields, flowFields]
  simp only [hend, hentry, next_eq h, Bool.false_eq_true, if_false, if_true, pure_bind]
  split <;> rfl

/-- a node that is there is read even where it might be missing -/
theorem nodeUnless_eq {t : Token} (h : r.tokens = t :: rest) {stops : List Token} (ht : stops.contains t = false) :
    nodeUnless (fuel + 1) stops block level r = node fuel block level r := by
  rw [nodeUnless, sees_eq h, ht, if_neg Bool.false_ne_true]

/-- the tokens of a field between brackets -/
def flowField (f : String × Tree) : List Token := .key :: .text f.1 false :: .value :: flowTokens f.2

theorem flowFieldTokens_cons (f : String × Tree) (fields : List (String × Tree)) :
    flowFieldTokens (f :: fields) = flowField f ++ fields.flatMap fun f => .flowEntry :: flowField f := by
  induction fields generalizing f with
  | nil => rw [flowFieldTokens, List.flatMap_nil, List.append_nil]; rfl
  | cons f' fields ih =>
    simp only [flowFieldTokens, ih, List.flatMap_cons, List.cons_append, flowField]

/-- the field that begins here, and what follows it -/
theorem flowFields_field {f : String × Tree} (h : Reads false false (flowTokens f.2) f.2)
    (hhead : ∃ first more, flowTokens f.2 = first :: more ∧ startsItem first = true) (done : List (String × Tree))
    (hr : r.tokens = flowField f ++ rest) (hfuel : 3 * (flowField f).length ≤ fuel) :
    ∃ events, flowFields (fuel + 1) true { fields := done } r =
      flowFields fuel false { fields := f :: done } (r.behind rest events) := by
  obtain ⟨first, more, htokens, hstarts⟩ := hhead
  rw [flowField, List.length_cons, List.length_cons, List.length_cons] at hfuel
  obtain ⟨fuel, rfl⟩ : ∃ n, fuel = n + 2 := ⟨fuel - 2, by omega⟩
  -- the key
  have hend : r.sees [.flowTableEnd] = false := by rw [sees_eq hr]; rfl
  have hkey : r.sees [.key] = true := by rw [sees_eq hr]; rfl
  have hnext : r.next = r.behind (.text f.1 false :: .value :: (flowTokens f.2 ++ rest)) r.events := next_eq hr
  have hname : nodeUnless (fuel + 2) [.value, .flowEntry, .flowTableEnd] false false r.next =
      .ok ({ tree := .text f.1 }, r.behind (.value :: (flowTokens f.2 ++ rest)) (r.events + 1)) := by
    rw [hnext, nodeUnless_eq (behind_tokens _) rfl, node_eq (behind_tokens _) rfl, parts]
    rfl
  -- the value
  let r' := r.behind (.value :: (flowTokens f.2 ++ rest)) (r.events + 1)
  have hvalue : r'.sees [.value] = true := by rw [sees_eq (behind_tokens _)]; rfl
  have hnext' : r'.next = r.behind (flowTokens f.2 ++ rest) (r.events + 1) := rfl
  obtain ⟨events, hnode⟩ := h (fuel + 1) (r.behind (flowTokens f.2 ++ rest) (r.events + 1)) rest rfl (by omega) nofun
  have hthere : nodeUnless (fuel + 2) [.flowEntry, .flowTableEnd] false false r'.next =
      .ok ({ tree := f.2 }, r.behind rest events) := by
    have hfirst : r'.next.tokens = first :: (more ++ rest) := by rw [hnext', behind_tokens, htokens, List.cons_append]
    rw [nodeUnless_eq hfirst (contains_of_startsItem hstarts (by simp [startsItem])), hnext']
    exact hnode
  refine ⟨events, ?_⟩
  rw [flowFields]
  simp only [r'] at hvalue hthere
  simp only [hend, hkey, Bool.false_eq_true, if_false, if_true, bind, Except.bind, pure, Except.pure, hname, hvalue,
    hthere]
  rfl

/-- further fields of a table between brackets -/
theorem flowFields_more {fields : List (String × Tree)} (h : ∀ f ∈ fields, Reads false false (flowTokens f.2) f.2)
    (hhead : ∀ f ∈ fields, ∃ first more, flowTokens f.2 = first :: more ∧ startsItem first = true)
    (done : List (String × Tree))
    (hr : r.tokens = fields.flatMap (fun f => .flowEntry :: flowField f) ++ .flowTableEnd :: rest)
    (hfuel : 3 * (fields.flatMap fun f => Token.flowEntry :: flowField f).length < fuel) :
    ∃ events, flowFields fuel false { fields := done } r =
      .ok ({ tree := .table (done.reverse ++ fields) }, r.behind rest events) := by
  induction fields generalizing fuel r done with
  | nil =>
    obtain ⟨fuel, rfl⟩ : ∃ n, fuel = n + 1 := ⟨fuel - 1, by omega⟩
    refine ⟨r.events + 1, ?_⟩
    have hend : r.sees [.flowTableEnd] = true := by rw [sees_eq hr]; rfl
    rw [flowFields]
    simp only [hend, if_true, Parts.table, List.append_nil]
    rw [next_eq hr]
    rfl
  | cons f fields ih =>
    obtain ⟨fuel, rfl⟩ : ∃ n, fuel = n + 1 := ⟨fuel - 1, by omega⟩
    rw [List.flatMap_cons, List.cons_append, List.cons_append, List.append_assoc] at hr
    rw [List.flatMap_cons, List.cons_append, List.length_cons, List.length_append] at hfuel
    have hself : 3 * (flowField f).length ≤ fuel := by omega
    have hothers : 3 * (fields.flatMap fun f => Token.flowEntry :: flowField f).length < fuel := by omega
    obtain ⟨events, hitem⟩ := flowFields_field (r := r.behind _ r.events) (h f List.mem_cons_self)
      (hhead f List.mem_cons_self) done rfl hself
    obtain ⟨events', hmore⟩ := ih (r := (r.behind _ r.events).behind _ events)
      (fun f hf => h f (List.mem_cons_of_mem _ hf)) (fun f hf => hhead f (List.mem_cons_of_mem _ hf)) (f :: done) rfl
      hothers
    refine ⟨events', ?_⟩
    rw [flowFields_entry hr, hitem, hmore]
    simp [behind_behind]

theorem reads_flowTable {fields : List (String × Tree)} (h : ∀ f ∈ fields, Reads false false (flowTokens f.2) f.2)
    (hhead : ∀ f ∈ fields, ∃ first more, flowTokens f.2 = first :: more ∧ startsItem first = true) :
    Reads block level (flowTokens (.table fields)) (.table fields) := by
  intro fuel r rest hr hfuel _
  rw [flowTokens, List.cons_append, List.append_assoc] at hr
  rw [flowTokens, List.length_cons, List.length_append, List.length_singleton] at hfuel
  obtain ⟨fuel, rfl⟩ : ∃ n, fuel = n + 2 := ⟨fuel - 2, by omega⟩
  have hnode : node (fuel + 2) block level r =
      flowFields (fuel + 1) true {} (r.behind (flowFieldTokens fields ++ .flowTableEnd :: rest) (r.events + 1)) := by
    rw [node_eq hr rfl, parts, next_eq (r := r.count) hr]
    rfl
  cases fields with
  | nil =>
    refine ⟨r.events + 2, ?_⟩
    rw [flowFieldTokens, List.nil_append] at hnode
    rw [hnode, flowFields, if_pos (by rw [sees_eq (behind_tokens _)]; rfl)]
    rfl
  | cons f fields =>
    rw [flowFieldTokens_cons, List.append_assoc] at hnode
    rw [flowFieldTokens_cons, List.length_append] at hfuel
    have hself : 3 * (flowField f).length ≤ fuel := by omega
    have hothers : 3 * (fields.flatMap fun f => Token.flowEntry :: flowField f).length < fuel := by omega
    obtain ⟨events, hitem⟩ := flowFields_field (r := r.behind _ (r.events + 1)) (h f List.mem_cons_self)
      (hhead f List.mem_cons_self) [] rfl hself
    obtain ⟨events', hmore⟩ := flowFields_more (r := (r.behind _ (r.events + 1)).behind _ events)
      (fun f hf => h f (List.mem_cons_of_mem _ hf)) (fun f hf => hhead f (List.mem_cons_of_mem _ hf)) [f] rfl hothers
    exact ⟨events', hnode.trans (hitem.trans hmore)⟩

/-- **A tree in flow form** is read back wherever it stands. -/
theorem node_flowTokens {P : String → Prop} {t : Tree} (h : t.Written P) (block level : Bool) :
    Reads block level (flowTokens t) t := by
  induction h generalizing block level with
  | text _ =>
    rw [flowTokens]
    exact reads_text nofun
  | list h ih => exact reads_flowList (fun t ht => ih t ht false false) fun t ht => flowTokens_head (h t ht)
  | table _ h ih => exact reads_flowTable (fun f hf => ih f hf false false) fun f hf => flowTokens_head (h f hf)

/-! ## Nodes in block form -/

theorem style_plain {s : String} (h : style s = .plain) : readsOtherwise s = false := by
  unfold style at h
  simp only at h
  split at h
  · split at h <;> cases h
  · split at h
    · cases h
    · split at h
      · cases h
      · next hplain =>
        simp only [Bool.or_eq_true, not_or, Bool.not_eq_true] at hplain
        exact hplain.1.1.1.1.1

theorem isNullText_of_plain {s : String} (h : style s = .plain) : isNullText s = false ∧ s.isEmpty = false := by
  have hnull : isNullWord s = false := by
    have hother := style_plain h
    simp only [readsOtherwise, Bool.or_eq_false_iff] at hother
    exact hother.1.1.1.1.1
  simp only [isNullWord, Bool.or_eq_false_iff] at hnull
  simp [isNullText, hnull]

theorem blockTokens_head {P : String → Prop} {t : Tree} (h : t.Written P) (inList : Bool) :
    ∃ first more, blockTokens inList t = first :: more ∧
      (startsItem first = true ∨ inList = false ∧ first = .listEntry) := by
  cases h with
  | text => exact ⟨_, _, by rw [blockTokens], .inl rfl⟩
  | @list items _ =>
    cases items with
    | nil => exact ⟨_, _, by rw [blockTokens, List.isEmpty_nil, if_pos rfl], .inl rfl⟩
    | cons t items =>
      rw [blockTokens, List.isEmpty_cons, if_neg Bool.false_ne_true]
      cases inList with
      | true => exact ⟨_, _, by rw [if_pos rfl], .inl rfl⟩
      | false => exact ⟨_, _, by rw [if_neg Bool.false_ne_true, itemTokens], .inr ⟨rfl, rfl⟩⟩
  | @table fields _ _ =>
    cases fields with
    | nil => exact ⟨_, _, by rw [blockTokens, List.isEmpty_nil, if_pos rfl], .inl rfl⟩
    | cons f fields =>
      exact ⟨_, _, by rw [blockTokens, List.isEmpty_cons, if_neg Bool.false_ne_true], .inl rfl⟩

/-- a node that is there is read even where it might be missing -/
theorem nodeUnless_there {ts : List Token} {t : Tree} (h : Reads block level ts t)
    (hhead : ∃ first more, ts = first :: more ∧ (startsItem first = true ∨ level = true ∧ first = .listEntry))
    {stops : List Token} (hstops : ∀ t ∈ stops, startsItem t = false)
    (hentry : level = true → stops.contains .listEntry = false) (hr : r.tokens = ts ++ rest)
    (hfuel : 3 * ts.length ≤ fuel) (hrest : level = true → rest.head? ≠ some .listEntry) :
    ∃ events, nodeUnless (fuel + 1) stops block level r = .ok ({ tree := t }, r.behind rest events) := by
  obtain ⟨first, more, rfl, hfirst⟩ := hhead
  have hthere : stops.contains first = false := by
    rcases hfirst with hstarts | ⟨hlevel, rfl⟩
    · exact contains_of_startsItem hstarts hstops
    · exact hentry hlevel
  obtain ⟨events, hnode⟩ := h fuel r rest hr hfuel hrest
  exact ⟨events, by rw [nodeUnless_eq hr hthere, hnode]⟩

theorem noItem_level : ∀ t ∈ [Token.listEntry, .key, .value, .blockEnd], startsItem t = false := by simp [startsItem]

variable {items : List Tree} {fields : List (String × Tree)}

theorem levelItems_items (h : ∀ t ∈ items, Reads true false (blockTokens true t) t)
    (hhead : ∀ t ∈ items, ∃ first more, blockTokens true t = first :: more ∧ startsItem first = true)
    (done : List Tree) (hr : r.tokens = itemTokens items ++ rest) (hrest : rest.head? ≠ some .listEntry)
    (hfuel : 3 * (itemTokens items).length ≤ fuel + 1) (hpos : 0 < fuel) :
    ∃ events, levelItems fuel { items := done } r =
      .ok ({ tree := .list .items (done.reverse ++ items) }, r.behind rest events) := by
  induction items generalizing fuel r done with
  | nil =>
    obtain ⟨fuel, rfl⟩ : ∃ n, fuel = n + 1 := ⟨fuel - 1, by omega⟩
    refine ⟨r.events + 1, ?_⟩
    have htokens : r.tokens = rest := hr
    have hpeek : r.peek ≠ some .listEntry := by rwa [peek, htokens]
    rw [levelItems]
    split
    · next h => exact absurd h hpeek
    · rw [List.append_nil, behind, ← htokens]
      rfl
  | cons t items ih =>
    rw [itemTokens, List.cons_append, List.append_assoc] at hr
    rw [itemTokens, List.length_cons, List.length_append] at hfuel
    obtain ⟨fuel, rfl⟩ : ∃ n, fuel = n + 2 := ⟨fuel - 2, by omega⟩
    obtain ⟨first, more, htokens, hstarts⟩ := hhead t List.mem_cons_self
    have hself : 3 * (blockTokens true t).length ≤ fuel := by omega
    have hothers : 3 * (itemTokens items).length ≤ fuel + 1 + 1 := by omega
    obtain ⟨events, hitem⟩ := nodeUnless_there (r := r.behind (blockTokens true t ++ (itemTokens items ++ rest)) r.events)
      (h t List.mem_cons_self) ⟨first, more, htokens, .inl hstarts⟩ noItem_level nofun rfl hself nofun
    obtain ⟨events', hmore⟩ := ih (r := (r.behind (itemTokens items ++ rest) events))
      (fun t ht => h t (List.mem_cons_of_mem _ ht)) (fun t ht => hhead t (List.mem_cons_of_mem _ ht)) (t :: done) rfl
      hothers (Nat.succ_pos _)
    refine ⟨events', ?_⟩
    rw [levelItems]
    simp only [peek_eq hr, next_eq hr, hitem, behind_behind]
    refine hmore.trans ?_
    rw [List.reverse_cons, List.append_assoc]
    rfl

theorem noItem_inside : ∀ t ∈ [Token.listEntry, .blockEnd], startsItem t = false := by simp [startsItem]

theorem blockItems_items (h : ∀ t ∈ items, Reads true false (blockTokens true t) t)
    (hhead : ∀ t ∈ items, ∃ first more, blockTokens true t = first :: more ∧ startsItem first = true)
    (done : List Tree) (hr : r.tokens = itemTokens items ++ .blockEnd :: rest)
    (hfuel : 3 * (itemTokens items).length < fuel) :
    ∃ events, blockItems fuel { items := done } r =
      .ok ({ tree := .list .items (done.reverse ++ items) }, r.behind rest events) := by
  induction items generalizing fuel r done with
  | nil =>
    obtain ⟨fuel, rfl⟩ : ∃ n, fuel = n + 1 := ⟨fuel - 1, by omega⟩
    refine ⟨r.events + 1, ?_⟩
    rw [blockItems]
    simp only [peek_eq hr, next_eq hr, List.append_nil]
    rfl
  | cons t items ih =>
    rw [itemTokens, List.cons_append, List.append_assoc] at hr
    rw [itemTokens, List.length_cons, List.length_append] at hfuel
    obtain ⟨fuel, rfl⟩ : ∃ n, fuel = n + 2 := ⟨fuel - 2, by omega⟩
    obtain ⟨first, more, htokens, hstarts⟩ := hhead t List.mem_cons_self
    have hself : 3 * (blockTokens true t).length ≤ fuel := by omega
    have hothers : 3 * (itemTokens items).length < fuel + 1 := by omega
    obtain ⟨events, hitem⟩ := nodeUnless_there
      (r := r.behind (blockTokens true t ++ (itemTokens items ++ .blockEnd :: rest)) r.events)
      (h t List.mem_cons_self) ⟨first, more, htokens, .inl hstarts⟩ noItem_inside nofun rfl hself nofun
    obtain ⟨events', hmore⟩ := ih (r := (r.behind (itemTokens items ++ .blockEnd :: rest) events))
      (fun t ht => h t (List.mem_cons_of_mem _ ht)) (fun t ht => hhead t (List.mem_cons_of_mem _ ht)) (t :: done) rfl
      hothers
    refine ⟨events', ?_⟩
    rw [blockItems]
    simp only [peek_eq hr, next_eq hr, hitem, behind_behind]
    refine hmore.trans ?_
    rw [List.reverse_cons, List.append_assoc]
    rfl

theorem noItem_field : ∀ t ∈ [Token.key, .value, .blockEnd], startsItem t = false := by simp [startsItem]

theorem blockFields_fields (hkeys : ∀ f ∈ fields, isWord f.1 = true)
    (h : ∀ f ∈ fields, Reads true true (blockTokens false f.2) f.2)
    (hhead : ∀ f ∈ fields, ∃ first more, blockTokens false f.2 = first :: more ∧
      (startsItem first = true ∨ true = true ∧ first = .listEntry))
    (done : List (String × Tree)) (hr : r.tokens = fieldTokens fields ++ .blockEnd :: rest)
    (hfuel : 3 * (fieldTokens fields).length < fuel) :
    ∃ events, blockFields fuel { fields := done } r =
      .ok ({ tree := .table (done.reverse ++ fields) }, r.behind rest events) := by
  induction fields generalizing fuel r done with
  | nil =>
    obtain ⟨fuel, rfl⟩ : ∃ n, fuel = n + 1 := ⟨fuel - 1, by omega⟩
    refine ⟨r.events + 1, ?_⟩
    rw [blockFields]
    simp only [peek_eq hr, next_eq hr, List.append_nil]
    rfl
  | cons f fields ih =>
    obtain ⟨key, value⟩ := f
    rw [fieldTokens, List.cons_append, List.cons_append, List.cons_append, List.append_assoc] at hr
    simp only [fieldTokens, List.length_cons, List.length_append] at hfuel
    obtain ⟨fuel, rfl⟩ : ∃ n, fuel = n + 4 := ⟨fuel - 4, by omega⟩
    have hself : 3 * (blockTokens false value).length ≤ fuel + 2 := by omega
    have hothers : 3 * (fieldTokens fields).length < fuel + 3 := by omega
    let left := fieldTokens fields ++ .blockEnd :: rest
    -- the key
    have hname : nodeUnless (fuel + 3) [.key, .value, .blockEnd] true true r.next =
        .ok ({ tree := .text key }, r.behind (.value :: (blockTokens false value ++ left)) (r.events + 1)) := by
      have hnext : r.next = r.behind (.text key true :: .value :: (blockTokens false value ++ left)) r.events :=
        next_eq hr
      have htree : scalarTree key true none = .text key := by
        have hword := hkeys (key, value) List.mem_cons_self
        simp only [isWord, Bool.and_eq_true, Bool.not_eq_true'] at hword
        simp [scalarTree, hword]
      rw [hnext, nodeUnless_eq (behind_tokens _) rfl, node_eq (behind_tokens _) rfl, parts, htree]
      rfl
    -- the value
    let r' := r.behind (.value :: (blockTokens false value ++ left)) (r.events + 1)
    have hvalue : r'.sees [.value] = true := by rw [sees_eq (behind_tokens _)]; rfl
    have hrest : left.head? ≠ some .listEntry := by
      cases fields with
      | nil => simp [left, fieldTokens]
      | cons f fields => simp [left, fieldTokens]
    obtain ⟨events, hthere⟩ := nodeUnless_there (r := r'.next) (h (key, value) List.mem_cons_self)
      (hhead (key, value) List.mem_cons_self) noItem_field (fun _ => rfl) rfl hself fun _ => hrest
    obtain ⟨events', hmore⟩ := ih (r := (r.behind left events)) (fun f hf => hkeys f (List.mem_cons_of_mem _ hf))
      (fun f hf => h f (List.mem_cons_of_mem _ hf)) (fun f hf => hhead f (List.mem_cons_of_mem _ hf))
      ((key, value) :: done) rfl hothers
    refine ⟨events', ?_⟩
    rw [blockFields]
    simp only [r'] at hvalue hthere
    simp only [peek_eq hr, hname, bind, Except.bind, hvalue, if_true, hthere]
    refine hmore.trans ?_
    rw [List.reverse_cons, List.append_assoc]
    rfl

theorem reads_blockTable (hkeys : ∀ f ∈ fields, isWord f.1 = true)
    (h : ∀ f ∈ fields, Reads true true (blockTokens false f.2) f.2)
    (hhead : ∀ f ∈ fields, ∃ first more, blockTokens false f.2 = first :: more ∧
      (startsItem first = true ∨ true = true ∧ first = .listEntry)) :
    Reads true level (.blockTableStart :: (fieldTokens fields ++ [.blockEnd])) (.table fields) := by
  intro fuel r rest hr hfuel _
  rw [List.cons_append, List.append_assoc] at hr
  rw [List.length_cons, List.length_append, List.length_singleton] at hfuel
  obtain ⟨fuel, rfl⟩ : ∃ n, fuel = n + 1 := ⟨fuel - 1, by omega⟩
  have hinside : 3 * (fieldTokens fields).length < fuel := by omega
  obtain ⟨events, hfields⟩ := blockFields_fields (r := r.behind (fieldTokens fields ++ .blockEnd :: rest) (r.events + 1))
    hkeys h hhead [] rfl hinside
  refine ⟨events, ?_⟩
  rw [node_eq hr rfl, parts, if_pos rfl, next_eq (r := r.count) hr]
  exact hfields

theorem reads_blockList (h : ∀ t ∈ items, Reads true false (blockTokens true t) t)
    (hhead : ∀ t ∈ items, ∃ first more, blockTokens true t = first :: more ∧ startsItem first = true) :
    Reads true level (.blockListStart :: (itemTokens items ++ [.blockEnd])) (.list .items items) := by
  intro fuel r rest hr hfuel _
  rw [List.cons_append, List.append_assoc] at hr
  rw [List.length_cons, List.length_append, List.length_singleton] at hfuel
  obtain ⟨fuel, rfl⟩ : ∃ n, fuel = n + 1 := ⟨fuel - 1, by omega⟩
  have hinside : 3 * (itemTokens items).length < fuel := by omega
  obtain ⟨events, hitems⟩ := blockItems_items (r := r.behind (itemTokens items ++ .blockEnd :: rest) (r.events + 1))
    h hhead [] rfl hinside
  refine ⟨events, ?_⟩
  rw [node_eq hr rfl, parts, if_pos rfl, next_eq (r := r.count) hr]
  exact hitems

/-- a list at the column of its table ends before whatever is no item -/
theorem reads_levelList (hne : items ≠ []) (h : ∀ t ∈ items, Reads true false (blockTokens true t) t)
    (hhead : ∀ t ∈ items, ∃ first more, blockTokens true t = first :: more ∧ startsItem first = true) :
    Reads true true (itemTokens items) (.list .items items) := by
  intro fuel r rest hr hfuel hrest
  obtain ⟨t, more, rfl⟩ := List.exists_cons_of_ne_nil hne
  have hlength : 0 < (itemTokens (t :: more)).length := by rw [itemTokens]; exact Nat.succ_pos _
  obtain ⟨fuel, rfl⟩ : ∃ n, fuel = n + 1 := ⟨fuel - 1, by omega⟩
  have hpos : 0 < fuel := by omega
  obtain ⟨events, hitems⟩ := levelItems_items (r := r.count) h hhead [] hr (hrest rfl) hfuel hpos
  refine ⟨events, ?_⟩
  rw [itemTokens, List.cons_append] at hr
  rw [node_eq hr rfl, parts, if_pos rfl]
  exact hitems

/-- **A tree in block form** is read back wherever it stands. -/
theorem node_blockTokens {P : String → Prop} {t : Tree} (h : t.Written P) (inList : Bool) :
    Reads true (!inList) (blockTokens inList t) t := by
  induction h generalizing inList with
  | text _ =>
    rw [blockTokens]
    exact reads_text fun hplain => isNullText_of_plain (of_decide_eq_true hplain)
  | @list items h ih =>
    have hhead : ∀ t ∈ items, ∃ first more, blockTokens true t = first :: more ∧ startsItem first = true := by
      intro t ht
      obtain ⟨first, more, htokens, hstarts | ⟨hfalse, -⟩⟩ := blockTokens_head (h t ht) true
      · exact ⟨first, more, htokens, hstarts⟩
      · cases hfalse
    have hitems : ∀ t ∈ items, Reads true false (blockTokens true t) t := fun t ht => ih t ht true
    rw [blockTokens]
    by_cases hempty : items = []
    · subst hempty
      exact node_flowTokens (.list h) true _
    · rw [if_neg (by rwa [List.isEmpty_iff])]
      cases inList with
      | true => exact reads_blockList hitems hhead
      | false => exact reads_levelList hempty hitems hhead
  | @table fields hkeys h ih =>
    have hhead : ∀ f ∈ fields, ∃ first more, blockTokens false f.2 = first :: more ∧
        (startsItem first = true ∨ true = true ∧ first = .listEntry) := by
      intro f hf
      obtain ⟨first, more, htokens, hstarts | ⟨-, hentry⟩⟩ := blockTokens_head (h f hf) false
      · exact ⟨first, more, htokens, .inl hstarts⟩
      · exact ⟨first, more, htokens, .inr ⟨rfl, hentry⟩⟩
    rw [blockTokens]
    by_cases hempty : fields = []
    · subst hempty
      exact node_flowTokens (.table hkeys h) true _
    · rw [if_neg (by rwa [List.isEmpty_iff])]
      exact reads_blockTable hkeys (fun f hf => ih f hf false) hhead

/-! ## Documents -/

/-- **The tokens of one tree** are a document of that tree. -/
theorem document_reads {ts : List Token} {t : Tree} (h : Reads true false ts t)
    (hhead : ∃ first more, ts = first :: more ∧ startsItem first = true) :
    ∃ r, document { tokens := ts } = .ok ({ tree := t }, r) := by
  obtain ⟨first, more, rfl, hstarts⟩ := hhead
  obtain ⟨events, hnode⟩ := h (4 * (first :: more).length + 4)
    { tokens := first :: more, shorthands := defaultShorthands } [] (by simp) (by omega) nofun
  have hstart : ({ tokens := first :: more } : Reader).sees [.documentStart] = false :=
    not_sees rfl hstarts (by simp [startsItem])
  have hdirective : ({ tokens := first :: more } : Reader).peek.any isDirective = false := by
    rw [peek_eq rfl]
    cases first <;> first | rfl | cases hstarts
  refine ⟨Reader.behind { tokens := first :: more, shorthands := defaultShorthands } [] events, ?_⟩
  unfold document
  simp only [hstart, hdirective, List.isEmpty_cons, Bool.false_eq_true, if_false, Bool.or_self]
  rw [hnode]
  rfl

end Reader

theorem parse_of_reads {text : String} {ts : List Token} {t : Tree} (htokens : tokens text = .ok ts)
    (h : Reader.Reads true false ts t) (hhead : ∃ first more, ts = first :: more ∧ startsItem first = true) :
    parse text = .ok t := by
  obtain ⟨r, hdocument⟩ := Reader.document_reads h hhead
  simp only [parse, htokens, bind, Except.bind, hdocument]
  rfl

end Yaml

end Gleaner
