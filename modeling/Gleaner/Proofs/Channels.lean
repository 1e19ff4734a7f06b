/-
Channels.

A producer that works beside its consumer puts its items into a channel that holds some number of them at most. What the
consumer is going to receive is what waits in the channel and what the producer still emits (`Channel.pending`). As long
as the token has not fired these are the items left of the stream; once it has, they may be a part of them with an item
behind it that shows the token (`Channel.Carries`).

Results:
- `Produces.carries`, `Carries.fire`: what a channel carries is not changed by its producer nor by the token;
- `Carries.take`, `Carries.closed`: what a consumer receives;
- `Produces.weight_lt`, `exists_produces`: a producer comes to its end, and can go on unless there is no room.
-/
import Gleaner.Proofs.Producers

namespace Gleaner

/-- the moves left of a producer, and the items in its channel -/
structure Channel (α : Type) where
  rest : List (Move α) := []
  queue : List α := []

namespace Channel

variable {α : Type}

/-- how many items a channel holds at most -/
def capacity : Nat := 1000

/-- a step of a producer: a look at the token, or an item that is put into the channel -/
inductive Produces (fired : Bool) : Channel α → Channel α → Prop where
  | pass {last : α} {rest : List (Move α)} {queue : List α} (h : fired = false) :
      Produces fired ⟨.look last :: rest, queue⟩ ⟨rest, queue⟩
  | heed {last : α} {rest : List (Move α)} {queue : List α} (h : fired = true) :
      Produces fired ⟨.look last :: rest, queue⟩ ⟨[.close last], queue⟩
  | emit {item : α} {rest : List (Move α)} {queue : List α} (h : queue.length < capacity) :
      Produces fired ⟨.emit item :: rest, queue⟩ ⟨rest, queue ++ [item]⟩
  | close {item : α} {rest : List (Move α)} {queue : List α} (h : queue.length < capacity) :
      Produces fired ⟨.close item :: rest, queue⟩ ⟨[], queue ++ [item]⟩

/-- the items that are still to come if the token does not fire -/
def pending (c : Channel α) : List α := c.queue ++ Move.items c.rest

/-! ## What a channel carries -/

/-- the items still to come are given ones, or the token has fired and they are cut short -/
structure Carries (cut : α → Prop) (fired : Bool) (full : List α) (c : Channel α) : Prop where
  heeds : Move.Heeds cut c.rest
  pending : c.pending = full ∨ fired = true ∧ Move.Cut cut full c.pending ∧ ∀ last, .look last ∉ c.rest

variable {cut : α → Prop} {fired : Bool} {full : List α} {c c' : Channel α}

theorem Carries.start {moves : List (Move α)} (h : Move.Heeds cut moves) (fired : Bool) :
    Carries cut fired (Move.items moves) ⟨moves, []⟩ := ⟨h, .inl rfl⟩

theorem Carries.empty (cut : α → Prop) (fired : Bool) : Carries cut fired [] {} :=
  Carries.start (fun _ h => absurd h List.not_mem_nil) fired

/-- the token may fire -/
theorem Carries.fire (h : Carries cut fired full c) : Carries cut true full c :=
  ⟨h.heeds, h.pending.imp_right fun ⟨_, hrest⟩ => ⟨rfl, hrest⟩⟩

/-- **A producer carries on** with the same items, or with those in front of the item that shows the token. -/
theorem Produces.carries (h : Produces fired c c') (hc : Carries cut fired full c) : Carries cut fired full c' := by
  obtain ⟨hheeds, hpending⟩ := hc
  cases h with
  | pass hdown =>
    refine ⟨fun last hlast => hheeds last (List.mem_cons_of_mem _ hlast), hpending.imp_right ?_⟩
    rintro ⟨-, -, hnone⟩
    exact absurd List.mem_cons_self (hnone _)
  | @heed last rest queue hup =>
    have hlast : cut last := hheeds last List.mem_cons_self
    have hnolook : ∀ other, .look other ∉ [Move.close last] := by simp
    refine ⟨fun other hother => absurd hother (hnolook other), .inr ⟨hup, ?_, hnolook⟩⟩
    rcases hpending with hfull | ⟨-, -, hnone⟩
    · exact ⟨queue, last, rfl, hfull ▸ List.prefix_append _ _, hlast⟩
    · exact absurd List.mem_cons_self (hnone last)
  | @emit item rest queue hroom =>
    have hsame : pending ⟨rest, queue ++ [item]⟩ = pending ⟨.emit item :: rest, queue⟩ := by
      simp [Channel.pending, Move.items]
    refine ⟨fun last hlast => hheeds last (List.mem_cons_of_mem _ hlast), ?_⟩
    rw [hsame]
    refine hpending.imp_right ?_
    rintro ⟨hup, hcut, hnone⟩
    exact ⟨hup, hcut, fun last hlast => hnone last (List.mem_cons_of_mem _ hlast)⟩
  | @close item rest queue hroom =>
    have hsame : pending ⟨[], queue ++ [item]⟩ = pending ⟨.close item :: rest, queue⟩ := by
      simp [Channel.pending, Move.items]
    refine ⟨fun last hlast => absurd hlast List.not_mem_nil, ?_⟩
    rw [hsame]
    refine hpending.imp_right ?_
    rintro ⟨hup, hcut, -⟩
    exact ⟨hup, hcut, fun last hlast => absurd hlast List.not_mem_nil⟩

/-- **A consumer receives** the next of the items, or one that shows the token. -/
theorem Carries.take {rest : List (Move α)} {item : α} {queue : List α}
    (h : Carries cut fired full ⟨rest, item :: queue⟩) :
    (∃ more, full = item :: more ∧ Carries cut fired more ⟨rest, queue⟩) ∨ fired = true ∧ cut item := by
  obtain ⟨hheeds, rfl | ⟨hup, ⟨before, last, hpending, ⟨after, rfl⟩, hlast⟩, hnone⟩⟩ := h
  · exact .inl ⟨_, rfl, hheeds, .inl rfl⟩
  · cases before with
    | nil =>
      have hitem : item = last := (List.cons.inj hpending).1
      exact .inr ⟨hup, hitem ▸ hlast⟩
    | cons first others =>
      obtain ⟨rfl, hothers⟩ := List.cons.inj hpending
      exact .inl ⟨_, rfl, hheeds, .inr ⟨hup, ⟨others, last, hothers, List.prefix_append _ _, hlast⟩, hnone⟩⟩

/-- nothing is left if the producer is through and the channel is empty -/
theorem Carries.closed (h : Carries cut fired full {}) : full = [] := by
  rcases h.pending with hfull | ⟨-, ⟨before, last, hpending, -, -⟩, -⟩
  · exact hfull.symm
  · cases before <;> cases hpending

/-! ## Steps of a producer -/

/-- a producer can go on unless the channel has items in it, or it is through -/
theorem exists_produces (fired : Bool) (c : Channel α) :
    (∃ item queue, c.queue = item :: queue) ∨ c = {} ∨ ∃ c', Produces fired c c' := by
  obtain ⟨rest, queue⟩ := c
  cases queue with
  | cons item queue => exact .inl ⟨item, queue, rfl⟩
  | nil =>
    have hroom : 0 < capacity := by decide
    match rest with
    | [] => exact .inr (.inl rfl)
    | .look last :: rest =>
      cases fired with
      | false => exact .inr (.inr ⟨_, .pass rfl⟩)
      | true => exact .inr (.inr ⟨_, .heed rfl⟩)
    | .emit item :: rest => exact .inr (.inr ⟨_, .emit hroom⟩)
    | .close item :: rest => exact .inr (.inr ⟨_, .close hroom⟩)

/-- how many steps a move takes at most, until its item has been received -/
def moveWeight : Move α → Nat
  | .look _ => 3
  | .emit _ => 2
  | .close _ => 2

/-- how many steps the producer and the consumer of a channel take at most -/
def weight (c : Channel α) : Nat := (c.rest.map moveWeight).sum + c.queue.length

/-- **A producer comes to its end.** -/
theorem Produces.weight_lt (h : Produces fired c c') : c'.weight < c.weight := by
  cases h <;> simp [weight, moveWeight] <;> omega

theorem weight_take {rest : List (Move α)} {item : α} {queue : List α} :
    weight ⟨rest, queue⟩ < weight ⟨rest, item :: queue⟩ := by
  simp [weight]

end Channel

end Gleaner
