/-
A table of results by key. A result is computed at the first request for its key and kept until the table is cleared;
the computation may itself use the table, and if it has already stored a result for the key by the time it ends, that
one is kept and returned. Failed computations leave nothing behind.
-/

namespace Gleaner

structure Memo (α : Type) where
  entries : List (String × α)

namespace Memo

variable {α ε σ : Type}

def empty : Memo α := ⟨[]⟩

def get? (m : Memo α) (key : String) : Option α := (m.entries.find? (·.1 == key)).map (·.2)

def size (m : Memo α) : Nat := m.entries.length

def isEmpty (m : Memo α) : Bool := m.entries.isEmpty

/-- stores a value unless the key has one already, and gives the value the key has then -/
def insertIfAbsent (m : Memo α) (key : String) (value : α) : Memo α × α :=
  match m.get? key with
  | some kept => (m, kept)
  | none => (⟨m.entries ++ [(key, value)]⟩, value)

/-- looks a key up and computes its result if there is none. The table is part of the state `σ` on which the
computation runs: `read` and `write` reach it there. -/
def getOrTry (read : σ → Memo α) (write : σ → Memo α → σ) (key : String) (compute : σ → Except ε α × σ)
    (s : σ) : Except ε α × σ :=
  match (read s).get? key with
  | some value => (.ok value, s)
  | none =>
    match compute s with
    | (.error e, s) => (.error e, s)
    | (.ok value, s) =>
      let (m, kept) := (read s).insertIfAbsent key value
      (.ok kept, write s m)

/-! ## What a table holds -/

theorem insertIfAbsent_of_kept {m : Memo α} {key : String} {kept : α} (h : m.get? key = some kept) (value : α) :
    m.insertIfAbsent key value = (m, kept) := by
  rw [insertIfAbsent, h]

theorem insertIfAbsent_of_absent {m : Memo α} {key : String} (h : m.get? key = none) (value : α) :
    m.insertIfAbsent key value = (⟨m.entries ++ [(key, value)]⟩, value) := by
  rw [insertIfAbsent, h]

/-- behind an insert, its key has the value that the insert gave, and all others have what they had -/
theorem get?_insertIfAbsent (m : Memo α) (key : String) (value : α) (other : String) :
    (m.insertIfAbsent key value).1.get? other =
      if other = key then some (m.insertIfAbsent key value).2 else m.get? other := by
  cases h : m.get? key with
  | some kept =>
    rw [insertIfAbsent_of_kept h]
    split
    · rename_i heq
      rw [heq, h]
    · rfl
  | none =>
    have hfind : m.entries.find? (·.1 == key) = none := by simpa [get?] using h
    rw [insertIfAbsent_of_absent h]
    unfold get?
    rw [List.find?_append]
    split
    · rename_i heq
      rw [heq, hfind]
      simp
    · rename_i hne
      have hlast : [(key, value)].find? (·.1 == other) = none := by simp [Ne.symm hne]
      rw [hlast, Option.or_none]

end Memo

end Gleaner
