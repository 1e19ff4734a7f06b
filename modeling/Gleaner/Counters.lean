/-
Measurements. Each measured call leaves a sample: its key, how it ended and how long it took. The table adds up the
samples under two keys each, one for all calls and one for the outcome, in the order of the keys.
-/

namespace Gleaner

inductive CallEnd where
  | success
  | failure
  deriving DecidableEq, Repr

def CallEnd.suffix : CallEnd → String
  | .success => "success"
  | .failure => "error"

structure Sample where
  key : String
  outcome : CallEnd
  micros : Nat
  deriving DecidableEq, Repr

structure Aggregate where
  count : Nat := 0
  micros : Nat := 0
  deriving DecidableEq, Repr

def Aggregate.add (a : Aggregate) (micros : Nat) : Aggregate := ⟨a.count + 1, a.micros + micros⟩

/-- whole milliseconds -/
def Aggregate.millis (a : Aggregate) : Nat := a.micros / 1000

/-- blanks in keys become underscores -/
def sanitizeKey (key : String) : String := key.map fun c => if c = ' ' then '_' else c

/-- adds to the entry of a key, keeping the keys in order -/
def addEntry (key : String) (micros : Nat) : List (String × Aggregate) → List (String × Aggregate)
  | [] => [(key, Aggregate.add {} micros)]
  | (k, a) :: rest =>
    if key = k then (k, a.add micros) :: rest
    else if key < k then (key, Aggregate.add {} micros) :: (k, a) :: rest
    else (k, a) :: addEntry key micros rest

/-- adds a sample to a table -/
def addSample (table : List (String × Aggregate)) (s : Sample) : List (String × Aggregate) :=
  let key := sanitizeKey s.key
  addEntry (key ++ "-" ++ s.outcome.suffix) s.micros (addEntry (key ++ "-call") s.micros table)

/-- the table of samples in the order they came -/
def tally (samples : List Sample) : List (String × Aggregate) := samples.foldl addSample []

end Gleaner
