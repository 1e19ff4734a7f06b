/-
Where a run writes to: a writer that accepts some number of bytes at most, and fails at the first write that would
exceed it.
-/
import Gleaner.Json.Basic
import Gleaner.Lines

namespace Gleaner

structure Output where
  /-- how many bytes are accepted at most -/
  limit : Option Nat := none
  /-- what a write that is refused fails with -/
  failure : IoError := .brokenPipe "Broken pipe (os error 32)"
  /-- what has been written, the latest first -/
  pieces : List String := []
  size : Nat := 0

namespace Output

/-- whether some more bytes are accepted -/
def accepts (o : Output) (bytes : Nat) : Bool :=
  match o.limit with
  | some limit => o.size + bytes ≤ limit
  | none => true

/-- writes one piece -/
def write (o : Output) (piece : String) : Except IoError Output :=
  if o.accepts piece.utf8ByteSize then
    .ok { o with pieces := piece :: o.pieces, size := o.size + piece.utf8ByteSize }
  else .error o.failure

/-- writes pieces up to the first that is refused -/
def writeAll (o : Output) : List String → Output × Option IoError
  | [] => (o, none)
  | piece :: rest =>
    match o.write piece with
    | .ok o => o.writeAll rest
    | .error e => (o, some e)

/-- everything that has been written -/
def text (o : Output) : String := String.join o.pieces.reverse

/-- the lines that have been written to their end -/
def lines (o : Output) : List String := (o.text.splitOn "\n").dropLast

end Output

end Gleaner
