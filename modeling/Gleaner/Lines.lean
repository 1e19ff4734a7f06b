/-
Lines of a byte stream.

`scan` delivers the lines of a reader one after the other, numbered from 1, to a consumer that may refuse one or raise
the cancellation signal at any time. A line ends with a line feed, a carriage return before it is dropped, and bytes
that are no text are replaced. A failing reader or the signal ends the stream with one item that says so; a refusal
ends it with none. Bytes behind the last line feed are a line when the reader ends, and are dropped when it fails.
-/
import Gleaner.Text.Utf8

namespace Gleaner

/-- failures of files and streams -/
inductive IoError where
  | notFound
  | notDirectory
  | isDirectory
  | tooManyLinks
  | nameTooLong
  | nulInPath
  | notUtf8
  | brokenPipe (text : String)
  | other (text : String)
  deriving DecidableEq, Repr

def IoError.message : IoError → String
  | .notFound => "No such file or directory (os error 2)"
  | .notDirectory => "Not a directory (os error 20)"
  | .isDirectory => "Is a directory (os error 21)"
  | .tooManyLinks => "Too many levels of symbolic links (os error 40)"
  | .nameTooLong => "File name too long (os error 36)"
  | .nulInPath => "file name contained an unexpected NUL byte"
  | .notUtf8 => "stream did not contain valid UTF-8"
  | .brokenPipe text => text
  | .other text => text

/-- what a reader delivers: bytes, and then its end or a failure -/
structure Source where
  bytes : Utf8.Bytes
  failure : Option IoError := none

/-- why a stream of lines ended before its end -/
inductive StreamError where
  | read (e : IoError)
  | cancelled
  | ignore (path message : String)
  deriving DecidableEq, Repr

def StreamError.message : StreamError → String
  | .read e => "read failed: " ++ e.message
  | .cancelled => "cancelled"
  | .ignore path message => "ignore chain failed on " ++ path ++ ": " ++ message

/-- a line, or the error at the end of a stream under the number of the line that did not come -/
structure ReadLine where
  number : Nat
  text : String
  error : Option StreamError := none
  deriving DecidableEq, Repr

def ReadLine.render (l : ReadLine) : String := toString l.number ++ ":" ++ l.text

inductive ScanEnd where
  | exhausted
  | failed
  | cancelled
  | closed
  deriving DecidableEq, Repr

/-- splits at line feeds; the finished pieces and the current one are kept in reverse -/
def splitFrom (done : List Utf8.Bytes) (current : Utf8.Bytes) : Utf8.Bytes → List Utf8.Bytes × Utf8.Bytes
  | [] => (done.reverse, current.reverse)
  | b :: bs =>
    if b = 10 then splitFrom (current.reverse :: done) [] bs else splitFrom done (b :: current) bs

/-- the pieces between line feeds and what is left behind the last one -/
def splitBytes (bs : Utf8.Bytes) : List Utf8.Bytes × Utf8.Bytes := splitFrom [] [] bs

/-- drops one carriage return at the end -/
def dropReturn (bs : Utf8.Bytes) : Utf8.Bytes :=
  if bs.getLast? = some 13 then bs.dropLast else bs

/-- the text of a line without its line feed -/
def decodeLine (bs : Utf8.Bytes) : String := Utf8.decode (dropReturn bs)

/-- the lines a reader delivers before its end or failure -/
def Source.lines (s : Source) : List Utf8.Bytes :=
  let (pieces, rest) := splitBytes s.bytes
  if s.failure.isNone && !rest.isEmpty then pieces ++ [rest] else pieces

/-- the item behind `delivered` others that says why a stream ends -/
def ReadLine.stop (delivered : Nat) (e : StreamError) : ReadLine :=
  { number := delivered + 1, text := "", error := some e }

/-- delivers the lines left when `delivered` items have been delivered. `fires n` tells whether the signal is up once
`n` items have been delivered, and `takes n` whether the consumer takes item number `n`. -/
def scanFrom (failure : Option IoError) (fires : Nat → Bool) (takes : Nat → Bool) :
    Nat → List Utf8.Bytes → List ReadLine × ScanEnd
  | delivered, [] =>
    if fires delivered then ([.stop delivered .cancelled], .cancelled)
    else
      match failure with
      | none => ([], .exhausted)
      | some e => ([.stop delivered (.read e)], .failed)
  | delivered, line :: rest =>
    if fires delivered then ([.stop delivered .cancelled], .cancelled)
    else
      let item : ReadLine := { number := delivered + 1, text := decodeLine line }
      if takes (delivered + 1) then
        let (items, finish) := scanFrom failure fires takes (delivered + 1) rest
        (item :: items, finish)
      else ([item], .closed)

/-- the items a consumer receives from a reader, and how the scan ended -/
def scan (s : Source) (fires takes : Nat → Bool) : List ReadLine × ScanEnd :=
  scanFrom s.failure fires takes 0 s.lines

/-- the items of a reader for a consumer that takes everything -/
def readLines (s : Source) (fires : Nat → Bool) : List ReadLine := (scan s fires fun _ => true).1

end Gleaner
