/-
# `Matinee.Dataset.Line` — the data lines of a file

A dataset file starts with a header line.  Lines end with a newline, with or
without carriage returns in front of it, and blank lines do not count.

`dataLines` cuts a whole text.  `LineBuffer` cuts a file that arrives in chunks
of octets, broken anywhere: it keeps the octets behind the last newline
undecoded until the rest of their line is there.  The two differ in what they
take for the header: the first line of a text, the first *non-blank* line of a
stream.
-/
import Matinee.Text.Blank
import Matinee.Text.Pieces
import Matinee.Text.Utf8

namespace Matinee.Dataset

def splitLines (text : List Char) : List (List Char) := Text.splitAt (· == '\n') text

/-- A line without the carriage returns at its end. -/
def stripReturns (line : List Char) : List Char := Text.dropEndWhile (· == '\r') line

/-- The lines that hold something. -/
def solidLines (lines : List (List Char)) : List (List Char) :=
  (lines.map stripReturns).filter (!Text.isAllBlank ·)

/-- The data lines of a whole text. -/
def dataLines (text : List Char) : List (List Char) := solidLines ((splitLines text).drop 1)

/-- Octets whose line is not complete, newest first, and whether the header has
gone by. -/
structure LineBuffer where
  pending : List UInt8
  headerSeen : Bool
deriving DecidableEq, Repr

namespace LineBuffer

def empty : LineBuffer := ⟨[], false⟩

/-- The data lines among some lines: the first that holds something is the
header, unless that has gone by. -/
def accept (headerSeen : Bool) (lines : List (List Char)) : List (List Char) × Bool :=
  let solid := solidLines lines
  if headerSeen then (solid, true) else (solid.drop 1, !solid.isEmpty)

/-- The data lines that a chunk completes.  The last newline of a chunk is where
the lines end that are complete; a chunk without one is only put by. -/
def push (b : LineBuffer) (chunk : List UInt8) : List (List Char) × LineBuffer :=
  let back := chunk.reverse ++ b.pending
  if chunk.contains 10 then
    let complete := (back.dropWhile (· != 10)).reverse
    let (lines, seen) := accept b.headerSeen (splitLines (Text.Utf8.decodeLossy complete))
    (lines, ⟨back.takeWhile (· != 10), seen⟩)
  else ([], { b with pending := back })

/-- The line that the end of the file completes. -/
def finish (b : LineBuffer) : Option (List Char) :=
  (accept b.headerSeen [Text.Utf8.decodeLossy b.pending.reverse]).1.head?

/-- Every data line of a file that arrives in the given chunks. -/
def linesOf (chunks : List (List UInt8)) : List (List Char) :=
  go empty chunks
where
  go (b : LineBuffer) : List (List UInt8) → List (List Char)
    | [] => b.finish.toList
    | chunk :: rest =>
      let (lines, b') := b.push chunk
      lines ++ go b' rest

end LineBuffer

end Matinee.Dataset
