/-
# `Matinee.Dataset.Row` — the three kinds of data lines

A line that does not have the form of its file is skipped: every reader here
answers with an option and nothing is reported.

In the catalog a field may be quoted.  A quote only switches between the two
meanings of a comma and is itself dropped, wherever it stands; `splitQuoted` has
no notion of a broken line.
-/
import Matinee.Dataset.Line
import Matinee.Movie.Basic
import Matinee.Number.Real

namespace Matinee.Dataset

/-- The fields from here on, inside or outside of quotes, with the characters of
the field begun in reverse. -/
def fieldsFrom (quoted : Bool) (field : List Char) : List Char → List (List Char)
  | [] => [field.reverse]
  | c :: rest =>
    if c = '"' then fieldsFrom (!quoted) field rest
    else if c = ',' ∧ quoted = false then field.reverse :: fieldsFrom false [] rest
    else fieldsFrom quoted (c :: field) rest

/-- The fields of a line whose quoted parts hide their commas. -/
def splitQuoted (line : List Char) : List (List Char) := fieldsFrom false [] line

/-- The trimmed fields of a line without quoting. -/
def splitPlain (line : List Char) : List (List Char) :=
  (Text.splitAt (· == ',') line).map Text.trim

/-- An id is a whole number above zero. -/
def positiveId? (field : List Char) : Option UInt64 :=
  (Number.readUInt64? (Text.trim field)).filter (· != 0)

/-- `id,title,genres`, the genres joined by bars. -/
def catalogEntry? (line : List Char) : Option CatalogEntry :=
  match splitQuoted (stripReturns line) with
  | id :: title :: genres :: _ =>
    (positiveId? id).map fun id => ⟨id, String.ofList title, splitTags genres⟩
  | _ => none

/-- A rating that a user gave to an item. -/
structure Sample where
  user : UInt64
  item : UInt64
  value : Float
  timestamp : Int64
deriving DecidableEq

/-- Ratings go from one to five. -/
def isRating (x : Float) : Bool := 1.0 ≤ x && x ≤ 5.0

/-- `user,item,rating,timestamp`; a user or timestamp that cannot be read, or is
missing, counts as zero. -/
def sample? (line : List Char) : Option Sample :=
  match splitPlain line with
  | user :: item :: value :: rest => do
    let item ← positiveId? item
    let value ← (Number.readReal? value).filter isRating
    return {
      user := (Number.readUInt64? user).getD 0
      item
      value
      timestamp := (rest.head?.bind Number.readInt64?).getD 0 }
  | _ => none

/-- The id by which the remote catalog knows an item. -/
structure Link where
  item : UInt64
  external : UInt64
deriving DecidableEq, Repr

/-- `item,ignored,external`. -/
def link? (line : List Char) : Option Link :=
  match splitPlain line with
  | item :: _ :: external :: _ => do return ⟨← positiveId? item, ← positiveId? external⟩
  | _ => none

/-- All entries of a catalog text, in its order. -/
def catalogOf (text : List Char) : List CatalogEntry := (dataLines text).filterMap catalogEntry?

/-- All links of a text, in its order. -/
def linksOf (text : List Char) : List Link := (dataLines text).filterMap link?

example : splitQuoted "11,\"American President, The\",Drama".toList =
    ["11".toList, "American President, The".toList, "Drama".toList] := by decide +kernel

end Matinee.Dataset
