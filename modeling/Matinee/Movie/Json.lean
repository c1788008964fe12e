/-
# `Matinee.Movie.Json` — movies in JSON texts

A movie is written as an object in which unknown details are left out.  It is
read more liberally: details may be `null`, and the genre tags may be a list of
texts or one text in which they are joined by bars.  Reading cleans the tags, so
what has been read once is written and read again without change.
-/
import Matinee.Json.Basic
import Matinee.Json.Decode
import Matinee.Movie.Basic

namespace Matinee.Movie

open Matinee.Json (RecordField Decoder Fault Tree)

def member (name : String) (f : α → Json) : Option α → List (String × Json)
  | some a => [(name, f a)]
  | none => []

def toJson (m : Movie) : Json :=
  .object <|
    [("movieId", .whole m.id.toNat), ("title", .text m.title),
      ("genres", .array (m.genres.map .text))] ++
    member "poster" .text m.poster ++ member "rating" .real m.rating ++
    member "csvRating" .real m.fivePoint ++ member "overview" .text m.overview ++
    member "releaseDate" .text m.releaseDate

/-- A list of movies as one value. -/
def listToJson (ms : List Movie) : Json := .array (ms.map toJson)

/-- Genre tags, joined or listed.  Both forms are tried on the same value, so it
is taken in whole first; `depth` containers stand around it. -/
def decodeGenres (depth : Nat) : Decoder (List String) := fun t => do
  Decoder.require (t.usable (Json.nestingLimit - depth)) .malformed
  match t with
  | .scalar (.text (some joined)) => .ok (splitTags joined.toList)
  | t =>
    match Decoder.list Decoder.text t with
    | .ok tags => .ok (cleanTags (tags.map String.toList))
    | .error _ => .error .mismatch

/-- The members met so far; one that was met with `null` holds `some none`. -/
structure Draft where
  id : Option UInt64
  title : Option String
  genres : List String
  poster : Option String
  rating : Option Float
  fivePoint : Option Float
  overview : Option String
  releaseDate : Option String

def Draft.blank : Draft := ⟨none, none, [], none, none, none, none, none⟩

def Draft.finish (d : Draft) : Option Movie := do
  some ⟨← d.id, ← d.title, d.genres, d.poster, d.rating, d.fivePoint, d.overview, d.releaseDate⟩

/-- The members of a movie that stands inside `depth` containers. -/
def fields (depth : Nat) : List (RecordField Draft) := [
  ⟨"movieId", true, fun d t => do return { d with id := some (← Decoder.uint64 t) }⟩,
  ⟨"title", true, fun d t => do return { d with title := some (← Decoder.text t) }⟩,
  ⟨"genres", false, fun d t => do return { d with genres := ← decodeGenres (depth + 1) t }⟩,
  ⟨"poster", false, fun d t => do
    return { d with poster := ← Decoder.optional Decoder.text t }⟩,
  ⟨"rating", false, fun d t => do
    return { d with rating := ← Decoder.optional Decoder.real t }⟩,
  ⟨"csvRating", false, fun d t => do
    return { d with fivePoint := ← Decoder.optional Decoder.real t }⟩,
  ⟨"overview", false, fun d t => do
    return { d with overview := ← Decoder.optional Decoder.text t }⟩,
  ⟨"releaseDate", false, fun d t => do
    return { d with releaseDate := ← Decoder.optional Decoder.text t }⟩]

def decode (depth : Nat) : Decoder Movie :=
  Decoder.record (fields depth) Draft.blank Draft.finish

/-- A text that is one movie. -/
def ofText (s : String) : Except Fault Movie := Decoder.whole (decode 0) (.ofText s)

/-- A text that is a list of movies. -/
def listOfText (s : String) : Except Fault (List Movie) :=
  Decoder.whole (Decoder.list (decode 1)) (.ofText s)

end Matinee.Movie
