/-
# `Matinee.RemoteCatalog.Page` — pages of movies as the remote catalog sends them

Every list of the remote catalog comes as a page of entries.  A page is read as a
whole: one entry of the wrong form spoils it.
-/
import Matinee.Json.Decode
import Matinee.Movie.Basic
import Matinee.RemoteCatalog.Genre

namespace Matinee.RemoteCatalog

open Json (RecordField Decoder Fault)

/-- An entry of a page. -/
structure Entry where
  id : UInt64
  title : String
  overview : Option String
  posterPath : Option String
  releaseDate : Option String
  /-- The mean vote on the ten-point scale. -/
  vote : Float
  genres : List UInt32
deriving DecidableEq

structure Page where
  number : UInt32
  entries : List Entry
  /-- How many entries there are on all pages. -/
  total : UInt32
deriving DecidableEq

namespace Entry

structure Draft where
  id : Option UInt64
  title : Option String
  overview : Option String
  posterPath : Option String
  releaseDate : Option String
  vote : Float
  genres : List UInt32

def Draft.blank : Draft := ⟨none, none, none, none, none, 0.0, []⟩

def Draft.finish (d : Draft) : Option Entry := do
  some ⟨← d.id, ← d.title, d.overview, d.posterPath, d.releaseDate, d.vote, d.genres⟩

def fields : List (RecordField Draft) := [
  ⟨"id", true, fun d t => do return { d with id := some (← Decoder.uint64 t) }⟩,
  ⟨"title", true, fun d t => do return { d with title := some (← Decoder.text t) }⟩,
  ⟨"overview", false, fun d t => do
    return { d with overview := ← Decoder.optional Decoder.text t }⟩,
  ⟨"poster_path", false, fun d t => do
    return { d with posterPath := ← Decoder.optional Decoder.text t }⟩,
  ⟨"release_date", false, fun d t => do
    return { d with releaseDate := ← Decoder.optional Decoder.text t }⟩,
  ⟨"vote_average", false, fun d t => do return { d with vote := ← Decoder.real t }⟩,
  ⟨"genre_ids", false, fun d t => do return { d with genres := ← Decoder.list Decoder.uint32 t }⟩]

def decode : Decoder Entry := Decoder.record fields Draft.blank Draft.finish

end Entry

/-- The address of a poster; an empty path is none. -/
def posterUrl (imageBase : String) (path : Option String) : Option String :=
  (path.filter (!·.isEmpty)).map fun p =>
    String.ofList (Text.dropEndWhile (· == '/') imageBase.toList) ++ p

/-- The movie that an entry tells of.  A vote of zero is taken over, empty texts
are not. -/
def Entry.toMovie (imageBase : String) (e : Entry) : Movie where
  id := e.id
  title := e.title
  genres := genreNames e.genres
  poster := posterUrl imageBase e.posterPath
  rating := some e.vote
  fivePoint := some (Rating.toFivePoint e.vote)
  overview := e.overview.filter (!·.isEmpty)
  releaseDate := e.releaseDate.filter (!·.isEmpty)

namespace Page

structure Draft where
  number : UInt32
  entries : Option (List Entry)
  total : UInt32

def Draft.blank : Draft := ⟨0, none, 0⟩

def Draft.finish (d : Draft) : Option Page := do
  some ⟨d.number, ← d.entries, d.total⟩

def fields : List (RecordField Draft) := [
  ⟨"page", false, fun d t => do return { d with number := ← Decoder.uint32 t }⟩,
  ⟨"results", true, fun d t => do
    return { d with entries := some (← Decoder.list Entry.decode t) }⟩,
  ⟨"total_results", false, fun d t => do return { d with total := ← Decoder.uint32 t }⟩]

def decode : Decoder Page := Decoder.record fields Draft.blank Draft.finish

def ofText (s : String) : Except Fault Page := Decoder.whole decode (.ofText s)

/-- The movies of a page, in its order. -/
def movies (imageBase : String) (p : Page) : List Movie := p.entries.map (·.toMovie imageBase)

end Page

end Matinee.RemoteCatalog
