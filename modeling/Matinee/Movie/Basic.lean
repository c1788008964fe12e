/-
# `Matinee.Movie.Basic` — movies and catalog entries

A catalog entry is a row of the local catalog.  A movie is what searches,
listings and the watch-list hold: the identity of an entry (id, title, genre
tags) with whatever is known about it beyond that.
-/
import Matinee.Rating.Scale
import Matinee.Text.Blank
import Matinee.Text.Pieces

namespace Matinee

structure CatalogEntry where
  id : UInt64
  title : String
  genres : List String
deriving DecidableEq, Repr

structure Movie where
  id : UInt64
  title : String
  genres : List String
  /-- The address of a poster image. -/
  poster : Option String
  /-- On the ten-point scale. -/
  rating : Option Float
  /-- On the five-point scale. -/
  fivePoint : Option Float
  overview : Option String
  releaseDate : Option String
deriving DecidableEq, Repr

/-- Tags without the white space around them, and without blank tags. -/
def cleanTags (tags : List (List Char)) : List String :=
  (tags.map Text.trim).filter (!·.isEmpty) |>.map String.ofList

/-- The tags of a text in which they are joined by bars. -/
def splitTags (s : List Char) : List String := cleanTags (Text.splitAt (· == '|') s)

namespace Movie

/-- A movie of which only the identity is known. -/
def bare (id : UInt64) (title : String) (genres : List String) : Movie :=
  ⟨id, title, genres, none, none, none, none, none⟩

def ofEntry (e : CatalogEntry) : Movie := bare e.id e.title e.genres

/-- Takes over what `found` tells beyond the identity.  A vote of zero or less is
no vote, so it has no five-point form. -/
def enrich (m found : Movie) : Movie :=
  { m with
    poster := found.poster
    rating := found.rating
    fivePoint := (found.rating.filter (0.0 < ·)).map Rating.toFivePoint
    overview := found.overview
    releaseDate := found.releaseDate }

/-- Whatever is found, the movie stays the same movie. -/
theorem enrich_identity (m found : Movie) :
    (m.enrich found).id = m.id ∧ (m.enrich found).title = m.title ∧
      (m.enrich found).genres = m.genres := ⟨rfl, rfl, rfl⟩

end Movie

end Matinee
