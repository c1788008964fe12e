/-
# `Matinee.Profile` — what the saved movies say about their owner

How often each genre occurs, and how the movies of a genre are rated on average.
Both go through the movies once and keep a tally of the genres, in the order in
which they appear first; where a genre stands in it is looked up in a table.
-/
import Matinee.Instant.Rfc3339
import Matinee.Json.Basic
import Matinee.Keys
import Matinee.Movie.Basic
import Matinee.Number.TotalOrder

namespace Matinee.Profile

/-- The genre of a movie without tags. -/
def untagged : String := "Unknown"

/-- The trimmed tags of a movie, or `untagged`. -/
def genresOf (m : Movie) : List String :=
  match cleanTags (m.genres.map String.toList) with
  | [] => [untagged]
  | tags => tags

/-- The rating on the five-point scale; a movie without one counts as zero. -/
def ratingOf (m : Movie) : Float :=
  match m.fivePoint.filter (0.0 < ·), m.rating.filter (0.0 < ·) with
  | some x, _ => x
  | none, some x => x / 2.0
  | none, none => 0.0

/-- Values under names, in the order in which the names came up, with the place of each
name among them. -/
structure Tally (α : Type) where
  rows : Array (String × α)
  places : Std.ExtHashMap String Nat

namespace Tally

def empty : Tally α := ⟨#[], ∅⟩

/-- Changes the value of a row. -/
def changeAt (t : Tally α) (i : Nat) (f : α → α) : Tally α :=
  { t with rows := t.rows.modify i fun row => (row.1, f row.2) }

/-- A new row at the end. -/
def append (t : Tally α) (name : String) (a : α) : Tally α :=
  ⟨t.rows.push (name, a), t.places.insert name t.rows.size⟩

/-- Changes the value under a name; a new name goes to the end. -/
def update (f : Option α → α) (name : String) (t : Tally α) : Tally α :=
  match t.places[name]? with
  | some i => t.changeAt i fun a => f (some a)
  | none => t.append name (f none)

/-- One update for each name. -/
def updateAll (f : Option α → α) (names : List String) (t : Tally α) : Tally α :=
  names.foldl (fun t name => t.update f name) t

/-- The tally of the genres of some movies; what an occurrence does to the value of its
genre depends on the movie. -/
def ofMovies (f : Movie → Option α → α) (movies : List Movie) : Tally α :=
  movies.foldl (fun t m => t.updateAll (f m) (genresOf m)) .empty

end Tally

/-- One more occurrence. -/
def addOne (n : Option Nat) : Nat := n.getD 0 + 1

/-- How often each genre occurs. -/
def genreCounts (movies : List Movie) : List (String × Nat) :=
  (Tally.ofMovies (fun _ => addOne) movies).rows.toList

/-- One more rating in a sum of ratings. -/
def addRating (x : Float) : Option (Float × Nat) → Float × Nat
  | none => (x, 1)
  | some (sum, n) => (sum + x, n + 1)

/-- The sum of the ratings of each genre and how many they are. -/
def genreSums (movies : List Movie) : List (String × Float × Nat) :=
  (Tally.ofMovies (fun m => addRating (ratingOf m)) movies).rows.toList

/-- A genre with the mean of its ratings. -/
def meanOf : String × Float × Nat → String × Float
  | (g, sum, n) => (g, sum / Float.ofNat n)

/-- The first of two genres may stand in front of the second one. -/
def notBelow (a b : String × Float) : Bool := Number.orderKey b.2 ≤ Number.orderKey a.2

/-- The mean rating of each genre, the highest first; equal ones stay in the
order in which the genres came up. -/
def genreRatings (movies : List Movie) : List (String × Float) :=
  ((genreSums movies).map meanOf).mergeSort notBelow

/-- All that the profile page shows. -/
structure Summary where
  createdAt : Instant
  total : Nat
  counts : List (String × Nat)
  ratings : List (String × Float)

def summary (createdAt : Instant) (movies : List Movie) : Summary :=
  ⟨createdAt, movies.length, genreCounts movies, genreRatings movies⟩

def Summary.toJson (s : Summary) : Json :=
  .object [
    ("accountCreatedAt", .text (String.ofList s.createdAt.shortText)),
    ("totalMovies", .whole s.total),
    ("genres", .array (s.counts.map fun (g, n) =>
      .object [("genre", .text g), ("count", .whole n)])),
    ("genreRatings", .array (s.ratings.map fun (g, x) =>
      .object [("genre", .text g), ("rating", .real x)]))]

end Matinee.Profile
