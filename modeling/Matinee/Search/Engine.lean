/-
# `Matinee.Search.Engine` — searching the catalog

The local catalog alone decides what is found and in what order.  If a remote
catalog is at hand, each movie found is looked up there by its title without the
year, all of them at once, and what the best match tells is added.  A look-up
that fails, crashes or finds nothing leaves its movie as it is.
-/
import Matinee.Failure
import Matinee.Search.Matching
import Matinee.Search.Ranking

namespace Matinee.Search

/-- What comes of one look-up. -/
inductive Lookup where
  | found (movies : List Movie)
  | failed (f : Failure)
  | crashed

/-- A movie after its look-up. -/
def decorate (m : Movie) : Lookup → Movie
  | .found movies =>
    match bestMatch m.title movies with
    | some best => m.enrich best
    | none => m
  | .failed _ | .crashed => m

/-- The movies after look-ups that came back in any order, each under the
position of its movie. -/
def gather (candidates : List Movie) (arrived : List (Nat × Lookup)) : List Movie :=
  candidates.mapIdx fun i m =>
    match arrived.lookup i with
    | some outcome => decorate m outcome
    | none => m

/-- The movies that the local catalog finds. -/
def candidates (entries : List CatalogEntry) (query : String) (limit : Nat) : List Movie :=
  (rank entries query limit).map Movie.ofEntry

/-- The titles that are looked up for some movies, one for each. -/
def askedTitles (found : List Movie) : List String := found.map fun m => stripYear m.title

/-- The movies that a query finds, looked up with `lookup` if there is a remote
catalog.  The local catalog is not even loaded for a query that is too short. -/
def search {m : Type → Type} [Monad m] (load : m (List CatalogEntry))
    (lookup : Option (String → m Lookup)) (query : String) (limit : Nat) : m (List Movie) := do
  if !isSearchable query then return []
  let found := candidates (← load) query limit
  match lookup with
  | none => return found
  | some ask =>
    let outcomes ← (askedTitles found).mapM ask
    return gather found (outcomes.mapIdx fun i outcome => (i, outcome))

end Matinee.Search
