/-
# `Matinee.Api.Route` — what a path leads to

Paths are matched as they are written, letter by letter; nothing is decoded
before.  A segment that is a parameter must not be empty.
-/
import Matinee.Text.Pieces

namespace Matinee.Api

inductive Resource where
  | health
  | search
  | liveSearch
  | trending
  | topRated
  | popular
  | ratingBatch
  | rating (segment : List Char)
  | watchList
  | savedMovie (segment : List Char)
  | profile
  | recommendations
  | popularRecommendations
deriving DecidableEq, Repr

namespace Resource

/-- The resources below the common root. -/
def ofSegments? : List String → Option Resource
  | ["movies", "search"] => some .search
  | ["movies", "search", "live"] => some .liveSearch
  | ["movies", "trending"] => some .trending
  | ["movies", "top-rated"] => some .topRated
  | ["movies", "popular"] => some .popular
  | ["ratings", "batch"] => some .ratingBatch
  | ["ratings", id] => if id.isEmpty then none else some (.rating id.toList)
  | ["watchlist"] => some .watchList
  | ["watchlist", id] => if id.isEmpty then none else some (.savedMovie id.toList)
  | ["profile"] => some .profile
  | ["recommendations"] => some .recommendations
  | ["recommendations", "popular"] => some .popularRecommendations
  | _ => none

def ofPath? (path : List Char) : Option Resource :=
  match (Text.splitAt (· == '/') path).map String.ofList with
  | ["", "health"] => some .health
  | "" :: "api" :: "v1" :: segments => ofSegments? segments
  | _ => none

/-- A slash at the end leads nowhere. -/
example : ofPath? "/api/v1/ratings/862".toList = some (.rating "862".toList) ∧
    ofPath? "/api/v1/ratings/".toList = none := by decide +kernel

end Resource

/-- An address may name a scheme and a host in front of its path; they lead nowhere. -/
def withoutHost (address : List Char) : List Char :=
  if address.head? = some '/' then address
  else match Text.dropFront? "://".toList (address.dropWhile (· != ':')) with
    | some rest => rest.dropWhile fun c => c != '/' && c != '?'
    | none => address

/-- An address without its fragment, cut at the first question mark. -/
def splitTarget (target : String) : List Char × List Char :=
  let s := withoutHost (target.toList.takeWhile (· != '#'))
  (s.takeWhile (· != '?'), (s.dropWhile (· != '?')).drop 1)

example : splitTarget "s://h:80/health?a=b://c#d" =
    ("/health".toList, "a=b://c".toList) := by decide +kernel

example : splitTarget "/health?s://h" =
    ("/health".toList, "s://h".toList) := by decide +kernel

end Matinee.Api
