/-
# `Matinee.Api.Handle` — carrying out a request

The form of a request is checked before anything is done for it: the query, then
the token, then the rest.  An address that leads nowhere is answered 404, a
method that its resource does not have 405, both without a body.
-/
import Matinee.Api.Input
import Matinee.Api.RequestId
import Matinee.Api.Service
import Matinee.Profile

namespace Matinee.Api

/-- Work for a request, which may be refused. -/
abbrev Handler (m : Type → Type) := ExceptT Refusal (StateT Service m)

section

variable {m : Type → Type} [Monad m]

/-- Goes on with what could be read of a request. -/
def accept : Except Rejection α → Handler m α
  | .ok a => pure a
  | .error r => throw (.rejected r)

/-- Goes on with what has succeeded. -/
def succeed : Except Failure α → Handler m α
  | .ok a => pure a
  | .error f => throw (.failed f)

/-- A search that asks for more is cut down to this. -/
def maxLimit : Nat := 100

def movies (status : Nat) (ms : List Movie) : Response := .ofJson status (Movie.listToJson ms)

def healthy : Response := .ofJson 200 (.object [("status", .text "healthy")])

def snapshot (s : Snapshot) : Json :=
  .object [("query", .text s.query), ("results", Movie.listToJson s.results)]

variable (w : World m)

/-- An id in digits. -/
def idText (id : UInt64) : String := String.ofList (Number.digits id.toNat)

/-! ## Movies -/

def search (params : Http.Params) : Handler m Response := do
  let q ← accept (SearchQuery.read params)
  let limit := q.limit.getD (← get).settings.searchLimit
  return movies 200 (← Service.search w q.text (min limit maxLimit))

def listing (q : RemoteCatalog.Question) : Handler m Response := do
  return movies 200 (← Service.listing w q)

def takeLiveQuery (r : Http.Request) : Handler m Response := do
  let text ← accept (readBody liveQuery r)
  (Service.setLiveQuery text : StateT Service m Unit)
  return .bare 202

/-! ## Ratings -/

def ratingJson (external : UInt64) (a : Rating.Aggregate) : Json :=
  .object [("externalId", .whole external.toNat), ("rating", .real a.mean),
    ("count", .whole a.count)]

def rating (segment : List Char) : Handler m Response := do
  let external ← accept (readId segment)
  let found ← (Service.onRatings w (Rating.Ratings.ofExternal · external) : StateT Service m _)
  match found with
  | some a => return .ofJson 200 (ratingJson external a)
  | none =>
    throw (.failed (.notFound ("No ratings for movie " ++ idText external)))

/-- The votes of a batch; of several for one id the last counts. -/
def votesOf (batch : List Wanted) : Std.TreeMap UInt64 Float :=
  batch.foldl
    (fun votes wanted =>
      match wanted.vote with
      | some x => votes.insert wanted.id x
      | none => votes)
    ∅

def ratingsJson (found : Std.TreeMap UInt64 Float) : Json :=
  .object [("ratings", .object (found.toList.map fun (id, x) =>
    (idText id, .real x)))]

def ratings (r : Http.Request) : Handler m Response := do
  let batch ← accept (readBody ratingBatch r)
  let externals := batch.map (·.id)
  let found ← (Service.onRatings w (Rating.Ratings.ofMany · externals (votesOf batch)) :
    StateT Service m _)
  return .ofJson 200 (ratingsJson found)

/-! ## The watch-list -/

def saved : Handler m (List Movie) := do succeed (← Service.onStore w WatchList.entries)

def save (r : Http.Request) : Handler m Response := do
  let movie ← accept (readBody savedMovie r)
  if Text.isAllBlank movie.title.toList then
    throw (.failed (.invalidInput "Movie title cannot be empty"))
  let added ← succeed (← Service.onStore w (·.add movie))
  return movies (if added then 201 else 200) (← saved w)

def unsave (segment : List Char) : Handler m Response := do
  let id ← accept (readId segment)
  if ← succeed (← Service.onStore w (·.remove id)) then return .bare 204
  throw (.failed (.notFound ("Movie " ++ idText id ++ " is not in the watch-list")))

def profile : Handler m Response := do
  let now ← w.now
  let createdAt ← succeed (← Service.onStore w (·.createdAt now))
  return .ofJson 200 (Profile.summary createdAt (← saved w)).toJson

/-! ## Recommendations -/

def recommend (r : Http.Request) (params : Http.Params) (q : Recommender.Question) :
    Handler m Response := do
  let count ← accept (readCount params)
  let token ← succeed (bearerToken r)
  return movies 200 (← Service.recommend w token count q)

/-! ## All requests -/

/-- The work for a method of a resource, if the resource has it. -/
def work? (r : Http.Request) (params : Http.Params) : Resource → String → Option (Handler m Response)
  | .health, "GET" => some (pure healthy)
  | .search, "GET" => some (search w params)
  | .liveSearch, "GET" => some do return .ofJson 200 (snapshot (← get).live.live.current)
  | .liveSearch, "PUT" => some (takeLiveQuery r)
  | .trending, "GET" => some (listing w .trending)
  | .topRated, "GET" => some do listing w (.topRated (← accept (readPage params)))
  | .popular, "GET" => some do listing w (.popular (← accept (readPage params)))
  | .ratingBatch, "POST" => some (ratings w r)
  | .rating segment, "GET" => some (rating w segment)
  | .watchList, "GET" => some do return movies 200 (← saved w)
  | .watchList, "POST" => some (save w r)
  | .savedMovie segment, "DELETE" => some (unsave w segment)
  | .profile, "GET" => some (profile w)
  | .recommendations, "GET" => some (recommend w r params .personal)
  | .popularRecommendations, "GET" => some (recommend w r params .popular)
  | _, _ => none

/-- The response to a request, its id apart.  `HEAD` does what `GET` does and
leaves the body out. -/
def respond (r : Http.Request) : StateT Service m Response := do
  let (path, query) := splitTarget r.target
  let isHead := r.method = "HEAD"
  match Resource.ofPath? path with
  | none => return .bare 404
  | some resource =>
    match work? w r (Http.Form.decode query) resource (if isHead then "GET" else r.method) with
    | none => return .bare 405
    | some work =>
      let response := match ← work.run with
        | .ok response => response
        | .error refusal => refusal.response
      return if isHead then response.withoutBody else response

/-- Carries out a request.  The response has the id of the request, or a fresh
one.  A browser that asks what it may send is told without further ado. -/
def handle (r : Http.Request) : StateT Service m Response := do
  if r.method = "OPTIONS" then return .bare 200
  let given := (r.header? RequestId.header).bind RequestId.ofHeader?
  let id ← match given with
    | some id => pure id
    | none => w.freshId
  return { ← respond w r with requestId := some id }

end

end Matinee.Api
