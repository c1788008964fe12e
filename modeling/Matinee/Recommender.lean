/-
# `Matinee.Recommender` — recommendations from another service

The service is asked in the name of a user, by the user's bearer token.  It rates
on the five-point scale.  Whatever goes wrong, the answer is a list: an empty
one.
-/
import Matinee.Http.Message
import Matinee.Json.Decode
import Matinee.Movie.Basic
import Matinee.Number.Fixed
import Matinee.Number.Whole

namespace Matinee

open Json (RecordField Decoder)

/-- A movie as the service sends it. -/
structure ScoredMovie where
  id : UInt64
  title : String
  genres : List String
  rating : Float
  /-- How well the movie suits the user. -/
  score : Float
deriving DecidableEq

namespace ScoredMovie

structure Draft where
  id : Option UInt64
  title : Option String
  genres : List String
  rating : Float
  score : Float

def Draft.blank : Draft := ⟨none, none, [], 0.0, 0.0⟩

def Draft.finish (d : Draft) : Option ScoredMovie := do
  some ⟨← d.id, ← d.title, d.genres, d.rating, d.score⟩

def fields : List (RecordField Draft) := [
  ⟨"movieId", true, fun d t => do return { d with id := some (← Decoder.uint64 t) }⟩,
  ⟨"title", true, fun d t => do return { d with title := some (← Decoder.text t) }⟩,
  ⟨"genres", false, fun d t => do return { d with genres := ← Decoder.list Decoder.text t }⟩,
  ⟨"rating", false, fun d t => do return { d with rating := ← Decoder.real t }⟩,
  ⟨"score", false, fun d t => do return { d with score := ← Decoder.real t }⟩]

def decode : Decoder ScoredMovie := Decoder.record fields Draft.blank Draft.finish

/-- The score with four decimals. -/
def scoreText (x : Float) : String :=
  "Score: " ++ String.ofList (Number.fixedText 4 x)

/-- The movie itself; the score is told where the overview would be. -/
def toMovie (withScore : Bool) (s : ScoredMovie) : Movie :=
  { Movie.bare s.id s.title s.genres with
    rating := some s.rating
    fivePoint := some s.rating
    overview := if withScore then some (scoreText s.score) else none }

end ScoredMovie

structure Recommender where
  /-- The address in front of every path. -/
  base : String
deriving DecidableEq, Repr

namespace Recommender

/-- The service at an address; slashes at its end do not count. -/
def ofAddress (address : String) : Recommender :=
  ⟨String.ofList (Text.dropEndWhile (· == '/') address.toList)⟩

/-- What is asked for: movies for the user, or those that everybody likes. -/
inductive Question where
  | personal
  | popular
deriving DecidableEq, Repr

def request (r : Recommender) (token : String) (count : Nat) : Question → Http.Request
  | .personal => .postJson (r.base ++ "/api/recomend") [Http.bearer token]
      (.object [("top_n", .whole count)])
  | .popular => .get (Http.withParams (r.base ++ "/api/recomend/popular")
      [("top_n", String.ofList (Number.digits count))]) [Http.bearer token]

/-- The member of a reply that holds the list. -/
def Question.member : Question → String
  | .personal => "recommendations"
  | .popular => "movies"

/-- A reply: a record of one list. -/
def decodeReply (q : Question) : Decoder (List ScoredMovie) :=
  Decoder.record
    [⟨q.member, true, fun _ t => do return some (← Decoder.list ScoredMovie.decode t)⟩]
    none id

/-- The movies of a reply; none unless the reply is good as a whole. -/
def interpret (q : Question) (others : Http.Charset.Decoders) (reply : Http.Reply) : List Movie :=
  if !reply.isSuccess then []
  else match reply.text others with
    | .error _ => []
    | .ok text =>
      match Decoder.whole (decodeReply q) (.ofText (String.ofList text)) with
      | .ok movies => movies.map (·.toMovie (q = .personal))
      | .error _ => []

def ask {m : Type → Type} [Monad m] (exchange : Http.Exchange m) (r : Recommender)
    (token : String) (count : Nat) (q : Question) : m (List Movie) := do
  match ← exchange.send (r.request token count q) with
  | .ok reply => return interpret q exchange.decoders reply
  | .error _ => return []

end Recommender

end Matinee
