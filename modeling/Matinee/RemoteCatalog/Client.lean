/-
# `Matinee.RemoteCatalog.Client` — asking the remote catalog

Four questions, each answered with a page of movies: a title, and the three lists
of what is trending, best rated and popular.  Page numbers start at 1.
-/
import Matinee.Http.Message
import Matinee.Number.Whole
import Matinee.RemoteCatalog.Page

namespace Matinee.RemoteCatalog

structure Client where
  key : String
  /-- The address in front of every path. -/
  api : String
  /-- The address in front of the paths of posters. -/
  images : String
  language : String
deriving DecidableEq, Repr

/-- The name of the service that is asked. -/
def serviceName : String := "tmdb"

inductive Question where
  | titled (title : String)
  | trending
  | topRated (page : UInt32)
  | popular (page : UInt32)
deriving DecidableEq, Repr

namespace Question

def path : Question → String
  | .titled _ => "/search/movie"
  | .trending => "/trending/movie/day"
  | .topRated _ => "/movie/top_rated"
  | .popular _ => "/movie/popular"

def pageText (page : UInt32) : String := String.ofList (Number.digits (max page.toNat 1))

def params : Question → Http.Params
  | .titled title => [("query", title), ("page", "1")]
  | .trending => []
  | .topRated page | .popular page => [("page", pageText page)]

/-- A blank title is not asked for. -/
def refusal : Question → Option Failure
  | .titled title =>
    if Text.isAllBlank title.toList then
      some (.invalidInput "Search title cannot be empty")
    else none
  | _ => none

end Question

namespace Client

def request (c : Client) (q : Question) : Http.Request :=
  .get (Http.withParams (c.api ++ q.path)
    ([("api_key", c.key), ("language", c.language)] ++ q.params)) []

/-- The failure that a reply with an error status is; its body tells more, if it
can be had. -/
def refused (others : Http.Charset.Decoders) (r : Http.Reply) : Failure :=
  let body := (r.text others).toOption.getD []
  .external ("TMDB API returned status " ++ Http.statusText r.status ++ ": " ++ String.ofList body)

def unreadable (f : Json.Fault) : Failure :=
  .external ("Failed to parse TMDB response: " ++ match f with
    | .malformed => "malformed JSON"
    | .mismatch => "not a page of movies")

/-- The movies of a reply. -/
def interpret (c : Client) (others : Http.Charset.Decoders) (r : Http.Reply) :
    Except Failure (List Movie) :=
  if !r.isSuccess then .error (refused others r)
  else (r.text others).bind fun text =>
    match Page.ofText (String.ofList text) with
    | .ok page => .ok (page.movies c.images)
    | .error f => .error (unreadable f)

def ask {m : Type → Type} [Monad m] (exchange : Http.Exchange m) (c : Client) (q : Question) :
    m (Except Failure (List Movie)) := do
  match q.refusal with
  | some f => return .error f
  | none => return (← exchange.send (c.request q)).bind (c.interpret exchange.decoders)

end Client

end Matinee.RemoteCatalog
