/-
# `Matinee.Api.Service` — the running service

What the service keeps between requests is its settings, what it has read of the
dataset, and its live search.  Everything else lies outside, in a `World` whose
monad tells what looking there does.  Time passes only in `elapse`.
-/
import Matinee.Api.Response
import Matinee.Catalog
import Matinee.Dataset.Source
import Matinee.LiveSearch.Clocked
import Matinee.Rating.Ratings
import Matinee.Recommender
import Matinee.RemoteCatalog.Client
import Matinee.Search.Engine
import Matinee.Settings.Basic
import Matinee.WatchList

namespace Matinee

/-- All that lies outside of the service. -/
structure World (m : Type → Type) where
  access : Dataset.Access m
  store : (c : Store.Call) → m (Except Failure c.Answer)
  now : m Instant
  /-- An id for a request that has none. -/
  freshId : m String

structure Service where
  settings : Settings
  catalog : Catalog
  ratings : Rating.Ratings
  live : LiveSearch.Clocked

/-- The remote catalog, if there is a key for it. -/
def Settings.remoteCatalog (s : Settings) : Option RemoteCatalog.Client :=
  s.credential.map fun key => {
    key
    api := String.ofList (Text.dropEndWhile (· == '/') s.remoteApi.toList)
    images := s.remoteImages
    language := s.remoteLanguage }

namespace Service

/-- Nothing is read before it is needed. -/
def start (s : Settings) : Service := ⟨s, none, .empty, .initial⟩

def watchList (s : Service) : WatchList := ⟨s.settings.space⟩

def recommender (s : Service) : Recommender := .ofAddress s.settings.recommender

section

variable {m : Type → Type} [Monad m] (w : World m)

/-- The catalog, read if that has not been done. -/
def entries : StateT Service m (List CatalogEntry) := fun s => do
  let fetch := w.access.readText (.ofText s.settings.catalog)
  let (found, catalog) ← (Catalog.load fetch).run s.catalog
  return (found, { s with catalog })

def ratingSources (s : Settings) : Rating.Sources m where
  links := w.access.readText (.ofText s.links)
  samples := w.access.readChunks (.ofText s.ratings)

/-- A question about ratings. -/
def onRatings (question : Rating.Sources m → StateT Rating.Ratings m α) : StateT Service m α :=
  fun s => do
    let (a, ratings) ← (question (ratingSources w s.settings)).run s.ratings
    return (a, { s with ratings })

/-- Looks a title up in the remote catalog. -/
def lookup (c : RemoteCatalog.Client) (title : String) : m Search.Lookup := do
  match ← c.ask w.access.exchange (.titled title) with
  | .ok movies => return .found movies
  | .error f => return .failed f

/-- The movies that a query finds. -/
def search (query : String) (limit : Nat) : StateT Service m (List Movie) := do
  let ask := (← get).settings.remoteCatalog.map (lookup w)
  Search.search (entries w) (ask.map fun ask title => StateT.lift (ask title)) query limit

/-- A list of the remote catalog; nothing if it cannot be had. -/
def listing (q : RemoteCatalog.Question) : StateT Service m (List Movie) := do
  match (← get).settings.remoteCatalog with
  | none => return []
  | some client => return (← (client.ask w.access.exchange q : m _)).toOption.getD []

def recommend (token : String) (count : Nat) (q : Recommender.Question) :
    StateT Service m (List Movie) := do
  let service := (← get).recommender
  StateT.lift (service.ask w.access.exchange token count q)

/-- Runs an operation on the store. -/
def onStore (action : WatchList → Store.Action α) : StateT Service m (Except Failure α) := do
  let program := (action (← get).watchList).run
  StateT.lift (program.run w.store)

/-- Takes the text of a live search. -/
def setLiveQuery (text : String) : StateT Service m Unit :=
  modify fun s => { s with live := s.live.schedule s.settings.pause text }

/-- A live search is not limited by what requests may ask for, only by the
settings; its look-ups take no time that can be seen. -/
def liveSearcher : LiveSearch.Clocked.Searcher (StateT Service m) := fun query => do
  return (← search w query (← get).settings.searchLimit, 0)

/-- Lets time pass. -/
def elapse (ms : Nat) : StateT Service m Unit := do
  let live ← (← get).live.advance (liveSearcher w) ms
  modify fun s => { s with live }

def invalidateRatings : StateT Service m Unit := modify fun s => { s with ratings := .empty }

end

end Service

end Matinee
