/-
# `Matinee.WatchList` — the saved movies and the date of the account

The list is kept as one text, so a change reads it, changes it and writes it
back.  Writers refuse a text they cannot read and leave it alone; readers take
it for an empty list.  Whoever adds or removes holds the list's lock from the
first call to the last.

The account date is written once.  A stored date that cannot be read stays where
it is, and the present is answered in its place.
-/
import Matinee.Instant.Rfc3339
import Matinee.Movie.Json
import Matinee.Store.Basic
import Matinee.Store.Key

namespace Matinee

/-- The list of one namespace. -/
structure WatchList where
  space : Option String
deriving DecidableEq, Repr

namespace WatchList

open Store (Action)

def listKey (w : WatchList) : String := Store.Item.watchList.key w.space

def dateKey (w : WatchList) : String := Store.Item.accountDate.key w.space

/-- The failure of an operation on a text that is no list of movies. -/
def unreadable (f : Json.Fault) : Failure :=
  .internal ("Stored watch-list is not readable: " ++ match f with
    | .malformed => "malformed JSON"
    | .mismatch => "not a list of movies")

/-- The movies of a stored text; no text is no movies. -/
def read : Option String → Except Failure (List Movie)
  | none => .ok []
  | some text =>
    match Movie.listOfText text with
    | .ok movies => .ok movies
    | .error f => .error (unreadable f)

def write (movies : List Movie) : String := (Movie.listToJson movies).compact

/-- The movies as a writer has to see them. -/
def stored (w : WatchList) : Action (List Movie) := do
  match read (← Store.get w.listKey) with
  | .ok movies => return movies
  | .error f => throw f

def save (w : WatchList) (movies : List Movie) : Action Unit :=
  Store.set w.listKey (write movies)

/-- The saved movies in the order in which they were added. -/
def entries (w : WatchList) : Action (List Movie) :=
  tryCatch w.stored fun
    | .internal _ => return []
    | f => throw f

/-- Adds a movie at the end unless its id is there; tells whether it did. -/
def add (w : WatchList) (m : Movie) : Action Bool := do
  let movies ← w.stored
  if movies.any (·.id == m.id) then return false
  w.save (movies ++ [m])
  return true

/-- Removes the movies with an id; tells whether there were any. -/
def remove (w : WatchList) (id : UInt64) : Action Bool := do
  let movies ← w.stored
  let kept := movies.filter (·.id != id)
  if kept.length == movies.length then return false
  w.save kept
  return true

def contains (w : WatchList) (id : UInt64) : Action Bool := do
  return (← w.entries).any (·.id == id)

/-- Records the date of the account unless there is one; tells whether it did. -/
def setCreatedAt (w : WatchList) (date : Instant) : Action Bool :=
  Store.setIfAbsent w.dateKey (String.ofList date.millisText)

/-- The date of the account, recorded as `now` if there is none.  Another writer
may have been faster, so what is stored in the end is what counts. -/
def createdAt (w : WatchList) (now : Instant) : Action Instant := do
  match ← Store.get w.dateKey with
  | some text => return (Instant.readRfc3339 text.toList).getD now
  | none =>
    discard (w.setCreatedAt now)
    let text ← Store.get w.dateKey
    return (text.bind fun t => Instant.readRfc3339 t.toList).getD now

end WatchList

end Matinee
