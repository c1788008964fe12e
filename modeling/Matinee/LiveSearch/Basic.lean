/-
# `Matinee.LiveSearch.Basic` — searching while the query is typed

Every change of the query text starts a timer anew; when typing pauses the timer
fires and a search begins.  Searches run side by side and end in any order.  The
outcome of one is published if its query is still the latest text.

A blank text clears the published results at once.  A text of one character
starts no timer, it only makes the searches before it late.

The three events of this machine are all that happens to it.  Time is no part of
it (`LiveSearch.Clocked` adds that), so its laws hold of every order of events.
-/
import Matinee.Search.Ranking

namespace Matinee

/-- A published outcome. -/
structure Snapshot where
  query : String
  results : List Movie
deriving DecidableEq, Repr

/-- The snapshot before anything has been published. -/
def Snapshot.cleared : Snapshot := ⟨"", []⟩

/-- A search that has begun; `call` is the number of the text that led to it. -/
structure Running where
  call : Nat
  query : String
deriving DecidableEq, Repr

structure LiveSearch where
  /-- How many texts have been given. -/
  calls : Nat
  /-- The trimmed form of the last one. -/
  latest : String
  /-- The search that begins when the timer fires. -/
  timer : Option Running
  running : List Running
  current : Snapshot
  /-- How many snapshots have been published. -/
  published : Nat
deriving DecidableEq, Repr

namespace LiveSearch

def initial : LiveSearch := ⟨0, "", none, [], .cleared, 0⟩

def publish (s : LiveSearch) (snapshot : Snapshot) : LiveSearch :=
  { s with current := snapshot, published := s.published + 1 }

/-- A new query text. -/
def schedule (s : LiveSearch) (text : String) : LiveSearch :=
  let query := String.ofList (Text.trim text.toList)
  let s' := { s with calls := s.calls + 1, latest := query, timer := none }
  if query.isEmpty then s'.publish .cleared
  else if Search.isSearchable query then { s' with timer := some ⟨s.calls, query⟩ }
  else s'

/-- The timer fires. -/
def fire (s : LiveSearch) : LiveSearch :=
  match s.timer with
  | some search => { s with timer := none, running := s.running ++ [search] }
  | none => s

/-- The search that the text number `call` led to is over. -/
def finish (s : LiveSearch) (call : Nat) (results : List Movie) : LiveSearch :=
  match s.running.find? (·.call == call) with
  | some search =>
    let s' := { s with running := s.running.filter (·.call != call) }
    if s.latest = search.query then s'.publish ⟨search.query, results⟩ else s'
  | none => s

inductive Event where
  | schedule (text : String)
  | fire
  | finish (call : Nat) (results : List Movie)

def step (s : LiveSearch) : Event → LiveSearch
  | .schedule text => s.schedule text
  | .fire => s.fire
  | .finish call results => s.finish call results

/-- The state after some events. -/
def runEvents (events : List Event) : LiveSearch := events.foldl step initial

end LiveSearch

end Matinee
