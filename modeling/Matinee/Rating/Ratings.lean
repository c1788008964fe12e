/-
# `Matinee.Rating.Ratings` — dataset ratings by external id

Two files stand behind every answer: the links from external ids to items, and
the rating samples.  Each is read when it is first needed and then kept.  A file
that cannot be read counts as holding nothing, and is tried again by the next
question; the samples are not touched for an external id without a link.
-/
import Matinee.Cache
import Matinee.Rating.Links
import Matinee.Rating.Scale
import Matinee.Rating.Table
import Std.Data.TreeMap

namespace Matinee.Rating

/-- Where the two files come from. -/
structure Sources (m : Type → Type) where
  links : m (Except Failure (List Char))
  samples : m (Except Failure (List (Except Failure (List UInt8))))

/-- What has been read so far. -/
structure Ratings where
  links : Cache Links
  table : Cache Table

namespace Ratings

def empty : Ratings := ⟨none, none⟩

section

variable {m : Type → Type} [Monad m] (sources : Sources m)

/-- Runs a step of the links' cache. -/
def onLinks (step : StateT (Cache Links) m α) : StateT Ratings m α := fun r => do
  let (a, links) ← step.run r.links
  return (a, { r with links })

/-- Runs a step of the table's cache. -/
def onTable (step : StateT (Cache Table) m α) : StateT Ratings m α := fun r => do
  let (a, table) ← step.run r.table
  return (a, { r with table })

/-- The links, if they can be had. -/
def links? : StateT Ratings m (Option Links) := do
  let l ← onLinks (Cache.getOrFill (do return (← sources.links).map Links.ofText))
  return l.toOption

/-- The table, if it can be had. -/
def table? : StateT Ratings m (Option Table) := do
  let t ← onTable (Cache.getOrFill (do return (← sources.samples).bind Table.ofChunks))
  return t.toOption

/-- The rating of an item. -/
def ofItem (item : UInt64) : StateT Ratings m (Option Aggregate) := do
  return (← table? sources).bind (·.aggregate? item)

/-- The rating of the item with an external id. -/
def ofExternal (external : UInt64) : StateT Ratings m (Option Aggregate) := do
  match (← links? sources).bind (·.item? external) with
  | some item => ofItem sources item
  | none => return none

/-- The mean rating of an item. -/
def meanOfItem (item : UInt64) : StateT Ratings m (Option Float) := do
  return (← table? sources).bind (·.mean? item)

/-- The mean rating of the item with an external id. -/
def meanOfExternal (external : UInt64) : StateT Ratings m (Option Float) := do
  match (← links? sources).bind (·.item? external) with
  | some item => meanOfItem sources item
  | none => return none

/-- The mean rating in the two files, from what could be had of them. -/
def datasetMean (links : Option Links) (table : Option Table) (external : UInt64) :
    Option Float := do
  (← table).mean? (← (← links).item? external)

/-- A vote counts in place of a rating if it is above zero. -/
def voteRating (votes : Std.TreeMap UInt64 Float) (external : UInt64) : Option Float :=
  (votes[external]?.filter (0.0 < ·)).map toFivePoint

/-- The ratings of many external ids: the mean of the dataset, or else the vote
in five-point form; an id with neither is left out. -/
def ofMany (externals : List UInt64) (votes : Std.TreeMap UInt64 Float) :
    StateT Ratings m (Std.TreeMap UInt64 Float) := do
  let links ← links? sources
  let table ← table? sources
  return externals.foldl
    (fun found external =>
      match (datasetMean links table external).or (voteRating votes external) with
      | some x => found.insert external x
      | none => found)
    ∅

/-- Forgets both files. -/
def invalidate : StateT Ratings m Unit := set empty

end

end Ratings

end Matinee.Rating
