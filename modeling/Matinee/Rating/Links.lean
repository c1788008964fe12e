/-
# `Matinee.Rating.Links` — items and their external ids

A one-to-one link table that is read in both directions.  A new link wins over
the older ones: whatever touches one of its two ids is dropped.
-/
import Matinee.Dataset.Row
import Matinee.Keys

namespace Matinee.Rating

/-- Both directions of the links. -/
structure Links where
  itemOf : Std.ExtHashMap UInt64 UInt64
  externalOf : Std.ExtHashMap UInt64 UInt64

namespace Links

def empty : Links := ⟨∅, ∅⟩

def item? (l : Links) (external : UInt64) : Option UInt64 := l.itemOf[external]?

def external? (l : Links) (item : UInt64) : Option UInt64 := l.externalOf[item]?

def size (l : Links) : Nat := l.itemOf.size

def isEmpty (l : Links) : Bool := l.itemOf.isEmpty

/-- Links `external` with `item`; also gives the item that was linked with
`external` until now. -/
def insert (l : Links) (external item : UInt64) : Option UInt64 × Links :=
  let itemOf := match l.externalOf[item]? with
    | some old => if old = external then l.itemOf else l.itemOf.erase old
    | none => l.itemOf
  let externalOf := l.externalOf.insert item external
  let previous := itemOf[external]?
  let externalOf := match previous with
    | some old => if old = item then externalOf else externalOf.erase old
    | none => externalOf
  (previous, ⟨itemOf.insert external item, externalOf⟩)

/-- The table after some links, one after another. -/
def ofRows (rows : List Dataset.Link) : Links :=
  rows.foldl (fun l row => (l.insert row.external row.item).2) empty

/-- The table of a whole file. -/
def ofText (text : List Char) : Links := ofRows (Dataset.linksOf text)

end Links

end Matinee.Rating
