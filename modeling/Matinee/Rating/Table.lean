/-
# `Matinee.Rating.Table` — mean ratings of items

A table keeps the rating samples of every item in the order of the file.  Once the
file is read to its end, the means are computed from the samples and kept beside
them; questions are answered from the means.  The mean of an item adds its own
samples and divides once, so lines of other items, malformed lines and the cutting
of the stream have no part in it (`getElem?_record`, `getElem?_computeMeans`).
-/
import Matinee.Dataset.Row
import Matinee.Failure
import Matinee.Keys

namespace Matinee.Rating

/-- What has been read from a file: `accepted` samples in `processed` data lines. -/
structure Table where
  processed : Nat
  accepted : Nat
  /-- The values of each item, the latest at the end. -/
  samples : Std.ExtHashMap UInt64 (Array Float)
  /-- Empty until all samples are there (`computeMeans`). -/
  means : Std.ExtHashMap UInt64 Float

/-- The mean rating of an item and the number of its samples. -/
structure Aggregate where
  item : UInt64
  mean : Float
  count : Nat
deriving DecidableEq, Repr

namespace Table

def empty : Table := ⟨0, 0, ∅, ∅⟩

/-- One more sample. -/
def record (t : Table) (s : Dataset.Sample) : Table :=
  { t with
    samples := t.samples.alter s.item fun values? => some ((values?.getD #[]).push s.value)
    accepted := t.accepted + 1 }

/-- Values are added one after another and divided once. -/
def meanOf (values : Array Float) : Float :=
  values.foldl (· + ·) 0.0 / Float.ofNat values.size

def computeMeans (t : Table) : Table :=
  { t with means := t.samples.map fun _ values => meanOf values }

/-- One data line. -/
def ingest (t : Table) (line : List Char) : Table :=
  let t' := { t with processed := t.processed + 1 }
  match Dataset.sample? line with
  | some s => t'.record s
  | none => t'

/-- How many items have a mean. -/
def itemCount (t : Table) : Nat := t.means.size

def mean? (t : Table) (item : UInt64) : Option Float := t.means[item]?

/-- The mean of an item with the number of its samples, which is looked up apart. -/
def aggregate? (t : Table) (item : UInt64) : Option Aggregate :=
  (t.mean? item).map fun mean => ⟨item, mean, (t.samples[item]?.map Array.size).getD 0⟩

theorem map_mean_aggregate? (t : Table) (item : UInt64) :
    (t.aggregate? item).map (·.mean) = t.mean? item := by
  rw [aggregate?, Option.map_map]
  exact Option.map_id'

/-- The table of a stream of chunks.  A chunk that cannot be read fails the
whole table. -/
def ofChunks (chunks : List (Except Failure (List UInt8))) : Except Failure Table :=
  go .empty empty chunks
where
  go (b : Dataset.LineBuffer) (t : Table) :
      List (Except Failure (List UInt8)) → Except Failure Table
    | [] => .ok (b.finish.toList.foldl ingest t).computeMeans
    | .error f :: _ => .error f
    | .ok chunk :: rest =>
      let (lines, b') := b.push chunk
      go b' (lines.foldl ingest t) rest

/-- A sample changes the values of its own item alone. -/
theorem getElem?_record (t : Table) (s : Dataset.Sample) (item : UInt64) :
    (t.record s).samples[item]? =
      if s.item = item then some ((t.samples[item]?.getD #[]).push s.value)
      else t.samples[item]? := by
  simp only [record, Std.ExtHashMap.getElem?_alter, beq_iff_eq]
  split
  · subst_vars; rfl
  · rfl

/-- A sample adds a row only if its item has none. -/
theorem size_record (t : Table) (s : Dataset.Sample) :
    (t.record s).samples.size =
      if s.item ∈ t.samples then t.samples.size else t.samples.size + 1 := by
  split
  · rename_i hmem
    exact Std.ExtHashMap.size_alter_eq_self_of_mem hmem rfl
  · rename_i hmem
    exact Std.ExtHashMap.size_alter_eq_add_one hmem rfl

@[simp]
theorem computeMeans_processed (t : Table) : t.computeMeans.processed = t.processed := rfl

@[simp]
theorem computeMeans_accepted (t : Table) : t.computeMeans.accepted = t.accepted := rfl

@[simp]
theorem computeMeans_samples (t : Table) : t.computeMeans.samples = t.samples := rfl

theorem getElem?_computeMeans (t : Table) (item : UInt64) :
    t.computeMeans.means[item]? = t.samples[item]?.map meanOf :=
  Std.ExtHashMap.getElem?_map

/-- The values that some samples give to an item. -/
def valuesOf (samples : List Dataset.Sample) (item : UInt64) : List Float :=
  (samples.filter (·.item == item)).map (·.value)

end Table

end Matinee.Rating
