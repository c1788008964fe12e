/-
# `Matinee.Proofs.Rating.Table` — a table of ratings counts the lines of its stream

The table is filled line by line while the octets still arrive.  It is the table of
the data lines of all octets together (`ofChunks_ok`), so how they were cut has no
part in it; and if the stream breaks off there is no table (`ofChunks_error`).

What a table has taken in is read off its lines (`Tallied`): each item that an
accepted line names has its own values, in their order, and no other item has any.  A
line keeps this (`tallied_ingest`), and with it all lines do.  The means are computed
when the last line is in, one for each item with samples (`mem_means_iff`); that the
two tables have the same items is what makes the mean and the number of ratings given
out those of the same values (`aggregateOf?`), whatever else the stream holds
(`ofChunks_counts_lines`).
-/
import Mathlib.Algebra.BigOperators.Group.Finset.Basic
import Mathlib.Data.List.Induction
import Matinee.Proofs.Dataset.Line
import Matinee.Rating.Table

namespace Matinee.Rating.Table

open Dataset (LineBuffer Sample sample? solidLines splitLines)
open Text.Utf8 (decodeLossy)

/-! ## The lines of a stream -/

/-- The data lines of the octets in some chunks. -/
def linesIn (chunks : List (List UInt8)) : List (List Char) :=
  (solidLines (splitLines (decodeLossy chunks.flatten))).drop 1

/-- The samples that the lines hold; a line that is no sample is passed over. -/
def samplesIn (chunks : List (List UInt8)) : List Sample := (linesIn chunks).filterMap sample?

theorem linesOf_eq_linesIn (chunks : List (List UInt8)) :
    LineBuffer.linesOf chunks = linesIn chunks := by
  have hgo := LineBuffer.go_eq (b := .empty) List.not_mem_nil chunks
  simpa [LineBuffer.linesOf, LineBuffer.empty, LineBuffer.accept, linesIn] using hgo

theorem go_ok (b : LineBuffer) (t : Table) (chunks : List (List UInt8)) :
    ofChunks.go b t (chunks.map .ok) =
      .ok ((LineBuffer.linesOf.go b chunks).foldl ingest t).computeMeans := by
  induction chunks generalizing b t with
  | nil => rfl
  | cons chunk chunks ih =>
      rw [List.map_cons, ofChunks.go, LineBuffer.linesOf.go, List.foldl_append]
      exact ih _ _

theorem ofChunks_ok (chunks : List (List UInt8)) :
    ofChunks (chunks.map .ok) = .ok ((linesIn chunks).foldl ingest empty).computeMeans := by
  rw [← linesOf_eq_linesIn]
  exact go_ok .empty .empty chunks

theorem go_error (b : LineBuffer) (t : Table) (chunks : List (List UInt8)) (f : Failure)
    (rest : List (Except Failure (List UInt8))) :
    ofChunks.go b t (chunks.map .ok ++ .error f :: rest) = .error f := by
  induction chunks generalizing b t with
  | nil => rfl
  | cons chunk chunks ih =>
      rw [List.map_cons, List.cons_append, ofChunks.go]
      exact ih _ _

theorem ofChunks_error (chunks : List (List UInt8)) (f : Failure)
    (rest : List (Except Failure (List UInt8))) :
    ofChunks (chunks.map .ok ++ .error f :: rest) = .error f :=
  go_error .empty .empty chunks f rest

/-! ## What a table has taken in -/

/-- The items that some samples are of. -/
def itemsOf (samples : List Sample) : Finset UInt64 := (samples.map (·.item)).toFinset

/-- What a table keeps of the values of an item.  It has no row of no values. -/
def keptOf? (values : List Float) : Option (Array Float) :=
  if values.isEmpty then none else some values.toArray

theorem getD_keptOf? (values : List Float) : (keptOf? values).getD #[] = values.toArray := by
  cases values <;> rfl

theorem keptOf?_concat (values : List Float) (value : Float) :
    keptOf? (values ++ [value]) = some (((keptOf? values).getD #[]).push value) := by
  rw [getD_keptOf?]
  simp [keptOf?]

theorem valuesOf_concat (samples : List Sample) (s : Sample) (item : UInt64) :
    valuesOf (samples ++ [s]) item =
      if s.item = item then valuesOf samples item ++ [s.value] else valuesOf samples item := by
  by_cases h : s.item = item <;> simp [valuesOf, h]

theorem valuesOf_isEmpty_eq_false_iff {samples : List Sample} {item : UInt64} :
    (valuesOf samples item).isEmpty = false ↔ item ∈ itemsOf samples := by
  simp [valuesOf, itemsOf, List.isEmpty_eq_false_iff, List.filter_eq_nil_iff]

/-- What a table keeps of the lines that it has taken in. -/
structure Tallied (lines : List (List Char)) (t : Table) : Prop where
  processed_eq : t.processed = lines.length
  accepted_eq : t.accepted = (lines.filterMap sample?).length
  samples_eq : ∀ item, t.samples[item]? = keptOf? (valuesOf (lines.filterMap sample?) item)
  size_eq : t.samples.size = (itemsOf (lines.filterMap sample?)).card

theorem tallied_empty : Tallied [] empty where
  processed_eq := rfl
  accepted_eq := rfl
  samples_eq := by simp [empty, keptOf?, valuesOf]
  size_eq := by simp [empty, itemsOf]

variable {lines : List (List Char)} {t : Table}

theorem Tallied.mem_samples_iff (h : Tallied lines t) {item : UInt64} :
    item ∈ t.samples ↔ item ∈ itemsOf (lines.filterMap sample?) := by
  rw [Std.ExtHashMap.mem_iff_isSome_getElem?, h.samples_eq, ← valuesOf_isEmpty_eq_false_iff]
  cases hempty : (valuesOf (lines.filterMap sample?) item).isEmpty <;> simp [keptOf?, hempty]

theorem ingest_of_none {line : List Char} (h : sample? line = none) (t : Table) :
    t.ingest line = { t with processed := t.processed + 1 } := by
  simp [ingest, h]

theorem ingest_of_some {line : List Char} {s : Sample} (h : sample? line = some s) (t : Table) :
    t.ingest line = { t.record s with processed := t.processed + 1 } := by
  simp [ingest, h, record]

/-- One more line is counted, and if it is a sample its value joins those of its item. -/
theorem tallied_ingest (h : Tallied lines t) (line : List Char) :
    Tallied (lines ++ [line]) (t.ingest line) := by
  cases hline : sample? line with
  | none =>
      have hsamples : (lines ++ [line]).filterMap sample? = lines.filterMap sample? := by
        simp [hline]
      rw [ingest_of_none hline]
      refine ⟨?_, ?_, ?_, ?_⟩
      · rw [List.length_append, List.length_singleton, h.processed_eq]
      · rw [hsamples]
        exact h.accepted_eq
      · rw [hsamples]
        exact h.samples_eq
      · rw [hsamples]
        exact h.size_eq
  | some s =>
      have hsamples : (lines ++ [line]).filterMap sample? = lines.filterMap sample? ++ [s] := by
        simp [hline]
      rw [ingest_of_some hline]
      refine ⟨?_, ?_, ?_, ?_⟩
      · rw [List.length_append, List.length_singleton, h.processed_eq]
      · rw [hsamples, List.length_append, List.length_singleton, ← h.accepted_eq]
        rfl
      · intro item
        rw [hsamples, valuesOf_concat]
        show (t.record s).samples[item]? = _
        rw [getElem?_record, h.samples_eq]
        split
        · rw [keptOf?_concat]
        · rfl
      · have hitems : itemsOf (lines.filterMap sample? ++ [s]) =
            insert s.item (itemsOf (lines.filterMap sample?)) := by
          ext item
          simp [itemsOf]
        rw [hsamples, hitems, Finset.card_insert_eq_ite, ← h.size_eq]
        show (t.record s).samples.size = _
        simp only [size_record, h.mem_samples_iff]

theorem tallied_foldl (lines : List (List Char)) : Tallied lines (lines.foldl ingest empty) := by
  induction lines using List.reverseRecOn with
  | nil => exact tallied_empty
  | append_singleton lines line ih =>
      rw [List.foldl_append]
      exact tallied_ingest ih line

/-! ## The means -/

theorem go_eq_computeMeans {b : LineBuffer} {chunks : List (Except Failure (List UInt8))}
    {t' : Table} (h : ofChunks.go b t chunks = .ok t') : ∃ t₀ : Table, t' = t₀.computeMeans := by
  induction chunks generalizing b t with
  | nil =>
      rw [ofChunks.go, Except.ok.injEq] at h
      exact ⟨_, h.symm⟩
  | cons chunk chunks ih =>
      cases chunk with
      | error f => cases h
      | ok chunk => exact ih h

/-- Whatever stream a table is of, each of its means is that of the samples beside it. -/
theorem getElem?_means {chunks : List (Except Failure (List UInt8))} (h : ofChunks chunks = .ok t)
    (item : UInt64) : t.means[item]? = t.samples[item]?.map meanOf := by
  obtain ⟨t₀, rfl⟩ := go_eq_computeMeans h
  exact getElem?_computeMeans t₀ item

theorem mem_means_iff {chunks : List (Except Failure (List UInt8))} (h : ofChunks chunks = .ok t)
    {item : UInt64} : item ∈ t.means ↔ item ∈ t.samples := by
  rw [Std.ExtHashMap.mem_iff_isSome_getElem?, getElem?_means h, Option.isSome_map,
    ← Std.ExtHashMap.mem_iff_isSome_getElem?]

/-- Mean and number come from two tables, and are of the same samples. -/
theorem aggregate?_computeMeans (t : Table) (item : UInt64) :
    t.computeMeans.aggregate? item =
      t.samples[item]?.map fun values => ⟨item, meanOf values, values.size⟩ := by
  rw [aggregate?, mean?, getElem?_computeMeans, computeMeans_samples]
  cases t.samples[item]? <;> rfl

theorem Tallied.itemCount_computeMeans (h : Tallied lines t) :
    t.computeMeans.itemCount = (itemsOf (lines.filterMap sample?)).card := by
  rw [← h.size_eq]
  exact Std.ExtHashMap.size_map

/-! ## What a table tells -/

/-- The rating of an item that has been given some values, if there are any. -/
def aggregateOf? (item : UInt64) (values : List Float) : Option Aggregate :=
  if values.isEmpty then none
  else some ⟨item, values.foldl (· + ·) 0.0 / Float.ofNat values.length, values.length⟩

theorem Tallied.aggregate?_eq (h : Tallied lines t) (item : UInt64) :
    t.computeMeans.aggregate? item =
      aggregateOf? item (valuesOf (lines.filterMap sample?) item) := by
  rw [aggregate?_computeMeans, h.samples_eq, keptOf?, aggregateOf?]
  split
  · rfl
  · rw [Option.map_some, meanOf, List.foldl_toArray, List.size_toArray]

theorem sum_length_valuesOf (samples : List Sample) :
    ∑ item ∈ itemsOf samples, (valuesOf samples item).length = samples.length := by
  have hcount (item : UInt64) :
      (valuesOf samples item).length = (samples.map (·.item)).count item := by
    rw [valuesOf, List.length_map, List.count, List.countP_map, List.countP_eq_length_filter]
    rfl
  simp only [hcount, itemsOf, List.sum_toFinset_count_eq_length, List.length_map]

theorem isSome_aggregateOf?_iff {samples : List Sample} {item : UInt64} :
    (aggregateOf? item (valuesOf samples item)).isSome = true ↔ item ∈ itemsOf samples := by
  rw [← valuesOf_isEmpty_eq_false_iff, aggregateOf?]
  split <;> simp_all

theorem count_aggregateOf? (item : UInt64) (values : List Float) :
    ((aggregateOf? item values).map (·.count)).getD 0 = values.length := by
  cases values <;> rfl

/-- **A table counts the lines of its stream.**  A stream that does not break off has a
table, and in it all data lines are processed and those that are samples accepted; the
items with a rating are those that a sample names, each rated by its own values in
their order.  Means and samples are kept of the same items, and the numbers of the
ratings add up to the accepted lines.  So two streams with the same values of an item
rate it alike.  A stream that breaks off fails with its first failure. -/
theorem ofChunks_counts_lines (chunks : List (List UInt8)) :
    (∃ t, ofChunks (chunks.map .ok) = .ok t ∧
      t.processed = (linesIn chunks).length ∧
      t.accepted = (samplesIn chunks).length ∧
      t.accepted ≤ t.processed ∧
      (∀ item, (t.aggregate? item).isSome = true ↔ ∃ s ∈ samplesIn chunks, s.item = item) ∧
      (∀ item, t.aggregate? item = aggregateOf? item (valuesOf (samplesIn chunks) item)) ∧
      t.itemCount = (itemsOf (samplesIn chunks)).card ∧
      (∀ item, item ∈ t.means ↔ item ∈ t.samples) ∧
      ∑ item ∈ itemsOf (samplesIn chunks), ((t.aggregate? item).map (·.count)).getD 0 =
        t.accepted ∧
      ∀ (others : List (List UInt8)) (t' : Table) (item : UInt64),
        ofChunks (others.map .ok) = .ok t' →
        valuesOf (samplesIn others) item = valuesOf (samplesIn chunks) item →
        t'.aggregate? item = t.aggregate? item) ∧
    ∀ (f : Failure) (rest : List (Except Failure (List UInt8))),
      ofChunks (chunks.map .ok ++ .error f :: rest) = .error f := by
  have htallied (chunks : List (List UInt8)) := tallied_foldl (linesIn chunks)
  refine ⟨⟨_, ofChunks_ok chunks, (htallied chunks).processed_eq, (htallied chunks).accepted_eq,
    ?_, fun item => ?_, (htallied chunks).aggregate?_eq, (htallied chunks).itemCount_computeMeans,
    fun item => mem_means_iff (ofChunks_ok chunks), ?_, ?_⟩, ofChunks_error chunks⟩
  · rw [computeMeans_accepted, computeMeans_processed, (htallied chunks).accepted_eq,
      (htallied chunks).processed_eq]
    exact List.length_filterMap_le sample? (linesIn chunks)
  · rw [(htallied chunks).aggregate?_eq, isSome_aggregateOf?_iff]
    simp [itemsOf, samplesIn]
  · rw [computeMeans_accepted, (htallied chunks).accepted_eq, ← sum_length_valuesOf]
    refine Finset.sum_congr rfl fun item _ => ?_
    rw [(htallied chunks).aggregate?_eq, count_aggregateOf?]
  · intro others t' item hothers hvalues
    rw [ofChunks_ok, Except.ok.injEq] at hothers
    rw [← hothers, (htallied others).aggregate?_eq, (htallied chunks).aggregate?_eq]
    exact congrArg _ hvalues

/-- A broken line, a line of another item, carriage returns and other cuts in between
leave the rating of an item as it is. -/
theorem ofChunks_counts_lines_mixed :
    let plain := [Text.Utf8.encode "h\n1,5,4.5\n2,".toList, Text.Utf8.encode "5,3\n".toList]
    let mixed := [Text.Utf8.encode "h\r\n1,5,4.5\nx\n9,7,1\n2,5,3".toList]
    valuesOf (samplesIn mixed) 5 = valuesOf (samplesIn plain) 5 ∧
      ∃ t t', ofChunks (plain.map .ok) = .ok t ∧ ofChunks (mixed.map .ok) = .ok t' ∧
        t'.processed = 4 ∧ t'.accepted = 3 ∧ t'.aggregate? 5 = t.aggregate? 5 ∧
        t.aggregate? 5 = some ⟨5, 3.75, 2⟩ := by
  intro plain mixed
  have hvalues : valuesOf (samplesIn mixed) 5 = valuesOf (samplesIn plain) 5 := by decide +kernel
  obtain ⟨⟨t, ht, -, -, -, -, hrating, -, -, -, hown⟩, -⟩ := ofChunks_counts_lines plain
  obtain ⟨⟨t', ht', hprocessed, haccepted, -⟩, -⟩ := ofChunks_counts_lines mixed
  exact ⟨hvalues, t, t', ht, ht', hprocessed.trans (by decide +kernel),
    haccepted.trans (by decide +kernel), hown mixed t' 5 ht' hvalues,
    (hrating 5).trans (by decide +kernel)⟩

end Matinee.Rating.Table
