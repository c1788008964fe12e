/-
# `Matinee.Proofs.Rating.Batch` — many ids together are rated like each of them alone

The mean of an external id, its rating, and its entry among those of many ids are found
on different ways, and at different times.  If the files stay the same, what has been
kept of a file is what it always holds, or nothing yet (`Steady`).  Then each question
is answered from what the files hold, whatever has been asked before (`Steady.answer`).
So the three need to agree on fixed links and a fixed table only.

Among many ids the entries are made one by one, and an id that is named twice gets the
same entry again (`getElem?_foldl_insert`).  That a rating counts one sample at least
is the invariant of the table: an item without samples has no row in it, and so no mean.
-/
import Matinee.Proofs.Rating.Links
import Matinee.Proofs.Rating.Visits

namespace Matinee.Rating

theorem getElem?_foldl_insert (value? : UInt64 → Option Float) (keys : List UInt64)
    (found : Std.TreeMap UInt64 Float) (key : UInt64) :
    (keys.foldl
      (fun found k =>
        match value? k with
        | some x => found.insert k x
        | none => found)
      found)[key]? = (if key ∈ keys then value? key else none).or found[key]? := by
  induction keys generalizing found with
  | nil => simp
  | cons k keys ih =>
      rw [List.foldl_cons, ih]
      by_cases hk : key = k
      · subst hk
        -- a key that comes again makes the entry that it has already
        cases hvalue : value? key with
        | none => simp
        | some x => by_cases hmem : key ∈ keys <;> simp [hmem]
      · have hother : (match value? k with
            | some x => found.insert k x
            | none => found)[key]? = found[key]? := by
          cases value? k with
          | none => rfl
          | some x => simp [Std.TreeMap.getElem?_insert, Ne.symm hk]
        rw [hother]
        simp [hk]

namespace Ratings

theorem getElem?_manyOf (links : Option Links) (table : Option Table) (externals : List UInt64)
    (votes : Std.TreeMap UInt64 Float) (external : UInt64) :
    (manyOf links table externals votes)[external]? =
      if external ∈ externals then
        (datasetMean links table external).or (voteRating votes external)
      else none := by
  refine (getElem?_foldl_insert
    (fun external => (datasetMean links table external).or (voteRating votes external))
    externals ∅ external).trans ?_
  simp

/-! ## Files that stay the same -/

namespace Script

/-- Every fetch of a file comes to the same. -/
def fixed (links : LinksFetch) (samples : SamplesFetch) : Script where
  links _ := links
  samples _ := samples

/-- What something comes to that is asked behind these questions. -/
def reply {α : Type} (script : Script) (before : List Question)
    (ask : Sources (StateM (Nat × Nat)) → StateT Ratings (StateM (Nat × Nat)) α) : α :=
  (run (script.after start before) (ask script.sources)).1

/-- What has been kept of a file, if anything, is what it always holds. -/
structure Steady (links : LinksFetch) (samples : SamplesFetch) (s : State) : Prop where
  links : s.kept.links = none ∨ s.kept.links = loadLinks links
  table : s.kept.table = none ∨ s.kept.table = loadTable samples

theorem steady_slot {α ο : Type} {load : ο → Option α} {o : ο} {slot slot' : Option α}
    {fetched : List ο} {needed forgets : Bool} {n n' : Nat}
    (hslot : slot = none ∨ slot = load o)
    (h : Looked load (fun _ => o) needed forgets slot n fetched slot' n') :
    (slot' = none ∨ slot' = load o) ∧ (needed = true → slot' = load o) := by
  have hkeeps := h.needed_keeps
  rw [h.slot_eq, h.fetched_eq]
  cases slot with
  | none => cases needed <;> cases forgets <;> simp_all
  | some a =>
      have ha : some a = load o := hslot.resolve_left nofun
      cases forgets with
      | true => exact ⟨.inl rfl, fun hneeded => absurd (hkeeps hneeded) nofun⟩
      | false => exact ⟨.inr ha, fun _ => ha⟩

section Steady

variable {links : LinksFetch} {samples : SamplesFetch} {s s' : State} {q : Question} {v : Visit}

theorem steady_start : Steady links samples start := ⟨.inl rfl, .inl rfl⟩

theorem Steady.of_links (h : Steady links samples s) (hm : Made (fixed links samples) s q v s') :
    (s'.kept.links = none ∨ s'.kept.links = loadLinks links) ∧
      (q.needsLinks = true → s'.kept.links = loadLinks links) :=
  steady_slot h.links hm.links

theorem Steady.of_table (h : Steady links samples s) (hm : Made (fixed links samples) s q v s') :
    (s'.kept.table = none ∨ s'.kept.table = loadTable samples) ∧
      (q.needsTable s'.kept.links = true → s'.kept.table = loadTable samples) :=
  steady_slot h.table hm.table

theorem steady_after (before : List Question) :
    Steady links samples ((fixed links samples).after start before) := by
  induction before using List.reverseRecOn with
  | nil => exact steady_start
  | append_singleton before q ih =>
      rw [after_concat]
      have hm := made (fixed links samples) ((fixed links samples).after start before) q
      exact ⟨(ih.of_links hm).1, (ih.of_table hm).1⟩

/-- A question is answered from what the files hold: of what it does not need, the answer
does not depend. -/
theorem Steady.answer (h : Steady links samples s) (hm : Made (fixed links samples) s q v s') :
    v.answer = q.answer (loadLinks links) (loadTable samples) := by
  have hlinks := (h.of_links hm).2
  have htable := (h.of_table hm).2
  rw [hm.answer]
  cases q with
  | meanOfExternal external =>
      rw [hlinks rfl] at htable ⊢
      -- without an item the table may be the one or the other
      cases hitem : (loadLinks links).bind (·.item? external) with
      | none => simp [Question.answer, datasetMean_eq, hitem]
      | some item => rw [htable (by simp [Question.needsTable, hitem])]
  | ofExternal external =>
      rw [hlinks rfl] at htable ⊢
      cases hitem : (loadLinks links).bind (·.item? external) with
      | none => simp [Question.answer, hitem]
      | some item => rw [htable (by simp [Question.needsTable, hitem])]
  | meanOfItem item =>
      rw [htable rfl]
      rfl
  | ofItem item =>
      rw [htable rfl]
      rfl
  | ofMany externals votes => rw [hlinks rfl, htable rfl]
  | invalidate => rfl

end Steady

section Reply

variable (links : LinksFetch) (samples : SamplesFetch) (before : List Question)

theorem answer_fixed (q : Question) :
    ((fixed links samples).visit ((fixed links samples).after start before) q).1.answer =
      q.answer (loadLinks links) (loadTable samples) :=
  (steady_after before).answer (made _ _ q)

theorem reply_meanOfExternal (external : UInt64) :
    (fixed links samples).reply before (meanOfExternal · external) =
      datasetMean (loadLinks links) (loadTable samples) external :=
  Answer.mean.inj (answer_fixed links samples before (.meanOfExternal external))

theorem reply_ofExternal (external : UInt64) :
    (fixed links samples).reply before (ofExternal · external) =
      ((loadLinks links).bind (·.item? external)).bind
        fun item => (loadTable samples).bind (·.aggregate? item) :=
  Answer.rating.inj (answer_fixed links samples before (.ofExternal external))

theorem reply_ofMany (externals : List UInt64) (votes : Std.TreeMap UInt64 Float) :
    (fixed links samples).reply before (ofMany · externals votes) =
      manyOf (loadLinks links) (loadTable samples) externals votes :=
  Answer.ratings.inj (answer_fixed links samples before (.ofMany externals votes))

end Reply

end Script

/-! ## What the files hold -/

theorem read_or_broken (stream : List (Except Failure (List UInt8))) :
    (∃ chunks : List (List UInt8), stream = chunks.map .ok) ∨
      ∃ (chunks : List (List UInt8)) (f : Failure) (rest : List (Except Failure (List UInt8))),
        stream = chunks.map .ok ++ .error f :: rest := by
  induction stream with
  | nil => exact .inl ⟨[], rfl⟩
  | cons chunk stream ih =>
      cases chunk with
      | error f => exact .inr ⟨[], f, stream, rfl⟩
      | ok chunk =>
          rcases ih with ⟨chunks, rfl⟩ | ⟨chunks, f, rest, rfl⟩
          · exact .inl ⟨chunk :: chunks, rfl⟩
          · exact .inr ⟨chunk :: chunks, f, rest, rfl⟩

theorem tallied_of_loadTable {samples : SamplesFetch} {t : Table}
    (h : loadTable samples = some t) :
    ∃ (lines : List (List Char)) (t₀ : Table), Table.Tallied lines t₀ ∧ t = t₀.computeMeans := by
  cases samples with
  | error f => cases h
  | ok stream =>
      rcases read_or_broken stream with ⟨chunks, rfl⟩ | ⟨chunks, f, rest, rfl⟩
      · rw [loadTable_ok, Option.some_inj] at h
        exact ⟨_, _, Table.tallied_foldl (Table.linesIn chunks), h.symm⟩
      · rw [loadTable_broken] at h
        cases h

theorem count_pos {samples : SamplesFetch} {item : UInt64} {a : Aggregate}
    (h : (loadTable samples).bind (·.aggregate? item) = some a) : 1 ≤ a.count := by
  obtain ⟨t, ht, ha⟩ := Option.bind_eq_some_iff.mp h
  obtain ⟨lines, t₀, hlines, rfl⟩ := tallied_of_loadTable ht
  rw [hlines.aggregate?_eq, Table.aggregateOf?] at ha
  split at ha
  · cases ha
  · rename_i hvalues
    cases ha
    exact List.length_pos_iff.mpr fun hnil => hvalues (List.isEmpty_iff.mpr hnil)

theorem datasetMean_eq_map (links : Option Links) (table : Option Table) (external : UInt64) :
    datasetMean links table external =
      ((links.bind (·.item? external)).bind fun item => table.bind (·.aggregate? item)).map
        (·.mean) := by
  rw [datasetMean_eq]
  cases links.bind (·.item? external) with
  | none => rfl
  | some item =>
      cases table with
      | none => rfl
      | some t => exact (t.map_mean_aggregate? item).symm

theorem aggregate?_eq_some_iff (text : List Char) (chunks : List (List UInt8)) (external : UInt64)
    (a : Aggregate) :
    (((loadLinks (.ok text)).bind (·.item? external)).bind fun item =>
        (loadTable (.ok (chunks.map .ok))).bind (·.aggregate? item)) = some a ↔
      Links.Standing (Dataset.linksOf text) external a.item ∧
        Table.aggregateOf? a.item (Table.valuesOf (Table.samplesIn chunks) a.item) = some a := by
  have htold (item : UInt64) : (loadTable (.ok (chunks.map .ok))).bind (·.aggregate? item) =
      Table.aggregateOf? item (Table.valuesOf (Table.samplesIn chunks) item) := by
    rw [loadTable_ok]
    exact (Table.tallied_foldl (Table.linesIn chunks)).aggregate?_eq item
  have hlinked (item : UInt64) : (loadLinks (.ok text)).bind (·.item? external) = some item ↔
      Links.Standing (Dataset.linksOf text) external item :=
    Links.item?_ofRows_iff (Dataset.linksOf text) external item
  rw [Option.bind_eq_some_iff]
  constructor
  · rintro ⟨item, hitem, ha⟩
    rw [htold] at ha
    obtain rfl : item = a.item := by
      rw [Table.aggregateOf?] at ha
      split at ha <;> cases ha
      rfl
    exact ⟨(hlinked _).mp hitem, ha⟩
  · rintro ⟨hstanding, ha⟩
    exact ⟨a.item, (hlinked _).mpr hstanding, (htold a.item).trans ha⟩

/-! ## Agreement -/

/-- How the mean of an external id, its rating and its entry among those of many ids go
together. -/
structure Agree (externals : List UInt64) (votes : Std.TreeMap UInt64 Float) (external : UInt64)
    (mean : Option Float) (rating : Option Aggregate) (found : Std.TreeMap UInt64 Float) :
    Prop where
  isSome_iff : found[external]?.isSome = true ↔
    external ∈ externals ∧
      (mean.isSome = true ∨ ∃ vote, votes[external]? = some vote ∧ 0.0 < vote)
  of_mean : external ∈ externals → ∀ x, mean = some x → found[external]? = some x
  of_vote : external ∈ externals → mean = none →
    ∀ vote, votes[external]? = some vote → 0.0 < vote → found[external]? = some (toFivePoint vote)
  rating_isSome : rating.isSome = mean.isSome
  of_rating : ∀ a, rating = some a → mean = some a.mean ∧ 1 ≤ a.count

theorem voteRating_eq_some_iff {votes : Std.TreeMap UInt64 Float} {external : UInt64} {x : Float} :
    voteRating votes external = some x ↔
      ∃ vote, votes[external]? = some vote ∧ 0.0 < vote ∧ toFivePoint vote = x := by
  simp [voteRating, and_assoc]

theorem isSome_voteRating_iff {votes : Std.TreeMap UInt64 Float} {external : UInt64} :
    (voteRating votes external).isSome = true ↔
      ∃ vote, votes[external]? = some vote ∧ 0.0 < vote := by
  simp only [Option.isSome_iff_exists, voteRating_eq_some_iff]
  constructor
  · rintro ⟨_, vote, hvote, hpos, -⟩
    exact ⟨vote, hvote, hpos⟩
  · rintro ⟨vote, hvote, hpos⟩
    exact ⟨_, vote, hvote, hpos, rfl⟩

theorem agree_of_loaded (links : LinksFetch) (samples : SamplesFetch) (externals : List UInt64)
    (votes : Std.TreeMap UInt64 Float) (external : UInt64) :
    Agree externals votes external (datasetMean (loadLinks links) (loadTable samples) external)
      (((loadLinks links).bind (·.item? external)).bind
        fun item => (loadTable samples).bind (·.aggregate? item))
      (manyOf (loadLinks links) (loadTable samples) externals votes) where
  isSome_iff := by
    rw [getElem?_manyOf]
    split
    · rename_i hmem
      rw [Option.isSome_or, Bool.or_eq_true, isSome_voteRating_iff]
      exact (and_iff_right hmem).symm
    · rename_i hmem
      exact iff_of_false nofun fun h => hmem h.1
  of_mean hmem x hx := by
    rw [getElem?_manyOf, if_pos hmem, hx, Option.some_or]
  of_vote hmem hnone vote hvote hpos := by
    rw [getElem?_manyOf, if_pos hmem, hnone, Option.none_or]
    exact voteRating_eq_some_iff.mpr ⟨vote, hvote, hpos, rfl⟩
  rating_isSome := by
    rw [datasetMean_eq_map, Option.isSome_map]
  of_rating a ha := by
    rw [datasetMean_eq_map, ha]
    obtain ⟨item, -, ha⟩ := Option.bind_eq_some_iff.mp ha
    exact ⟨rfl, count_pos ha⟩

theorem datasetMean_of_failed {links : LinksFetch} {samples : SamplesFetch} (external : UInt64)
    (h : loadLinks links = none ∨ loadTable samples = none) :
    datasetMean (loadLinks links) (loadTable samples) external = none := by
  rw [datasetMean_eq]
  rcases h with h | h <;> simp [h]

/-- **Many ids together are rated like each of them alone.**  The two files each hold the
same at every fetch, or fail every time; the three are asked for at any time.  Then an id
among many has the mean that it has alone, or else its vote if that is above zero, and
it has a rating whenever it has a mean, with this mean.  If one of the files fails, the
votes are all that counts; if both can be read, the rating is the one of the samples of
the item that the links name. -/
theorem many_agree_with_each (links : LinksFetch) (samples : SamplesFetch)
    (before₁ before₂ before₃ : List Question) (externals : List UInt64)
    (votes : Std.TreeMap UInt64 Float) (external : UInt64) :
    let script := Script.fixed links samples
    let mean := script.reply before₁ (meanOfExternal · external)
    let rating := script.reply before₂ (ofExternal · external)
    let found := script.reply before₃ (ofMany · externals votes)
    Agree externals votes external mean rating found ∧
    (∀ f, (links = .error f ∨ samples = .error f ∨
        ∃ (chunks : List (List UInt8)) (rest : List (Except Failure (List UInt8))),
          samples = .ok (chunks.map .ok ++ .error f :: rest)) →
      mean = none ∧ rating = none ∧
        (external ∈ externals →
          found[external]? = (votes[external]?.filter (0.0 < ·)).map toFivePoint)) ∧
    ∀ (text : List Char) (chunks : List (List UInt8)),
      links = .ok text → samples = .ok (chunks.map .ok) →
      ∀ a, rating = some a ↔
        Links.Standing (Dataset.linksOf text) external a.item ∧
          Table.aggregateOf? a.item (Table.valuesOf (Table.samplesIn chunks) a.item) = some a := by
  simp only [Script.reply_meanOfExternal, Script.reply_ofExternal, Script.reply_ofMany]
  have hagree := agree_of_loaded links samples externals votes external
  refine ⟨hagree, ?_, ?_⟩
  · intro f hfailed
    have hmean : datasetMean (loadLinks links) (loadTable samples) external = none := by
      refine datasetMean_of_failed external ?_
      rcases hfailed with rfl | rfl | ⟨chunks, rest, rfl⟩
      · exact .inl rfl
      · exact .inr rfl
      · exact .inr (loadTable_broken chunks f rest)
    refine ⟨hmean, ?_, ?_⟩
    · rw [← Option.not_isSome_iff_eq_none, hagree.rating_isSome, hmean]
      exact nofun
    · intro hmem
      rw [getElem?_manyOf, if_pos hmem, hmean, Option.none_or]
      rfl
  · rintro text chunks rfl rfl a
    exact aggregate?_eq_some_iff text chunks external a

/-- An id that is linked and rated, and named twice, has its mean.  If the stream of the
samples breaks off, it has its vote. -/
theorem many_agree_with_each_voted :
    let text := "h\n5,1,7".toList
    let chunks := [Text.Utf8.encode "h\n1,5,4.5\n2,".toList, Text.Utf8.encode "5,3\n".toList]
    let votes : Std.TreeMap UInt64 Float := {(7, 6.0), (8, 9.0)}
    let whole := Script.fixed (.ok text) (.ok (chunks.map .ok))
    let broken := Script.fixed (.ok text) (.ok (chunks.map .ok ++ [.error (.io "broken pipe")]))
    whole.reply [] (ofExternal · 7) = some ⟨5, 3.75, 2⟩ ∧
      (whole.reply [.ofItem 5, .invalidate] (ofMany · [7, 8, 7] votes))[(7 : UInt64)]? = some 3.75 ∧
      (broken.reply [.ofItem 5] (ofMany · [7, 8, 7] votes))[(7 : UInt64)]? = some 3.0 := by
  intro text chunks votes whole broken
  have hwhole := many_agree_with_each (.ok text) (.ok (chunks.map .ok)) []
    [] [.ofItem 5, .invalidate] [7, 8, 7] votes 7
  have hbroken := many_agree_with_each (.ok text)
    (.ok (chunks.map .ok ++ [.error (.io "broken pipe")])) [] [] [.ofItem 5] [7, 8, 7] votes 7
  obtain ⟨hagree, -, hread⟩ := hwhole
  obtain ⟨-, hfailed, -⟩ := hbroken
  have hrating : whole.reply [] (ofExternal · 7) = some ⟨5, 3.75, 2⟩ := by
    refine (hread text chunks rfl rfl _).mpr ⟨⟨[], [], ?_, nofun⟩, ?_⟩
    · decide +kernel
    · decide +kernel
  refine ⟨hrating, ?_, ?_⟩
  · exact hagree.of_mean List.mem_cons_self _ (hagree.of_rating _ hrating).1
  · rw [(hfailed _ (.inr (.inr ⟨chunks, [], rfl⟩))).2.2 List.mem_cons_self]
    decide +kernel

end Ratings

end Matinee.Rating
