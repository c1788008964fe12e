/-
# `Matinee.Proofs.Search.Ranking` — the ranking is a sorted list, cut off

A search puts what it finds into one heap for each tier, and takes from the heaps
in turn.  Seen from outside there are no heaps: each entry found has a `Place`, its
tier with its position in the catalog, places are ordered by tier and then by
position, and the ranking has the first of them (`rank_is_first_places`).

The places come out of the catalog in the order of their positions.  So each heap is
in order by itself, and every place of a heap is before every place of the next one:
the heaps, one after the other, are the sorted list.
-/
import Mathlib.Data.List.Sort
import Matinee.Search.Ranking

namespace Matinee.Search

/-! ## Places -/

/-- The better a tier, the lower its level. -/
def Tier.level : Tier → Nat
  | .exact => 0
  | .partly => 1
  | .fuzzy => 2

/-- Where a ranking has to look for an entry. -/
structure Place where
  tier : Tier
  position : Nat
deriving DecidableEq, Repr

namespace Place

/-- The better tier is first, and within a tier the catalog decides. -/
def Before (p q : Place) : Prop :=
  p.tier.level < q.tier.level ∨ p.tier = q.tier ∧ p.position < q.position

instance (p q : Place) : Decidable (Before p q) := inferInstanceAs (Decidable (_ ∨ _))

/-- The order in which places are sorted. -/
def notAfter (p q : Place) : Bool := !decide (Before q p)

theorem Before.trans {p q r : Place} (hpq : Before p q) (hqr : Before q r) : Before p r := by
  rcases hpq with hpq | ⟨hpq, hpos⟩
  · rcases hqr with hqr | ⟨hqr, -⟩
    · exact Or.inl (hpq.trans hqr)
    · exact Or.inl (hqr ▸ hpq)
  · rcases hqr with hqr | ⟨hqr, hpos'⟩
    · exact Or.inl (hpq ▸ hqr)
    · exact Or.inr ⟨hpq.trans hqr, hpos.trans hpos'⟩

theorem not_before_self (p : Place) : ¬ Before p p := by
  rintro (h | ⟨-, h⟩)
  · exact Nat.lt_irrefl _ h
  · exact Nat.lt_irrefl _ h

theorem Before.not_before {p q : Place} (h : Before p q) : ¬ Before q p := fun h' =>
  not_before_self p (h.trans h')

theorem before_or_eq_or_before (p q : Place) : Before p q ∨ p = q ∨ Before q p := by
  obtain ⟨t, i⟩ := p
  obtain ⟨u, j⟩ := q
  by_cases htier : t = u
  · subst htier
    rcases Nat.lt_trichotomy i j with hij | rfl | hij
    · exact Or.inl (Or.inr ⟨rfl, hij⟩)
    · exact Or.inr (Or.inl rfl)
    · exact Or.inr (Or.inr (Or.inr ⟨rfl, hij⟩))
  · have hlevel : t.level ≠ u.level := by
      cases t <;> cases u <;> first | exact absurd rfl htier | exact nofun
    rcases Nat.lt_or_gt_of_ne hlevel with h | h
    · exact Or.inl (Or.inl h)
    · exact Or.inr (Or.inr (Or.inl h))

theorem notAfter_iff {p q : Place} : notAfter p q = true ↔ p = q ∨ Before p q := by
  simp only [notAfter, Bool.not_eq_true', decide_eq_false_iff_not]
  constructor
  · intro h
    rcases before_or_eq_or_before p q with hpq | rfl | hqp
    · exact Or.inr hpq
    · exact Or.inl rfl
    · exact absurd hqp h
  · rintro (rfl | h)
    · exact not_before_self p
    · exact h.not_before

theorem notAfter_trans (p q r : Place) (hpq : notAfter p q = true) (hqr : notAfter q r = true) :
    notAfter p r = true := by
  rw [notAfter_iff] at hpq hqr ⊢
  rcases hpq with rfl | hpq
  · exact hqr
  · rcases hqr with rfl | hqr
    · exact Or.inr hpq
    · exact Or.inr (hpq.trans hqr)

theorem notAfter_total (p q : Place) : (notAfter p q || notAfter q p) = true := by
  rw [Bool.or_eq_true, notAfter_iff, notAfter_iff]
  rcases before_or_eq_or_before p q with hpq | rfl | hqp
  · exact Or.inl (Or.inr hpq)
  · exact Or.inl (Or.inl rfl)
  · exact Or.inr (Or.inr hqp)

theorem eq_of_notAfter {p q : Place} (hpq : notAfter p q = true) (hqp : notAfter q p = true) :
    p = q := by
  rw [notAfter_iff] at hpq hqp
  rcases hpq with rfl | hpq
  · rfl
  · rcases hqp with rfl | hqp
    · rfl
    · exact absurd hqp hpq.not_before

end Place

/-! ## The places of a catalog -/

/-- The entry at the place is in the tier of the place. -/
def Meets (entries : List CatalogEntry) (query : String) (p : Place) : Prop :=
  ∃ e, entries[p.position]? = some e ∧
    tier? (comparisonForm e.title) (comparisonForm query) = some p.tier

/-- The entries that a query finds, each with its place, in the order of the catalog. -/
def placed (entries : List CatalogEntry) (query : List Char) : List (Place × CatalogEntry) :=
  entries.zipIdx.filterMap fun x =>
    (tier? (comparisonForm x.1.title) query).map fun t => (⟨t, x.2⟩, x.1)

def places (entries : List CatalogEntry) (query : String) : List Place :=
  (placed entries (comparisonForm query)).map (·.1)

/-- The first `limit` of all places where the query is met. -/
def firstPlaces (entries : List CatalogEntry) (query : String) (limit : Nat) : List Place :=
  ((places entries query).mergeSort Place.notAfter).take limit

variable {entries : List CatalogEntry} {query : String}

theorem mem_placed {query : List Char} {p : Place} {e : CatalogEntry} :
    (p, e) ∈ placed entries query ↔
      entries[p.position]? = some e ∧ tier? (comparisonForm e.title) query = some p.tier := by
  simp only [placed, List.mem_filterMap, Option.map_eq_some_iff, Prod.exists,
    List.mem_zipIdx_iff_getElem?, Prod.mk.injEq]
  constructor
  · rintro ⟨e, i, he, t, ht, rfl, rfl⟩
    exact ⟨he, ht⟩
  · rintro ⟨he, ht⟩
    exact ⟨e, p.position, he, p.tier, ht, rfl, rfl⟩

theorem mem_places {p : Place} : p ∈ places entries query ↔ Meets entries query p := by
  simp only [places, List.mem_map, Prod.exists, exists_and_right, exists_eq_right, mem_placed]
  rfl

theorem found_eq (entries : List CatalogEntry) (query : List Char) :
    found entries query = (placed entries query).map fun x => (x.1.tier, x.2) := by
  have hfst : entries = entries.zipIdx.map (·.1) := (List.zipIdx_map_fst 0 entries).symm
  rw [found, placed, List.map_filterMap]
  conv_lhs => rw [hfst, List.filterMap_map]
  refine List.filterMap_congr fun x _ => ?_
  rw [Option.map_map]
  rfl

theorem pairwise_position (entries : List CatalogEntry) (query : String) :
    (places entries query).Pairwise (·.position < ·.position) := by
  have hpositions : entries.zipIdx.Pairwise (·.2 < ·.2) := by
    rw [← List.pairwise_map (f := Prod.snd), List.zipIdx_map_snd]
    exact List.pairwise_lt_range'
  rw [places, placed, List.pairwise_map, List.pairwise_filterMap]
  refine hpositions.imp ?_
  rintro x y hxy _ hp _ hq
  obtain ⟨t, -, rfl⟩ := Option.map_eq_some_iff.mp hp
  obtain ⟨u, -, rfl⟩ := Option.map_eq_some_iff.mp hq
  exact hxy

/-! ## The heaps -/

/-- The places of one tier. -/
def heap (ps : List Place) (t : Tier) : List Place := ps.filter (·.tier == t)

/-- The heaps one after the other. -/
def heaps (ps : List Place) : List Place := heap ps .exact ++ heap ps .partly ++ heap ps .fuzzy

theorem mem_heap {ps : List Place} {t : Tier} {p : Place} :
    p ∈ heap ps t ↔ p ∈ ps ∧ p.tier = t := by
  rw [heap, List.mem_filter, beq_iff_eq]

theorem heaps_perm (ps : List Place) : (heaps ps).Perm ps := by
  induction ps with
  | nil => exact List.Perm.refl []
  | cons p ps ih =>
      have hcons (t : Tier) : heap (p :: ps) t = if p.tier = t then p :: heap ps t else heap ps t := by
        simp only [heap, List.filter_cons, beq_iff_eq]
      rw [heaps] at ih ⊢
      simp only [hcons]
      cases p.tier with
      | exact => exact ih.cons p
      | partly =>
          rw [List.append_assoc] at ih ⊢
          exact List.perm_middle.trans (ih.cons p)
      | fuzzy => exact List.perm_middle.trans (ih.cons p)

theorem pairwise_heap {ps : List Place} (h : ps.Pairwise (·.position < ·.position)) (t : Tier) :
    (heap ps t).Pairwise Place.Before := by
  refine (h.filter _).imp_of_mem ?_
  intro p q hp hq hpq
  have hp := (mem_heap.mp hp).2
  have hq := (mem_heap.mp hq).2
  exact Or.inr ⟨hp.trans hq.symm, hpq⟩

theorem pairwise_heaps {ps : List Place} (h : ps.Pairwise (·.position < ·.position)) :
    (heaps ps).Pairwise Place.Before := by
  have hbetween {t u : Tier} (htu : t.level < u.level) :
      ∀ p ∈ heap ps t, ∀ q ∈ heap ps u, Place.Before p q := by
    intro p hp q hq
    rw [← (mem_heap.mp hp).2, ← (mem_heap.mp hq).2] at htu
    exact Or.inl htu
  have hfirst : Tier.exact.level < Tier.partly.level := Nat.zero_lt_one
  have hsecond : Tier.partly.level < Tier.fuzzy.level := Nat.one_lt_two
  rw [heaps, List.pairwise_append, List.pairwise_append]
  refine ⟨⟨pairwise_heap h _, pairwise_heap h _, hbetween hfirst⟩, pairwise_heap h _, ?_⟩
  intro p hp q hq
  rcases List.mem_append.mp hp with hp | hp
  · exact hbetween (hfirst.trans hsecond) p hp q hq
  · exact hbetween hsecond p hp q hq

/-- Sorting the places puts them into heaps. -/
theorem mergeSort_places (entries : List CatalogEntry) (query : String) :
    (places entries query).mergeSort Place.notAfter = heaps (places entries query) := by
  refine List.Perm.eq_of_pairwise (fun p q _ _ => Place.eq_of_notAfter)
    (List.pairwise_mergeSort Place.notAfter_trans Place.notAfter_total _) ?_
    ((List.mergeSort_perm _ _).trans (heaps_perm _).symm)
  refine (pairwise_heaps (pairwise_position entries query)).imp ?_
  intro p q hpq
  exact Place.notAfter_iff.mpr (Or.inr hpq)

theorem ofTier_found (entries : List CatalogEntry) (query : String) (t : Tier) :
    (ofTier (found entries (comparisonForm query)) t).map some =
      (heap (places entries query) t).map (entries[·.position]?) := by
  rw [ofTier, found_eq, heap, places, List.filter_map, List.filter_map, List.map_map, List.map_map,
    List.map_map]
  refine List.map_congr_left fun x hx => ?_
  exact (mem_placed.mp (List.mem_filter.mp hx).1).1.symm

/-! ## The ranking -/

theorem rank_eq_firstPlaces (hquery : isSearchable query = true) (limit : Nat) :
    (rank entries query limit).map some =
      (firstPlaces entries query limit).map (entries[·.position]?) := by
  rw [firstPlaces, mergeSort_places, rank, if_pos hquery]
  simp only [heaps, List.map_take, List.map_append, ofTier_found]

theorem pairwise_firstPlaces (entries : List CatalogEntry) (query : String) (limit : Nat) :
    (firstPlaces entries query limit).Pairwise Place.Before := by
  rw [firstPlaces, mergeSort_places]
  exact (pairwise_heaps (pairwise_position entries query)).sublist (List.take_sublist _ _)

theorem mem_sorted {p : Place} :
    p ∈ (places entries query).mergeSort Place.notAfter ↔ Meets entries query p := by
  rw [List.mem_mergeSort, mem_places]

theorem meets_of_mem_firstPlaces {limit : Nat} {p : Place} (h : p ∈ firstPlaces entries query limit) :
    Meets entries query p :=
  mem_sorted.mp (List.mem_of_mem_take h)

theorem before_of_not_mem_firstPlaces {limit : Nat} {p : Place} (hp : Meets entries query p)
    (hcut : p ∉ firstPlaces entries query limit) :
    (firstPlaces entries query limit).length = limit ∧
      ∀ q ∈ firstPlaces entries query limit, q.Before p := by
  have hsorted := pairwise_heaps (pairwise_position entries query)
  rw [← mergeSort_places] at hsorted
  have hmem := mem_sorted.mpr hp
  rw [firstPlaces] at hcut ⊢
  generalize (places entries query).mergeSort Place.notAfter = sorted at hsorted hmem hcut
  rw [← List.take_append_drop limit sorted] at hsorted hmem
  have hdrop := (List.mem_append.mp hmem).resolve_left hcut
  constructor
  · rw [List.length_take]
    have hlength := List.length_pos_of_mem hdrop
    rw [List.length_drop] at hlength
    omega
  · intro q hq
    exact (List.pairwise_append.mp hsorted).2.2 q hq p hdrop

theorem nodup_position (entries : List CatalogEntry) (query : String) (limit : Nat) :
    ((firstPlaces entries query limit).map (·.position)).Nodup := by
  have hnodup : (firstPlaces entries query limit).Nodup := by
    refine (pairwise_firstPlaces entries query limit).imp ?_
    rintro p q hpq rfl
    exact Place.not_before_self p hpq
  refine hnodup.map_on ?_
  intro p hp q hq hpq
  obtain ⟨e, he, hpt⟩ := meets_of_mem_firstPlaces hp
  obtain ⟨e', he', hqt⟩ := meets_of_mem_firstPlaces hq
  rw [hpq, he', Option.some.injEq] at he
  rw [← he, hqt, Option.some.injEq] at hpt
  cases p
  cases q
  exact congr (congrArg Place.mk hpt.symm) hpq

theorem rank_prefix {limit more : Nat} (h : limit ≤ more) :
    rank entries query limit <+: rank entries query more := by
  unfold rank
  split
  · exact List.take_prefix_take_left h
  · exact List.prefix_refl []

/-- The ranking of a query of two characters or more has the entries at the first `limit`
places where the query is met, and so a lower limit cuts the same list earlier; for a
shorter query there is none. -/
theorem rank_is_first_places (entries : List CatalogEntry) (query : String) (limit : Nat) :
    ((Text.trim query.toList).length < 2 → rank entries query limit = []) ∧
      (2 ≤ (Text.trim query.toList).length →
        (rank entries query limit).map some =
            (firstPlaces entries query limit).map (entries[·.position]?) ∧
          (firstPlaces entries query limit).Pairwise Place.Before ∧
          ((firstPlaces entries query limit).map (·.position)).Nodup ∧
          (∀ p ∈ firstPlaces entries query limit, Meets entries query p) ∧
          ∀ p, Meets entries query p → p ∉ firstPlaces entries query limit →
            (firstPlaces entries query limit).length = limit ∧
              ∀ q ∈ firstPlaces entries query limit, q.Before p) ∧
      ∀ more, limit ≤ more → rank entries query limit <+: rank entries query more := by
  refine ⟨fun hshort => ?_, fun hlong => ⟨?_, ?_, ?_, ?_, ?_⟩, fun more => rank_prefix⟩
  · rw [rank, if_neg]
    rw [isSearchable, minQueryLength, decide_eq_true_eq]
    omega
  · exact rank_eq_firstPlaces (decide_eq_true hlong) limit
  · exact pairwise_firstPlaces entries query limit
  · exact nodup_position entries query limit
  · exact fun p => meets_of_mem_firstPlaces
  · exact fun p => before_of_not_mem_firstPlaces

/-- The first title in the catalog is cut off, as the second one is the query. -/
theorem rank_is_first_places_one :
    (rank [⟨679, "Aliens", []⟩, ⟨348, "Alien", []⟩] " ALIEN" 1).map some =
        (firstPlaces [⟨679, "Aliens", []⟩, ⟨348, "Alien", []⟩] " ALIEN" 1).map
          ([⟨679, "Aliens", []⟩, (⟨348, "Alien", []⟩ : CatalogEntry)][·.position]?) ∧
      (∀ q ∈ firstPlaces [⟨679, "Aliens", []⟩, ⟨348, "Alien", []⟩] " ALIEN" 1,
        q.Before ⟨.partly, 0⟩) ∧
      rank [⟨679, "Aliens", []⟩, ⟨348, "Alien", []⟩] " ALIEN" 1 <+:
        rank [⟨679, "Aliens", []⟩, ⟨348, "Alien", []⟩] " ALIEN" 2 := by
  have hplaces := rank_is_first_places [⟨679, "Aliens", []⟩, ⟨348, "Alien", []⟩] " ALIEN" 1
  have hcut := hplaces.2.1 (by decide)
  refine ⟨hcut.1, ?_, hplaces.2.2 2 (by decide)⟩
  refine (hcut.2.2.2.2 ⟨.partly, 0⟩ ⟨_, rfl, by decide +kernel⟩ ?_).2
  rw [firstPlaces, mergeSort_places]
  decide +kernel

end Matinee.Search
