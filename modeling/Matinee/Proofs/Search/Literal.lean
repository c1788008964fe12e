/-
# `Matinee.Proofs.Search.Literal` — a part of a title finds the title

Title and query are lower-cased each on its own.  What stands in the title as it is typed
stands in its lower-case form too, so the title is found in one of the first two tiers,
as long as lower-casing does the same to the part in both places.  It does but for the
capital sigma: one that ends the query has the form for the end of a word, also where the
word goes on in the title (`literal_part_missed`).
-/
import Matinee.Proofs.Search.Ranking
import Matinee.Proofs.Text.LowerCase

namespace Matinee.Search

open Matinee.Text.LowerCase (SigmasStay lower_infix sigmasStay_of_notMem)

/-- The query is met by the whole title of the entry or a part of it, and every ranking
that is long enough has the entry. -/
structure Shown (entries : List CatalogEntry) (query : String) (e : CatalogEntry) : Prop where
  tier : tier? (comparisonForm e.title) (comparisonForm query) = some .exact ∨
    tier? (comparisonForm e.title) (comparisonForm query) = some .partly
  ranked : ∀ limit, entries.length ≤ limit → e ∈ rank entries query limit

variable {entries : List CatalogEntry} {query : String} {e : CatalogEntry}

theorem tier?_of_infix {title query : List Char} (h : query <:+: title) :
    tier? title query = some .exact ∨ tier? title query = some .partly := by
  unfold tier?
  split
  · exact Or.inl rfl
  · rw [(Text.contains_iff title query).mpr h, Bool.or_true, if_pos rfl]
    exact Or.inr rfl

theorem length_places_le (entries : List CatalogEntry) (query : String) :
    (places entries query).length ≤ entries.length := by
  calc (places entries query).length = (placed entries (comparisonForm query)).length :=
        List.length_map _
    _ ≤ entries.zipIdx.length := List.length_filterMap_le _ _
    _ = entries.length := List.length_zipIdx

theorem mem_rank_of_tier? (hquery : isSearchable query = true) (he : e ∈ entries) {t : Tier}
    (ht : tier? (comparisonForm e.title) (comparisonForm query) = some t) {limit : Nat}
    (hlimit : entries.length ≤ limit) : e ∈ rank entries query limit := by
  obtain ⟨i, hi⟩ := List.mem_iff_getElem?.mp he
  have hplace : (⟨t, i⟩ : Place) ∈ firstPlaces entries query limit := by
    rw [firstPlaces, List.take_of_length_le]
    · exact mem_sorted.mpr ⟨e, hi, ht⟩
    · rw [List.length_mergeSort]
      exact (length_places_le entries query).trans hlimit
  have hsome : some e ∈ (rank entries query limit).map some := by
    rw [rank_eq_firstPlaces hquery, ← hi]
    exact List.mem_map_of_mem hplace
  obtain ⟨e', he', heq⟩ := List.mem_map.mp hsome
  exact Option.some.inj heq ▸ he'

theorem trim_ne_nil (hquery : isSearchable query = true) : Text.trim query.toList ≠ [] := by
  have hlength : 2 ≤ (Text.trim query.toList).length := of_decide_eq_true hquery
  intro hnil
  rw [hnil] at hlength
  exact absurd hlength (by decide)

theorem shown_of_sigmasStay (he : e ∈ entries) (hquery : isSearchable query = true)
    {front back : List Char} (htitle : e.title.toList = front ++ Text.trim query.toList ++ back)
    (hsigmas : SigmasStay front (Text.trim query.toList) back) : Shown entries query e := by
  have hinfix : comparisonForm query <:+: comparisonForm e.title := by
    rw [comparisonForm, comparisonForm, htitle, Text.trim_around (trim_ne_nil hquery)]
    exact lower_infix hsigmas.trim
  have htier := tier?_of_infix hinfix
  refine ⟨htier, ?_⟩
  intro limit hlimit
  rcases htier with htier | htier
  · exact mem_rank_of_tier? hquery he htier hlimit
  · exact mem_rank_of_tier? hquery he htier hlimit

/-- **A part of a title finds the title** if its capital sigmas end a word there just if
they do in the query; all parts without a capital sigma do so. -/
theorem literal_part_found (he : e ∈ entries) (hquery : isSearchable query = true) :
    (∀ front back, e.title.toList = front ++ Text.trim query.toList ++ back →
      SigmasStay front (Text.trim query.toList) back → Shown entries query e) ∧
      (Text.trim query.toList <:+: e.title.toList → 'Σ' ∉ Text.trim query.toList →
        Shown entries query e) := by
  refine ⟨fun front back => shown_of_sigmasStay he hquery, ?_⟩
  rintro ⟨front, back, htitle⟩ hnone
  exact shown_of_sigmasStay he hquery htitle.symm (sigmasStay_of_notMem hnone front back)

/-- The two sigmas stand in the middle of the word also where the query has ended. -/
theorem literal_part_found_odyssey :
    let odyssey : CatalogEntry := ⟨19, "Η ΟΔΥΣΣΕΙΑ (1968)", ["Drama"]⟩
    let entries : List CatalogEntry := [⟨7, "ΟΔΟΣ", []⟩, odyssey]
    odyssey ∈ entries ∧ isSearchable " ΟΔΥΣΣΕ" = true ∧ odyssey ∈ rank entries " ΟΔΥΣΣΕ" 2 := by
  intro odyssey entries
  have hmem : odyssey ∈ entries := by decide
  have hquery : isSearchable " ΟΔΥΣΣΕ" = true := by decide +kernel
  have hfound := (literal_part_found hmem hquery).1 "Η ".toList "ΙΑ (1968)".toList
    (by decide +kernel) (by decide +kernel)
  exact ⟨hmem, hquery, hfound.ranked 2 (by decide)⟩

/-- A query that ends in a capital sigma within a word of the title does not find it. -/
theorem literal_part_missed :
    isSearchable "ΟΔΥΣ" = true ∧ Text.trim "ΟΔΥΣ".toList <:+: "ΟΔΥΣΣΕΙΑ".toList ∧
      tier? (comparisonForm "ΟΔΥΣΣΕΙΑ") (comparisonForm "ΟΔΥΣ") = none ∧
      ∀ limit, rank [⟨1, "ΟΔΥΣΣΕΙΑ", []⟩] "ΟΔΥΣ" limit = [] := by
  have htier : tier? (comparisonForm "ΟΔΥΣΣΕΙΑ") (comparisonForm "ΟΔΥΣ") = none := by decide +kernel
  refine ⟨by decide +kernel, ⟨[], "ΣΕΙΑ".toList, by decide +kernel⟩, htier, fun limit => ?_⟩
  have hfound : found [⟨1, "ΟΔΥΣΣΕΙΑ", []⟩] (comparisonForm "ΟΔΥΣ") = [] := by
    simp only [found, List.filterMap_cons, htier, Option.map_none, List.filterMap_nil]
  rw [rank, hfound, if_pos (by decide +kernel)]
  exact List.take_nil

end Matinee.Search
