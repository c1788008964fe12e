/-
# `Matinee.Proofs.Search.Limit` — a lower limit cuts the same list

If the catalog and the answers of the remote catalog are given, a search is a function
of its query and its limit (`search_of_answers`).  The ranking with a lower limit is the
beginning of the one with a higher limit, and each movie is decorated by itself; so what
is found with a lower limit is the beginning of what is found with a higher one
(`decorated_min`).  A query counts trimmed, so trimming it before makes no difference.
-/
import Matinee.Proofs.Search.Lookups
import Matinee.Proofs.Text.Blank

namespace Matinee.Search

/-- Movies with what the answers of a remote catalog, if there is one, tell of them. -/
def decorated (answer : Option (String → Lookup)) (plain : List Movie) : List Movie :=
  match answer with
  | none => plain
  | some answer => plain.map fun m => decorate m (answer (stripYear m.title))

theorem decorated_take (answer : Option (String → Lookup)) (plain : List Movie) (n : Nat) :
    decorated answer (plain.take n) = (decorated answer plain).take n := by
  cases answer with
  | none => rfl
  | some answer => exact List.map_take

theorem length_decorated (answer : Option (String → Lookup)) (plain : List Movie) :
    (decorated answer plain).length = plain.length := by
  cases answer with
  | none => rfl
  | some answer => exact List.length_map _

/-! ## Limits -/

theorem rank_min (entries : List CatalogEntry) (query : String) (n limit : Nat) :
    rank entries query (min n limit) = (rank entries query limit).take n := by
  unfold rank
  split
  · rw [List.take_take]
  · rw [List.take_nil]

theorem candidates_min (entries : List CatalogEntry) (query : String) (n limit : Nat) :
    candidates entries query (min n limit) = (candidates entries query limit).take n := by
  rw [candidates, candidates, rank_min, List.map_take]

theorem length_candidates_le (entries : List CatalogEntry) (query : String) (limit : Nat) :
    (candidates entries query limit).length ≤ limit := by
  rw [candidates, List.length_map, rank]
  split
  · exact List.length_take_le _ _
  · exact Nat.zero_le _

/-! ## Trimmed queries -/

theorem isSearchable_trimmed (query : String) :
    isSearchable (String.ofList (Text.trim query.toList)) = isSearchable query := by
  simp only [isSearchable, String.toList_ofList, Text.trim_trim]

theorem candidates_trimmed (entries : List CatalogEntry) (query : String) (limit : Nat) :
    candidates entries (String.ofList (Text.trim query.toList)) limit =
      candidates entries query limit := by
  simp only [candidates, rank, isSearchable_trimmed, comparisonForm, String.toList_ofList,
    Text.trim_trim]

/-! ## Searches with known answers -/

theorem gather_map (answer : String → Lookup) (plain : List Movie) :
    gather plain (((askedTitles plain).map answer).mapIdx fun i outcome => (i, outcome)) =
      decorated (some answer) plain := by
  refine List.ext_getElem? fun i => ?_
  have hanswer := lookup_mapIdx ((askedTitles plain).map answer) 0 i
  simp only [Nat.add_zero, askedTitles, List.map_map, List.getElem?_map] at hanswer
  rw [Round.getElem?_gather, askedTitles, List.map_map, hanswer, decorated, List.getElem?_map]
  cases plain[i]? <;> rfl

theorem search_of_answers {m : Type → Type} [Monad m] [LawfulMonad m] (load : m (List CatalogEntry))
    (answer : Option (String → Lookup)) (query : String) (limit : Nat) :
    search load (answer.map fun answer title => pure (answer title)) query limit =
      if isSearchable query then
        (fun entries => decorated answer (candidates entries query limit)) <$> load
      else pure [] := by
  cases hs : isSearchable query with
  | false => simp [search, hs]
  | true =>
      cases answer with
      | none => simp [search, hs, decorated]
      | some answer => simp [search, hs, gather_map]

end Matinee.Search
