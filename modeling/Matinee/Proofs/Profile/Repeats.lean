/-
# `Matinee.Proofs.Profile.Repeats` — a movie weighs as often as it repeats its tag

The profile counts the occurrences of a genre, and a mean divides the sum of the ratings
behind the occurrences by their number.  Both would be about the movies with that genre
if no movie had a tag twice.  Nothing keeps a movie from it: tags are only trimmed, and
two that differ in blanks become equal that way.

So a movie has a weight for each genre, the number of times that it has the tag.  The
count is the sum of the weights, and each rating goes into the mean as often as its
movie weighs.  Movies weigh at least one for the genres they have, so a count is never
below the number of movies with the genre, and it is that number just if no movie
repeats the tag (`sum_weights_iff`).
-/
import Matinee.Proofs.Profile.Genres

namespace Matinee.Profile

/-! ## Weights -/

section

variable {α β : Type} (weight : α → Nat) (l : List α)

theorem length_filter_le_sum_weights :
    (l.filter fun a => decide (0 < weight a)).length ≤ (l.map weight).sum := by
  induction l with
  | nil => exact Nat.le_refl 0
  | cons a l ih =>
      rw [List.filter_cons, List.map_cons, List.sum_cons]
      split
      · rename_i hpos
        have hone : 0 < weight a := of_decide_eq_true hpos
        rw [List.length_cons]
        omega
      · omega

/-- The sum of the weights is the number of those that weigh something just if none
weighs more than one. -/
theorem sum_weights_iff :
    (l.map weight).sum = (l.filter fun a => decide (0 < weight a)).length ↔
      ∀ a ∈ l, weight a ≤ 1 := by
  induction l with
  | nil => simp
  | cons a l ih =>
      have hle := length_filter_le_sum_weights weight l
      rw [List.forall_mem_cons, ← ih, List.filter_cons, List.map_cons, List.sum_cons]
      split
      · rename_i hpos
        have hone : 0 < weight a := of_decide_eq_true hpos
        rw [List.length_cons]
        omega
      · rename_i hzero
        have hnone : ¬ 0 < weight a := fun h => hzero (decide_eq_true h)
        omega

variable {weight l}

theorem flatMap_replicate_weights (h : ∀ a ∈ l, weight a ≤ 1) (f : α → β) :
    (l.flatMap fun a => List.replicate (weight a) (f a)) =
      (l.filter fun a => decide (0 < weight a)).map f := by
  induction l with
  | nil => rfl
  | cons a l ih =>
      rw [List.forall_mem_cons] at h
      rw [List.flatMap_cons, ih h.2, List.filter_cons]
      split
      · rename_i hpos
        have hone : weight a = 1 := Nat.le_antisymm h.1 (of_decide_eq_true hpos)
        rw [hone, List.map_cons, List.replicate_one, List.singleton_append]
      · rename_i hzero
        have hnone : weight a = 0 := Nat.eq_zero_of_not_pos fun h => hzero (decide_eq_true h)
        rw [hnone, List.replicate_zero, List.nil_append]

end

/-! ## Tags of a movie -/

/-- The trimmed tags of a movie; one without any counts as tagged `Unknown`. -/
def tagsOf (m : Movie) : List String :=
  if trimmedTags m = [] then ["Unknown"] else trimmedTags m

/-- The movies that are tagged with a genre. -/
def moviesWith (g : String) (movies : List Movie) : List Movie :=
  movies.filter fun m => decide (g ∈ tagsOf m)

/-- The movie has the tag more than once. -/
def Repeats (g : String) (m : Movie) : Prop := 1 < (tagsOf m).count g

instance (g : String) (m : Movie) : Decidable (Repeats g m) := inferInstanceAs (Decidable (_ < _))

variable {movies : List Movie} {g : String}

theorem moviesWith_eq (g : String) (movies : List Movie) :
    moviesWith g movies = movies.filter fun m => decide (0 < (tagsOf m).count g) := by
  simp only [moviesWith, List.count_pos_iff]

theorem count_allTags (g : String) (movies : List Movie) :
    (allTags movies).count g = (movies.map fun m => (tagsOf m).count g).sum :=
  List.count_flatMap

theorem not_repeats_iff {m : Movie} : ¬ Repeats g m ↔ (tagsOf m).count g ≤ 1 := Nat.not_lt

theorem length_moviesWith_le (g : String) (movies : List Movie) :
    (moviesWith g movies).length ≤ (allTags movies).count g := by
  rw [moviesWith_eq, count_allTags]
  exact length_filter_le_sum_weights _ movies

theorem count_allTags_iff (g : String) (movies : List Movie) :
    (allTags movies).count g = (moviesWith g movies).length ↔ ∀ m ∈ movies, ¬ Repeats g m := by
  rw [moviesWith_eq, count_allTags, sum_weights_iff]
  simp only [not_repeats_iff]

theorem ratingsUnder_eq (g : String) (movies : List Movie) :
    ratingsUnder g movies =
      movies.flatMap fun m => List.replicate ((tagsOf m).count g) (countedRating m) := by
  rw [ratingsUnder, occurrences, List.filter_flatMap, List.map_flatMap]
  refine List.flatMap_congr fun m _ => ?_
  rw [List.filter_map, List.map_map, genresOf_eq, ← tagsOf, List.count_eq_length_filter]
  simp only [Function.comp_def, List.map_const']

theorem ratingsUnder_of_not_repeats (h : ∀ m ∈ movies, ¬ Repeats g m) :
    ratingsUnder g movies = (moviesWith g movies).map countedRating := by
  rw [ratingsUnder_eq, moviesWith_eq]
  exact flatMap_replicate_weights (fun m hm => not_repeats_iff.mp (h m hm)) countedRating

/-! ## Counts and means -/

theorem mem_genreCounts (h : g ∈ allTags movies) :
    (g, (allTags movies).count g) ∈ genreCounts movies := by
  obtain ⟨x, hx, rfl⟩ := List.mem_map.mp (((firstAppearances_counts movies).mem_iff g).mpr h)
  rw [← count_of_mem_genreCounts hx]
  exact hx

theorem mem_genreRatings (h : g ∈ allTags movies) :
    (g, total (ratingsUnder g movies) / Float.ofNat ((allTags movies).count g)) ∈
      genreRatings movies := by
  have hlisted := ((firstAppearances_counts movies).mem_iff g).mpr h
  obtain ⟨x, hx, rfl⟩ := List.mem_map.mp ((genreRatings_perm movies).mem_iff.mpr hlisted)
  rw [← mean_of_mem_genreRatings hx]
  exact hx

/-- **A movie counts and weighs as often as it has the tag.**  A count is at least the
number of the movies with the genre, and it is that number, and so no higher than the
number of all movies, just if no movie repeats the tag; then each movie weighs one in
the mean. -/
theorem movies_weigh_by_repeats (movies : List Movie) :
    (∀ x ∈ genreCounts movies,
      x.2 = (movies.map fun m => (tagsOf m).count x.1).sum ∧
      (moviesWith x.1 movies).length ≤ x.2 ∧
      (x.2 = (moviesWith x.1 movies).length ↔ ∀ m ∈ movies, ¬ Repeats x.1 m) ∧
      ((∀ m ∈ movies, ¬ Repeats x.1 m) → x.2 ≤ movies.length)) ∧
    ∀ x ∈ genreRatings movies,
      x.2 = total (movies.flatMap fun m =>
          List.replicate ((tagsOf m).count x.1) (countedRating m)) /
        Float.ofNat (movies.map fun m => (tagsOf m).count x.1).sum ∧
      ((∀ m ∈ movies, ¬ Repeats x.1 m) →
        x.2 = total ((moviesWith x.1 movies).map countedRating) /
          Float.ofNat (moviesWith x.1 movies).length) := by
  constructor
  · intro x hx
    have hcount := count_of_mem_genreCounts hx
    refine ⟨hcount.trans (count_allTags x.1 movies), ?_, ?_, ?_⟩
    · rw [hcount]
      exact length_moviesWith_le x.1 movies
    · rw [hcount]
      exact count_allTags_iff x.1 movies
    · intro hnone
      rw [hcount, (count_allTags_iff x.1 movies).mpr hnone]
      exact List.length_filter_le _ movies
  · intro x hx
    have hmean := mean_of_mem_genreRatings hx
    constructor
    · rw [hmean, ratingsUnder_eq, count_allTags]
    · intro hnone
      rw [hmean, ratingsUnder_of_not_repeats hnone, (count_allTags_iff x.1 movies).mpr hnone]

/-- A film that has its tag twice, and another one that has it once. -/
def crimeFilms : List Movie :=
  [{ Movie.bare 949 "Heat" ["Crime", "Crime"] with fivePoint := some 5.0 },
    { Movie.bare 11524 "Thief" ["Crime", "Drama"] with fivePoint := some 2.0 }]

/-- No movie repeats the other tag: its count is right, and its mean too. -/
theorem movies_weigh_by_repeats_drama :
    ("Drama", 1) ∈ genreCounts crimeFilms ∧ (∀ m ∈ crimeFilms, ¬ Repeats "Drama" m) ∧
      1 = (moviesWith "Drama" crimeFilms).length ∧ 1 ≤ crimeFilms.length ∧
      ∃ x, ("Drama", x) ∈ genreRatings crimeFilms ∧
        x = total ((moviesWith "Drama" crimeFilms).map countedRating) / Float.ofNat 1 := by
  have hdrama : "Drama" ∈ allTags crimeFilms := by decide +kernel
  have hone : (allTags crimeFilms).count "Drama" = 1 := by decide +kernel
  have hnone : ∀ m ∈ crimeFilms, ¬ Repeats "Drama" m := by decide +kernel
  have hcounted := mem_genreCounts hdrama
  rw [hone] at hcounted
  obtain ⟨hcounts, hmeans⟩ := movies_weigh_by_repeats crimeFilms
  obtain ⟨-, -, hiff, hle⟩ := hcounts _ hcounted
  have hlength : 1 = (moviesWith "Drama" crimeFilms).length := hiff.mpr hnone
  refine ⟨hcounted, hnone, hlength, hle hnone, _, mem_genreRatings hdrama, ?_⟩
  have hmean := (hmeans _ (mem_genreRatings hdrama)).2 hnone
  rwa [← hlength] at hmean

/-- Two movies have the genre, but the count is three, more than there are movies, and
the mean is drawn to the rating of the movie that repeats its tag. -/
theorem repeated_tag_counts_twice :
    (moviesWith "Crime" crimeFilms).length = 2 ∧ crimeFilms.length = 2 ∧
      ("Crime", 3) ∈ genreCounts crimeFilms ∧ ("Crime", 4.0) ∈ genreRatings crimeFilms ∧
      total ((moviesWith "Crime" crimeFilms).map countedRating) / Float.ofNat 2 = 3.5 := by
  have hcrime : "Crime" ∈ allTags crimeFilms := by decide +kernel
  have hthree : (allTags crimeFilms).count "Crime" = 3 := by decide +kernel
  have hfour : total (ratingsUnder "Crime" crimeFilms) / Float.ofNat 3 = 4.0 := by decide +kernel
  have hcounted := mem_genreCounts hcrime
  have hrated := mem_genreRatings hcrime
  rw [hthree] at hcounted hrated
  rw [hfour] at hrated
  exact ⟨by decide +kernel, rfl, hcounted, hrated, by decide +kernel⟩

end Matinee.Profile
