/-
# `Matinee.Proofs.Profile.Genres` — every genre once, in the order of its first appearance

The counts and the sums of ratings are two tallies of the same occurrences, so both list
the same genres in the same order, and the value of each is what its occurrences come to:
their number, and the sum of the ratings behind them in the order in which they occur.
The mean ratings are then sorted.  The sort keeps genres with equal ratings in their
order, as it takes out the genres with one rating in the order in which they stood
(`filter_mergeSort`); so ties are in the order of first appearance.
-/
import Mathlib.Algebra.BigOperators.Group.List.Lemmas
import Mathlib.Algebra.GroupWithZero.Nat
import Mathlib.Data.List.Dedup
import Matinee.Proofs.Profile.Tally

namespace Matinee.Profile

/-! ## The tags of the movies -/

/-- The tags of a movie, trimmed, without those of which nothing is left. -/
def trimmedTags (m : Movie) : List String :=
  (m.genres.map fun g => String.ofList (Text.trim g.toList)).filter (· ≠ "")

/-- The tags of all movies, one movie after the other. -/
def allTags (movies : List Movie) : List String :=
  movies.flatMap fun m => if trimmedTags m = [] then ["Unknown"] else trimmedTags m

theorem cleanTags_eq_trimmedTags (m : Movie) :
    cleanTags (m.genres.map String.toList) = trimmedTags m := by
  have hblank (s : List Char) : (!s.isEmpty) = decide (String.ofList s ≠ "") := by
    cases s <;> simp
  have htexts : (m.genres.map fun g => String.ofList (Text.trim g.toList)) =
      ((m.genres.map String.toList).map Text.trim).map String.ofList := by
    rw [List.map_map, List.map_map]
    rfl
  rw [trimmedTags, htexts, List.filter_map]
  exact congrArg (List.map String.ofList) (List.filter_congr fun s _ => hblank s)

theorem genresOf_eq (m : Movie) :
    genresOf m = if trimmedTags m = [] then ["Unknown"] else trimmedTags m := by
  rw [genresOf, cleanTags_eq_trimmedTags]
  split
  · rename_i hnone
    rw [if_pos hnone]
    rfl
  · rename_i hsome
    rw [if_neg hsome]

theorem flatMap_genresOf (movies : List Movie) : movies.flatMap genresOf = allTags movies := by
  rw [allTags]
  exact List.flatMap_congr fun m _ => genresOf_eq m

/-! ## The ratings of the movies -/

/-- The five-point rating if it is above zero, else half of the ten-point rating if that one
is, else zero.  A rating that is missing is not above zero. -/
def countedRating (m : Movie) : Float :=
  if 0.0 < m.fivePoint.getD 0.0 then m.fivePoint.getD 0.0
  else if 0.0 < m.rating.getD 0.0 then m.rating.getD 0.0 / 2.0
  else 0.0

theorem filter_pos_eq (x? : Option Float) :
    x?.filter (0.0 < ·) = if 0.0 < x?.getD 0.0 then some (x?.getD 0.0) else none := by
  cases x? with
  | none =>
      have hzero : ¬ (0.0 : Float) < 0.0 := by decide +kernel
      rw [Option.getD_none, if_neg hzero]
      rfl
  | some x => by_cases hx : 0.0 < x <;> simp [hx]

theorem ratingOf_eq (m : Movie) : ratingOf m = countedRating m := by
  rw [ratingOf, filter_pos_eq, filter_pos_eq, countedRating]
  by_cases hfive : 0.0 < m.fivePoint.getD 0.0
  · rw [if_pos hfive, if_pos hfive]
  · rw [if_neg hfive, if_neg hfive]
    by_cases hten : 0.0 < m.rating.getD 0.0
    · rw [if_pos hten, if_pos hten]
    · rw [if_neg hten, if_neg hten]

/-! ## Sums -/

/-- The sum of some numbers, from the first to the last. -/
def total : List Float → Float
  | [] => 0.0
  | x :: xs => xs.foldl (· + ·) x

/-- The ratings of the movies behind the occurrences of a genre. -/
def ratingsUnder (g : String) (movies : List Movie) : List Float :=
  ((occurrences movies).filter (·.2 == g)).map fun x => countedRating x.1

theorem length_ratingsUnder (g : String) (movies : List Movie) :
    (ratingsUnder g movies).length = (allTags movies).count g := by
  rw [ratingsUnder, List.length_map, ← flatMap_genresOf, ← map_snd_occurrences, List.count,
    List.countP_map, List.countP_eq_length_filter]
  rfl

theorem foldl_addOne (seen : List (Movie × String)) (n : Nat) :
    seen.foldl (fun a _ => some (addOne a)) (some n) = some (n + seen.length) := by
  induction seen generalizing n with
  | nil => rfl
  | cons x seen ih =>
      rw [List.foldl_cons, addOne, Option.getD_some, ih, List.length_cons]
      congr 1
      omega

theorem foldl_addRating (seen : List (Movie × String)) (sum : Float) (n : Nat) :
    seen.foldl (fun a x => some (addRating (countedRating x.1) a)) (some (sum, n)) =
      some ((seen.map fun x => countedRating x.1).foldl (· + ·) sum, n + seen.length) := by
  induction seen generalizing sum n with
  | nil => rfl
  | cons x seen ih =>
      rw [List.foldl_cons, addRating, ih, List.map_cons, List.foldl_cons, List.length_cons]
      congr 2
      omega

open Tally (Tallied valueOf tallied_ofMovies)

variable {movies : List Movie} {g : String}

theorem eq_count_of_valueOf {n : Nat}
    (h : valueOf (fun _ => addOne) (occurrences movies) g = some n) :
    n = (allTags movies).count g := by
  rw [← length_ratingsUnder, ratingsUnder, List.length_map]
  rw [valueOf] at h
  cases hseen : (occurrences movies).filter (·.2 == g) with
  | nil =>
      rw [hseen] at h
      cases h
  | cons x seen =>
      rw [hseen, List.foldl_cons, addOne, Option.getD_none, foldl_addOne, Option.some_inj] at h
      rw [← h, List.length_cons]
      omega

theorem eq_total_of_valueOf {sum : Float} {n : Nat}
    (h : valueOf (fun m => addRating (ratingOf m)) (occurrences movies) g = some (sum, n)) :
    sum = total (ratingsUnder g movies) ∧ n = (allTags movies).count g := by
  rw [← length_ratingsUnder, ratingsUnder, List.length_map]
  simp only [valueOf, ratingOf_eq] at h
  cases hseen : (occurrences movies).filter (·.2 == g) with
  | nil =>
      rw [hseen] at h
      cases h
  | cons x seen =>
      rw [hseen, List.foldl_cons, addRating, foldl_addRating, Option.some_inj, Prod.mk.injEq] at h
      obtain ⟨rfl, rfl⟩ := h
      exact ⟨rfl, by rw [List.length_cons]; omega⟩

/-! ## Sorting -/

section

variable {β : Type} (key : β → Int)

/-- The order by falling keys. -/
def falling (a b : β) : Bool := key b ≤ key a

variable {key}

theorem falling_trans (a b c : β) (hab : falling key a b = true) (hbc : falling key b c = true) :
    falling key a c = true := by
  rw [falling, decide_eq_true_eq] at hab hbc ⊢
  exact Int.le_trans hbc hab

theorem falling_total (a b : β) : (falling key a b || falling key b a) = true := by
  rw [falling, falling, Bool.or_eq_true, decide_eq_true_eq, decide_eq_true_eq]
  exact Int.le_total _ _

/-- A sort by falling keys takes the elements of one key as they stand. -/
theorem filter_mergeSort (l : List β) (k : Int) :
    (l.mergeSort (falling key)).filter (key · == k) = l.filter (key · == k) := by
  have hsame : (l.filter (key · == k)).Pairwise fun a b => falling key a b = true := by
    refine List.pairwise_of_forall_mem_list fun a ha b hb => ?_
    have ha := eq_of_beq (List.mem_filter.mp ha).2
    have hb := eq_of_beq (List.mem_filter.mp hb).2
    exact decide_eq_true (Int.le_of_eq (hb.trans ha.symm))
  have hsub : (l.filter (key · == k)).Sublist (l.mergeSort (falling key)) :=
    List.sublist_mergeSort falling_trans falling_total hsame List.filter_sublist
  have hfiltered := hsub.filter (key · == k)
  rw [List.filter_filter] at hfiltered
  simp only [Bool.and_self] at hfiltered
  refine (hfiltered.eq_of_length ?_).symm
  exact ((List.mergeSort_perm l _).filter _).length_eq.symm

/-- If the elements stand in the order of their positions, elements of one key do so
behind the sort as well. -/
theorem pairwise_mergeSort_falling {position : β → Nat} {l : List β}
    (h : l.Pairwise fun a b => position a < position b) :
    (l.mergeSort (falling key)).Pairwise fun a b =>
      key b < key a ∨ key a = key b ∧ position a < position b := by
  rw [List.pairwise_iff_forall_sublist] at h ⊢
  intro a b hab
  have hle : key b ≤ key a := of_decide_eq_true
    (List.pairwise_iff_forall_sublist.mp
      (List.pairwise_mergeSort falling_trans falling_total l) hab)
  rcases Int.lt_or_eq_of_le hle with hlt | heq
  · exact .inl hlt
  · refine .inr ⟨heq.symm, h ?_⟩
    have hties : [a, b].filter (key · == key a) = [a, b] := by simp [heq]
    have := hab.filter (key · == key a)
    rw [hties, filter_mergeSort] at this
    exact this.trans List.filter_sublist

end

/-! ## What the profile lists -/

theorem firstAppearances_counts (movies : List Movie) :
    FirstAppearances (allTags movies) ((genreCounts movies).map (·.1)) := by
  have h := (tallied_ofMovies (fun _ => addOne) movies).listed
  rwa [map_snd_occurrences, flatMap_genresOf] at h

theorem firstAppearances_sums (movies : List Movie) :
    FirstAppearances (allTags movies) ((genreSums movies).map (·.1)) := by
  have h := (tallied_ofMovies (fun m => addRating (ratingOf m)) movies).listed
  rwa [map_snd_occurrences, flatMap_genresOf] at h

theorem count_of_mem_genreCounts {x : String × Nat} (h : x ∈ genreCounts movies) :
    x.2 = (allTags movies).count x.1 := by
  obtain ⟨i, hi⟩ := Array.mem_iff_getElem?.mp (Array.mem_toList_iff.mp h)
  exact eq_count_of_valueOf ((tallied_ofMovies _ movies).value i x.1 x.2 hi)

theorem total_of_mem_genreSums {x : String × Float × Nat} (h : x ∈ genreSums movies) :
    x.2.1 = total (ratingsUnder x.1 movies) ∧ x.2.2 = (allTags movies).count x.1 := by
  obtain ⟨i, hi⟩ := Array.mem_iff_getElem?.mp (Array.mem_toList_iff.mp h)
  exact eq_total_of_valueOf ((tallied_ofMovies _ movies).value i x.1 x.2 hi)

theorem sum_counts (movies : List Movie) :
    ((genreCounts movies).map (·.2)).sum = (allTags movies).length := by
  have hlisted := firstAppearances_counts movies
  have hcounts : (genreCounts movies).map (·.2) =
      ((genreCounts movies).map (·.1)).map ((allTags movies).count ·) := by
    rw [List.map_map]
    exact List.map_congr_left fun x hx => count_of_mem_genreCounts hx
  have hperm : ((genreCounts movies).map (·.1)).Perm (allTags movies).dedup := by
    rw [List.perm_ext_iff_of_nodup hlisted.nodup (List.nodup_dedup _)]
    intro g
    rw [hlisted.mem_iff, List.mem_dedup]
  rw [hcounts, (hperm.map _).sum_eq]
  exact List.sum_map_count_dedup_eq_length _

theorem map_fst_meanOf (rows : List (String × Float × Nat)) :
    (rows.map meanOf).map (·.1) = rows.map (·.1) := by
  rw [List.map_map]
  rfl

theorem genreRatings_perm (movies : List Movie) :
    ((genreRatings movies).map (·.1)).Perm ((genreCounts movies).map (·.1)) := by
  have hsorted := (List.mergeSort_perm ((genreSums movies).map meanOf) notBelow).map (·.1)
  rw [map_fst_meanOf] at hsorted
  refine hsorted.trans ?_
  have hsums := firstAppearances_sums movies
  have hcounts := firstAppearances_counts movies
  rw [List.perm_ext_iff_of_nodup hsums.nodup hcounts.nodup]
  intro g
  rw [hsums.mem_iff, hcounts.mem_iff]

theorem mean_of_mem_genreRatings {x : String × Float} (h : x ∈ genreRatings movies) :
    x.2 = total (ratingsUnder x.1 movies) / Float.ofNat ((allTags movies).count x.1) := by
  rw [genreRatings, List.mem_mergeSort] at h
  obtain ⟨row, hrow, rfl⟩ := List.mem_map.mp h
  obtain ⟨hsum, hcount⟩ := total_of_mem_genreSums hrow
  rw [meanOf, hsum, hcount]

theorem pairwise_genreRatings (movies : List Movie) :
    (genreRatings movies).Pairwise fun x y =>
      Number.orderKey y.2 < Number.orderKey x.2 ∨ Number.orderKey x.2 = Number.orderKey y.2 ∧
        (allTags movies).idxOf x.1 < (allTags movies).idxOf y.1 := by
  have hplaces := (firstAppearances_sums movies).pairwise
  rw [← map_fst_meanOf, List.pairwise_map] at hplaces
  exact pairwise_mergeSort_falling hplaces

/-- **Every genre is listed once, in the order of its first appearance**, with the number
of its occurrences, all of them counted somewhere.  The mean ratings list the same genres,
each with the sum of the ratings behind its occurrences by that number, the highest first
and ties in the order of first appearance.  Neither loop ever has a place in its table
that is not the place of the row with that name. -/
theorem genres_listed_once (movies : List Movie) :
    let tags := allTags movies
    FirstAppearances tags ((genreCounts movies).map (·.1)) ∧
      (∀ x ∈ genreCounts movies, x.2 = tags.count x.1 ∧ 0 < x.2) ∧
      ((genreCounts movies).map (·.2)).sum = tags.length ∧
      ((genreRatings movies).map (·.1)).Perm ((genreCounts movies).map (·.1)) ∧
      (∀ x ∈ genreRatings movies,
        x.2 = total (ratingsUnder x.1 movies) / Float.ofNat (tags.count x.1)) ∧
      ((genreRatings movies).Pairwise fun x y =>
        Number.orderKey y.2 < Number.orderKey x.2 ∨ Number.orderKey x.2 = Number.orderKey y.2 ∧
          tags.idxOf x.1 < tags.idxOf y.1) ∧
      ∀ front m seen, front ++ [m] <+: movies → seen <+: genresOf m →
        ((Tally.ofMovies (fun _ => addOne) front).updateAll addOne seen).Sound ∧
          ((Tally.ofMovies (fun m => addRating (ratingOf m)) front).updateAll
            (addRating (ratingOf m)) seen).Sound := by
  intro tags
  have hlisted := firstAppearances_counts movies
  refine ⟨hlisted, fun x hx => ?_, sum_counts movies, genreRatings_perm movies, ?_,
    pairwise_genreRatings movies, fun front m seen _ _ => ⟨?_, ?_⟩⟩
  · have hcount := count_of_mem_genreCounts hx
    refine ⟨hcount, hcount ▸ List.count_pos_iff.mpr ?_⟩
    exact (hlisted.mem_iff x.1).mp (List.mem_map_of_mem hx)
  · exact fun x => mean_of_mem_genreRatings
  · exact Tally.sound_updateAll_ofMovies (fun _ => addOne) front m seen
  · exact Tally.sound_updateAll_ofMovies (fun m => addRating (ratingOf m)) front m seen

end Matinee.Profile
