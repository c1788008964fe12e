/-
# `Matinee.Proofs.Search.BestMatch` — three scans find the first movie of the lowest class

A local title is matched in three scans of the remote movies, each with a weaker test
than the one before, and a scan is only begun if the ones before have found nothing.
That is a minimum: a movie has a class, 0 for the title itself, 1 for a title that
contains the other one or is contained in it, 2 for all others, and the scans end at the
first movie of the lowest class there is (`firstLeast_of_bestMatch`).  A scan would stop
at movies of lower classes than its own too, but then there are none left: an earlier
scan would have found them (`firstLeast_of_scan`).

There is at most one first movie of the lowest class (`FirstLeast.unique`), so this
describes the result, and what more movies at the end change about it can be read off
the description.
-/
import Mathlib.Data.List.Infix
import Matinee.Search.Matching

namespace Matinee.Search

/-! ## The first of the least -/

section

variable {α : Type} {f : α → Nat} {l r : List α} {a b : α}

/-- All in front of `a` have a greater value, and none behind it has a lower one. -/
def FirstLeast (f : α → Nat) (l : List α) (a : α) : Prop :=
  ∃ before after, l = before ++ a :: after ∧
    (∀ x ∈ before, f a < f x) ∧ ∀ x ∈ after, f a ≤ f x

namespace FirstLeast

theorem mem (h : FirstLeast f l a) : a ∈ l := by
  obtain ⟨before, after, rfl, -, -⟩ := h
  exact List.mem_append_right _ List.mem_cons_self

theorem le (h : FirstLeast f l a) : ∀ x ∈ l, f a ≤ f x := by
  obtain ⟨before, after, rfl, hbefore, hafter⟩ := h
  intro x hx
  rcases List.mem_append.mp hx with hx | hx
  · exact Nat.le_of_lt (hbefore x hx)
  · rcases List.mem_cons.mp hx with rfl | hx
    · exact Nat.le_refl _
    · exact hafter x hx

theorem find?_eq (h : FirstLeast f l a) : (l.find? fun x => decide (f x ≤ f a)) = some a := by
  obtain ⟨before, after, rfl, hbefore, -⟩ := h
  refine List.find?_eq_some_iff_append.mpr
    ⟨decide_eq_true (Nat.le_refl _), before, after, rfl, ?_⟩
  intro x hx
  simpa using hbefore x hx

theorem unique (ha : FirstLeast f l a) (hb : FirstLeast f l b) : a = b := by
  have hsame : f a = f b := Nat.le_antisymm (ha.le b hb.mem) (hb.le a ha.mem)
  have hfind := ha.find?_eq
  rw [hsame, hb.find?_eq, Option.some_inj] at hfind
  exact hfind.symm

theorem append_right (h : FirstLeast f l a) (hr : ∀ x ∈ r, f a ≤ f x) :
    FirstLeast f (l ++ r) a := by
  obtain ⟨before, after, rfl, hbefore, hafter⟩ := h
  refine ⟨before, after ++ r, by simp, hbefore, ?_⟩
  intro x hx
  rcases List.mem_append.mp hx with hx | hx
  · exact hafter x hx
  · exact hr x hx

theorem append_left (h : FirstLeast f r a) (hl : ∀ x ∈ l, f a < f x) :
    FirstLeast f (l ++ r) a := by
  obtain ⟨before, after, rfl, hbefore, hafter⟩ := h
  refine ⟨l ++ before, after, by simp, ?_, hafter⟩
  intro x hx
  rcases List.mem_append.mp hx with hx | hx
  · exact hl x hx
  · exact hbefore x hx

end FirstLeast

end

/-! ## Classes -/

/-- How far an offered title is from the wanted one. -/
def distance (wanted offered : List Char) : Nat :=
  if offered = wanted then 0
  else if wanted <:+: offered ∨ offered <:+: wanted then 1
  else 2

/-- The class of a remote movie for a local title: both titles count without the year
and in lower case. -/
def matchClass (title : String) (m : Movie) : Nat :=
  distance (Text.lower (stripYear title).toList) (Text.lower (stripYear m.title).toList)

section

variable (wanted offered : List Char)

theorem distance_le_zero_iff : distance wanted offered ≤ 0 ↔ offered = wanted := by
  unfold distance
  split
  · rename_i heq
    exact iff_of_true (Nat.le_refl 0) heq
  · rename_i hne
    refine iff_of_false ?_ hne
    split <;> decide

theorem distance_le_one_iff :
    distance wanted offered ≤ 1 ↔ wanted <:+: offered ∨ offered <:+: wanted := by
  unfold distance
  split
  · rename_i heq
    subst heq
    exact iff_of_true (Nat.zero_le 1) (.inl (List.infix_refl _))
  · split
    · rename_i hoverlap
      exact iff_of_true (Nat.le_refl 1) hoverlap
    · rename_i hapart
      exact iff_of_false (by decide) hapart

theorem distance_le_two : distance wanted offered ≤ 2 := by
  unfold distance
  split
  · exact Nat.zero_le 2
  · split <;> decide

end

theorem matchClass_eq (title : String) (m : Movie) :
    matchClass title m = distance (matchingForm title) (matchingForm m.title) := by
  rw [matchClass, stripYear, stripYear, String.toList_ofList, String.toList_ofList]
  rfl

/-! ## Scans -/

variable {title : String} {candidates : List Movie} {m : Movie}

/-- A scan that stops at the classes up to `n`, with none below `n` left, finds the first
of the lowest class; if it finds nothing, the classes above `n` are left. -/
theorem firstLeast_of_scan {p : Movie → Bool} {n : Nat} {otherwise : Option Movie}
    (hp : ∀ x, p x = true ↔ matchClass title x ≤ n)
    (hlow : ∀ x ∈ candidates, n ≤ matchClass title x)
    (hrest : (∀ x ∈ candidates, n + 1 ≤ matchClass title x) → otherwise = some m →
      FirstLeast (matchClass title) candidates m)
    (h : (candidates.find? p).or otherwise = some m) :
    FirstLeast (matchClass title) candidates m := by
  cases hfind : candidates.find? p with
  | none =>
      rw [hfind, Option.none_or] at h
      refine hrest ?_ h
      intro x hx
      have hnot := List.find?_eq_none.mp hfind x hx
      rw [hp x] at hnot
      exact Nat.not_le.mp hnot
  | some best =>
      rw [hfind, Option.some_or, Option.some_inj] at h
      subst h
      obtain ⟨hbest, before, after, rfl, hbefore⟩ := List.find?_eq_some_iff_append.mp hfind
      rw [hp best] at hbest
      refine ⟨before, after, rfl, ?_, ?_⟩
      · intro x hx
        have hnot : ¬ matchClass title x ≤ n := by
          rw [← hp x]
          simpa using hbefore x hx
        exact Nat.lt_of_le_of_lt hbest (Nat.not_le.mp hnot)
      · intro x hx
        exact hbest.trans (hlow x (List.mem_append_right _ (List.mem_cons_of_mem _ hx)))

theorem bestMatch_eq_or (title : String) (candidates : List Movie) :
    bestMatch title candidates =
      (candidates.find? fun x => matchingForm x.title == matchingForm title).or
        ((candidates.find? fun x => overlaps (matchingForm x.title) (matchingForm title)).or
          candidates.head?) := by
  simp only [bestMatch, Option.orElse_eq_orElse, Option.orElse_eq_or]

theorem firstLeast_of_bestMatch (h : bestMatch title candidates = some m) :
    FirstLeast (matchClass title) candidates m := by
  have hsame (x : Movie) :
      (matchingForm x.title == matchingForm title) = true ↔ matchClass title x ≤ 0 := by
    rw [matchClass_eq, distance_le_zero_iff, beq_iff_eq]
  have hoverlap (x : Movie) :
      overlaps (matchingForm x.title) (matchingForm title) = true ↔ matchClass title x ≤ 1 := by
    rw [matchClass_eq, distance_le_one_iff, overlaps, Bool.or_eq_true, Text.contains_iff,
      Text.contains_iff]
  rw [bestMatch_eq_or] at h
  refine firstLeast_of_scan hsame (fun _ _ => Nat.zero_le _) ?_ h
  intro hone h
  refine firstLeast_of_scan hoverlap hone ?_ h
  intro htwo h
  -- No test is left: all movies are of the third class, and the first is as good as any.
  obtain ⟨rest, rfl⟩ := List.head?_eq_some_iff.mp h
  refine ⟨[], rest, rfl, fun x hx => absurd hx List.not_mem_nil, ?_⟩
  intro x hx
  rw [matchClass_eq title m]
  exact (distance_le_two _ _).trans (htwo x (List.mem_cons_of_mem _ hx))

theorem bestMatch_eq_none_iff : bestMatch title candidates = none ↔ candidates = [] := by
  rw [bestMatch_eq_or, Option.or_eq_none_iff, Option.or_eq_none_iff, List.head?_eq_none_iff]
  constructor
  · intro h
    exact h.2.2
  · rintro rfl
    exact ⟨rfl, rfl, rfl⟩

theorem exists_firstLeast (title : String) (h : candidates ≠ []) :
    ∃ best, bestMatch title candidates = some best ∧
      FirstLeast (matchClass title) candidates best := by
  obtain ⟨best, hbest⟩ := Option.ne_none_iff_exists'.mp (mt bestMatch_eq_none_iff.mp h)
  exact ⟨best, hbest, firstLeast_of_bestMatch hbest⟩

theorem bestMatch_eq_some_iff :
    bestMatch title candidates = some m ↔ FirstLeast (matchClass title) candidates m := by
  refine ⟨firstLeast_of_bestMatch, ?_⟩
  intro h
  obtain ⟨best, hbest, hfirst⟩ := exists_firstLeast title (List.ne_nil_of_mem h.mem)
  rw [hbest, hfirst.unique h]

/-- **The match is the first movie of the lowest class**, and there is one unless there
are no movies.  More movies at the end change it only if some of them have a class below
its own, and then the match is the one among them. -/
theorem match_is_first_of_lowest_class (title : String) (candidates : List Movie) :
    (bestMatch title candidates = none ↔ candidates = []) ∧
      (∀ m, bestMatch title candidates = some m ↔
        ∃ before after, candidates = before ++ m :: after ∧
          (∀ x ∈ before, matchClass title m < matchClass title x) ∧
          ∀ x ∈ after, matchClass title m ≤ matchClass title x) ∧
      ∀ m more, bestMatch title candidates = some m →
        ((∀ x ∈ more, matchClass title m ≤ matchClass title x) →
          bestMatch title (candidates ++ more) = some m) ∧
        ((∃ x ∈ more, matchClass title x < matchClass title m) →
          bestMatch title (candidates ++ more) = bestMatch title more) := by
  refine ⟨bestMatch_eq_none_iff, fun m => bestMatch_eq_some_iff, ?_⟩
  intro m more hm
  have hfirst := firstLeast_of_bestMatch hm
  refine ⟨fun hmore => bestMatch_eq_some_iff.mpr (hfirst.append_right hmore), ?_⟩
  rintro ⟨x, hx, hlow⟩
  obtain ⟨best, hbest, hleast⟩ := exists_firstLeast title (List.ne_nil_of_mem hx)
  rw [hbest, bestMatch_eq_some_iff]
  refine hleast.append_left ?_
  intro y hy
  calc matchClass title best ≤ matchClass title x := hleast.le x hx
    _ < matchClass title m := hlow
    _ ≤ matchClass title y := hfirst.le y hy

/-- Two movies at the end have the title itself; the first of them is the match, though
a title that contains the wanted one stands in front of it. -/
theorem match_is_first_of_lowest_class_behind :
    let wave := Movie.bare 1 "Heat Wave" []
    let more := [Movie.bare 2 "HEAT" ["Crime"], Movie.bare 3 "Heat (1986)" []]
    bestMatch "Heat (1995)" [wave] = some wave ∧
      (∃ x ∈ more, matchClass "Heat (1995)" x < matchClass "Heat (1995)" wave) ∧
      bestMatch "Heat (1995)" ([wave] ++ more) = some (Movie.bare 2 "HEAT" ["Crime"]) := by
  intro wave more
  have hwave : bestMatch "Heat (1995)" [wave] = some wave := by decide +kernel
  have hlower : ∃ x ∈ more, matchClass "Heat (1995)" x < matchClass "Heat (1995)" wave := by
    decide +kernel
  have hbehind := ((match_is_first_of_lowest_class "Heat (1995)" [wave]).2.2 wave more hwave).2 hlower
  exact ⟨hwave, hlower, hbehind.trans (by decide +kernel)⟩

end Matinee.Search
