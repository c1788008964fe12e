/-
# `Matinee.Proofs.Profile.Tally` — tallies and the tables of their places

A tally is a growing list of rows with a table that tells where each name stands.  The
two belong together: a place in the table is the place of a row with that name, and
every row has its place in the table (`Sound`).  A name that is in the table keeps its
row, so the rows stand in the order in which the names came up, and each has the value
that the occurrences of its name lead to, one after the other (`Tallied`).
-/
import Mathlib.Data.List.Induction
import Mathlib.Data.List.Nodup
import Matinee.Profile

namespace Matinee.Profile

variable {α : Type}

/-- Every name that occurs is listed once, and the names stand in the order in which they
occur first. -/
structure FirstAppearances (occurring names : List String) : Prop where
  nodup : names.Nodup
  mem_iff : ∀ g, g ∈ names ↔ g ∈ occurring
  pairwise : names.Pairwise fun g h => occurring.idxOf g < occurring.idxOf h

namespace FirstAppearances

variable {occurring names : List String} {g : String}

theorem nil : FirstAppearances [] [] := ⟨List.nodup_nil, fun _ => Iff.rfl, .nil⟩

theorem again (h : FirstAppearances occurring names) (hg : g ∈ names) :
    FirstAppearances (occurring ++ [g]) names := by
  refine ⟨h.nodup, fun k => ?_, h.pairwise.imp_of_mem fun {a b} ha hb hab => ?_⟩
  · rw [List.mem_append, List.mem_singleton, h.mem_iff]
    refine ⟨.inl, fun hk => hk.elim id fun hkg => ?_⟩
    exact (h.mem_iff k).mp (hkg ▸ hg)
  · rw [List.idxOf_append_of_mem ((h.mem_iff a).mp ha),
      List.idxOf_append_of_mem ((h.mem_iff b).mp hb)]
    exact hab

theorem concat (h : FirstAppearances occurring names) (hg : g ∉ names) :
    FirstAppearances (occurring ++ [g]) (names ++ [g]) := by
  have hold {k : String} (hk : k ∈ names) :
      (occurring ++ [g]).idxOf k = occurring.idxOf k ∧ occurring.idxOf k < occurring.length := by
    have hk := (h.mem_iff k).mp hk
    exact ⟨List.idxOf_append_of_mem hk, List.idxOf_lt_length_of_mem hk⟩
  refine ⟨List.concat_eq_append ▸ h.nodup.concat hg, fun k => ?_, ?_⟩
  · rw [List.mem_append, List.mem_append, h.mem_iff]
  · rw [List.pairwise_append]
    refine ⟨h.pairwise.imp_of_mem fun {a b} ha hb hab => ?_, List.pairwise_singleton _ _, ?_⟩
    · rw [(hold ha).1, (hold hb).1]
      exact hab
    · intro a ha b hb
      obtain rfl := List.mem_singleton.mp hb
      rw [(hold ha).1, List.idxOf_append_of_notMem (mt (h.mem_iff b).mpr hg)]
      exact Nat.lt_of_lt_of_le (hold ha).2 (Nat.le_add_right _ _)

end FirstAppearances

namespace Tally

/-- The names of a tally, in the order of its rows. -/
def names (t : Tally α) : List String := t.rows.toList.map (·.1)

/-- The table has the places of the rows, and no others. -/
def Sound (t : Tally α) : Prop :=
  ∀ (g : String) (i : Nat), t.places[g]? = some i ↔ ∃ a, t.rows[i]? = some (g, a)

/-- What the occurrences of a name lead to; each is behind a movie. -/
def valueOf (f : Movie → Option α → α) (seen : List (Movie × String)) (g : String) : Option α :=
  (seen.filter (·.2 == g)).foldl (fun a x => some (f x.1 a)) none

/-- The tally of some occurrences. -/
structure Tallied (f : Movie → Option α → α) (seen : List (Movie × String)) (t : Tally α) :
    Prop where
  sound : t.Sound
  listed : FirstAppearances (seen.map (·.2)) t.names
  value : ∀ (i : Nat) (g : String) (a : α), t.rows[i]? = some (g, a) → valueOf f seen g = some a

variable {f : Movie → Option α → α} {seen : List (Movie × String)} {t : Tally α} {m : Movie}
  {g : String}

theorem mem_names_iff : g ∈ t.names ↔ ∃ (i : Nat) (a : α), t.rows[i]? = some (g, a) := by
  simp only [names, List.mem_map, Array.mem_toList_iff, Array.mem_iff_getElem?, Prod.exists,
    exists_and_right, exists_eq_right]
  exact exists_comm

theorem valueOf_concat (f : Movie → Option α → α) (seen : List (Movie × String)) (m : Movie)
    (g h : String) :
    valueOf f (seen ++ [(m, g)]) h =
      if g = h then some (f m (valueOf f seen h)) else valueOf f seen h := by
  rw [valueOf, List.filter_append, List.foldl_append]
  by_cases hgh : g = h
  · simp [hgh, valueOf]
  · simp [hgh, valueOf]

theorem valueOf_of_notMem (h : g ∉ seen.map (·.2)) : valueOf f seen g = none := by
  have hnone : seen.filter (·.2 == g) = [] := by
    rw [List.filter_eq_nil_iff]
    intro x hx heq
    exact h (List.mem_map.mpr ⟨x, hx, eq_of_beq heq⟩)
  rw [valueOf, hnone]
  rfl

theorem tallied_empty (f : Movie → Option α → α) : Tallied f [] (empty : Tally α) := by
  refine ⟨fun g i => ?_, .nil, fun i g a h => ?_⟩
  · simp [empty]
  · simp [empty] at h

/-! ## Rows -/

theorem Sound.place_eq (h : t.Sound) {i j : Nat} {a b : α} (hi : t.rows[i]? = some (g, a))
    (hj : t.rows[j]? = some (g, b)) : i = j :=
  Option.some_inj.mp (((h g i).mpr ⟨a, hi⟩).symm.trans ((h g j).mpr ⟨b, hj⟩))

section

variable {i : Nat} {a : α} (hrow : t.rows[i]? = some (g, a)) (change : α → α)

include hrow

theorem getElem?_rows_changeAt (j : Nat) :
    (t.changeAt i change).rows[j]? = if i = j then some (g, change a) else t.rows[j]? := by
  rw [changeAt, Array.getElem?_modify]
  by_cases hij : i = j
  · rw [if_pos hij, if_pos hij, ← hij, hrow, Option.map_some]
  · rw [if_neg hij, if_neg hij]

theorem names_changeAt : (t.changeAt i change).names = t.names := by
  refine List.ext_getElem? fun j => ?_
  rw [names, names, List.getElem?_map, List.getElem?_map, Array.getElem?_toList,
    Array.getElem?_toList, getElem?_rows_changeAt hrow]
  by_cases hij : i = j
  · rw [if_pos hij, ← hij, hrow]
    rfl
  · rw [if_neg hij]

theorem Sound.changeAt (h : t.Sound) : (t.changeAt i change).Sound := by
  intro k j
  rw [getElem?_rows_changeAt hrow]
  change t.places[k]? = some j ↔ _
  rw [h k j]
  by_cases hij : i = j
  · subst hij
    rw [if_pos rfl, hrow]
    simp
  · rw [if_neg hij]

end

theorem getElem?_rows_append (t : Tally α) (g : String) (a : α) (j : Nat) :
    (t.append g a).rows[j]? = if j = t.rows.size then some (g, a) else t.rows[j]? := by
  rw [append, Array.getElem?_push]

theorem names_append (t : Tally α) (g : String) (a : α) :
    (t.append g a).names = t.names ++ [g] := by
  simp [names, append]

theorem Sound.notMem_names (h : t.Sound) (hplace : t.places[g]? = none) : g ∉ t.names := by
  rw [mem_names_iff]
  rintro ⟨i, a, hrow⟩
  have hsome := (h g i).mpr ⟨a, hrow⟩
  rw [hplace] at hsome
  cases hsome

theorem Sound.append (h : t.Sound) (hplace : t.places[g]? = none) (a : α) :
    (t.append g a).Sound := by
  intro k j
  rw [getElem?_rows_append]
  change (t.places.insert g t.rows.size)[k]? = some j ↔ _
  rw [Std.ExtHashMap.getElem?_insert]
  by_cases hgk : g = k
  · subst hgk
    rw [if_pos (beq_self_eq_true g)]
    by_cases hj : j = t.rows.size
    · simp [hj]
    · rw [if_neg hj, ← h g j, hplace]
      simp [eq_comm, hj]
  · rw [if_neg (by simpa using hgk), h k j]
    by_cases hj : j = t.rows.size
    · simp [hj, hgk]
    · rw [if_neg hj]

/-! ## One occurrence -/

theorem Tallied.again (h : Tallied f seen t) {i : Nat} {a : α} (hrow : t.rows[i]? = some (g, a)) :
    Tallied f (seen ++ [(m, g)]) (t.changeAt i fun a => f m (some a)) := by
  refine ⟨h.sound.changeAt hrow _, ?_, fun j k b hj => ?_⟩
  · rw [List.map_append, names_changeAt hrow]
    exact h.listed.again (mem_names_iff.mpr ⟨i, a, hrow⟩)
  · rw [getElem?_rows_changeAt hrow] at hj
    rw [valueOf_concat]
    by_cases hij : i = j
    · rw [if_pos hij, Option.some_inj, Prod.mk.injEq] at hj
      obtain ⟨rfl, rfl⟩ := hj
      rw [if_pos rfl, h.value i g a hrow]
    · rw [if_neg hij] at hj
      rw [if_neg fun hgk => hij (h.sound.place_eq hrow (hgk ▸ hj)), h.value j k b hj]

theorem Tallied.concat (h : Tallied f seen t) (hplace : t.places[g]? = none) :
    Tallied f (seen ++ [(m, g)]) (t.append g (f m none)) := by
  have hnew : g ∉ t.names := h.sound.notMem_names hplace
  refine ⟨h.sound.append hplace _, ?_, fun j k b hj => ?_⟩
  · rw [List.map_append, names_append]
    exact h.listed.concat hnew
  · rw [getElem?_rows_append] at hj
    rw [valueOf_concat]
    by_cases hij : j = t.rows.size
    · rw [if_pos hij, Option.some_inj, Prod.mk.injEq] at hj
      obtain ⟨rfl, rfl⟩ := hj
      rw [if_pos rfl, valueOf_of_notMem (mt (h.listed.mem_iff g).mpr hnew)]
    · rw [if_neg hij] at hj
      have hgk : g ≠ k := fun hgk => hnew (mem_names_iff.mpr ⟨j, b, hgk ▸ hj⟩)
      rw [if_neg hgk, h.value j k b hj]

theorem Tallied.update (h : Tallied f seen t) (m : Movie) (g : String) :
    Tallied f (seen ++ [(m, g)]) (t.update (f m) g) := by
  unfold Tally.update
  cases hplace : t.places[g]? with
  | none => exact h.concat hplace
  | some i =>
      obtain ⟨a, hrow⟩ := (h.sound g i).mp hplace
      exact h.again hrow

/-! ## Loops -/

theorem Tallied.updateAll (h : Tallied f seen t) (m : Movie) (genres : List String) :
    Tallied f (seen ++ genres.map fun g => (m, g)) (t.updateAll (f m) genres) := by
  induction genres generalizing seen t with
  | nil => simpa [Tally.updateAll] using h
  | cons g genres ih =>
      have hrest := ih (h.update m g)
      rwa [List.append_assoc, List.singleton_append] at hrest

end Tally

/-- The occurrences of genres in some movies. -/
def occurrences (movies : List Movie) : List (Movie × String) :=
  movies.flatMap fun m => (genresOf m).map fun g => (m, g)

theorem map_snd_occurrences (movies : List Movie) :
    (occurrences movies).map (·.2) = movies.flatMap genresOf := by
  rw [occurrences, List.map_flatMap]
  simp only [List.map_map, Function.comp_def, List.map_id']

namespace Tally

theorem ofMovies_concat (f : Movie → Option α → α) (movies : List Movie) (m : Movie) :
    ofMovies f (movies ++ [m]) = (ofMovies f movies).updateAll (f m) (genresOf m) := by
  rw [ofMovies, List.foldl_append]
  rfl

theorem tallied_ofMovies (f : Movie → Option α → α) (movies : List Movie) :
    Tallied f (occurrences movies) (ofMovies f movies) := by
  induction movies using List.reverseRecOn with
  | nil => exact tallied_empty f
  | append_singleton movies m ih =>
      rw [ofMovies_concat, occurrences, List.flatMap_append, List.flatMap_singleton]
      exact ih.updateAll m (genresOf m)

/-- At every moment of the loop the table has the places of the rows. -/
theorem sound_updateAll_ofMovies (f : Movie → Option α → α) (front : List Movie) (m : Movie)
    (seen : List String) : ((ofMovies f front).updateAll (f m) seen).Sound :=
  ((tallied_ofMovies f front).updateAll m seen).sound

end Tally

end Matinee.Profile
