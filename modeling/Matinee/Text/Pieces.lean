/-
# `Matinee.Text.Pieces` — cutting a text at separators, and other cuts

`splitAt` keeps every piece, the empty ones too, so a text with `n` separators
has `n + 1` pieces (`length_splitAt`), and cutting at one of them first changes
nothing (`splitAt_append_sep`).
-/

namespace Matinee.Text

/-- The pieces between the characters that satisfy `sep`. -/
def splitAt (sep : Char → Bool) (s : List Char) : List (List Char) :=
  s.foldr
    (fun c pieces =>
      if sep c then [] :: pieces
      else match pieces with
        | p :: ps => (c :: p) :: ps
        | [] => [[c]])
    [[]]

/-- What is left of a text behind `front`. -/
def dropFront? (front s : List Char) : Option (List Char) :=
  if front.isPrefixOf s then some (s.drop front.length) else none

/-- The position of the last character that satisfies `p`. -/
def lastIndexWhere (p : Char → Bool) (s : List Char) : Option Nat :=
  (s.reverse.findIdx? p).map fun i => s.length - 1 - i

theorem splitAt_ne_nil (sep : Char → Bool) (s : List Char) : splitAt sep s ≠ [] := by
  induction s with
  | nil => simp [splitAt]
  | cons c r ih =>
    simp only [splitAt, List.foldr_cons]
    split
    · simp
    · split <;> simp

theorem splitAt_cons_sep {sep : Char → Bool} {c : Char} (h : sep c = true) (r : List Char) :
    splitAt sep (c :: r) = [] :: splitAt sep r := by
  simp [splitAt, h]

theorem splitAt_cons_other {sep : Char → Bool} {c : Char} (h : sep c = false) {r p : List Char}
    {ps : List (List Char)} (hr : splitAt sep r = p :: ps) :
    splitAt sep (c :: r) = (c :: p) :: ps := by
  simp only [splitAt] at hr
  simp [splitAt, h, hr]

theorem length_splitAt (sep : Char → Bool) (s : List Char) :
    (splitAt sep s).length = s.countP sep + 1 := by
  induction s with
  | nil => simp [splitAt]
  | cons c r ih =>
    by_cases h : sep c = true
    · simp [splitAt_cons_sep h, ih, h]
    · have hf : sep c = false := by simpa using h
      obtain ⟨p, ps, hr⟩ := List.exists_cons_of_ne_nil (splitAt_ne_nil sep r)
      rw [splitAt_cons_other hf hr, List.countP_cons_of_neg h, ← ih, hr]
      simp

theorem sep_eq_false_of_mem_splitAt {sep : Char → Bool} {s piece : List Char}
    (h : piece ∈ splitAt sep s) : ∀ c ∈ piece, sep c = false := by
  induction s generalizing piece with
  | nil => simp_all [splitAt]
  | cons c r ih =>
    by_cases hc : sep c = true
    · rw [splitAt_cons_sep hc] at h
      rcases List.mem_cons.1 h with rfl | h
      · simp
      · exact ih h
    · have hf : sep c = false := by simpa using hc
      obtain ⟨p, ps, hr⟩ := List.exists_cons_of_ne_nil (splitAt_ne_nil sep r)
      rw [splitAt_cons_other hf hr] at h
      rw [hr] at ih
      rcases List.mem_cons.1 h with rfl | h
      · intro d hd
        rcases List.mem_cons.1 hd with rfl | hd
        · exact hf
        · exact ih (List.mem_cons_self ..) d hd
      · exact ih (List.mem_cons_of_mem _ h)

/-- A text may be cut at one of its separators first. -/
theorem splitAt_append_sep {sep : Char → Bool} {c : Char} (h : sep c = true) (a b : List Char) :
    splitAt sep (a ++ c :: b) = splitAt sep a ++ splitAt sep b := by
  induction a with
  | nil => exact splitAt_cons_sep h b
  | cons d a ih =>
    rw [List.cons_append]
    by_cases hd : sep d = true
    · rw [splitAt_cons_sep hd, splitAt_cons_sep hd, ih, List.cons_append]
    · have hf : sep d = false := by simpa using hd
      obtain ⟨p, ps, hr⟩ := List.exists_cons_of_ne_nil (splitAt_ne_nil sep a)
      have ha : splitAt sep (a ++ c :: b) = p :: (ps ++ splitAt sep b) := by
        rw [ih, hr, List.cons_append]
      rw [splitAt_cons_other hf hr, splitAt_cons_other hf ha, List.cons_append]

theorem dropFront?_eq_some_iff {front s rest : List Char} :
    dropFront? front s = some rest ↔ s = front ++ rest := by
  constructor
  · intro h
    simp only [dropFront?] at h
    split at h
    · rename_i hp
      obtain ⟨r, rfl⟩ := List.isPrefixOf_iff_prefix.1 hp
      simpa using h
    · cases h
  · rintro rfl
    simp [dropFront?, List.isPrefixOf_iff_prefix.2 (List.prefix_append front rest)]

end Matinee.Text
