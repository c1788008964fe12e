/-
# `Matinee.Proofs.Text.Blank` — what trimming leaves

A trimmed text begins and ends with a character that is not blank, unless
nothing is left of it.  So it is trimmed already (`trim_trim`), and it is empty
for blank texts alone (`trim_eq_nil_iff`).  A trimmed text within another stays
in it when that is trimmed (`trim_around`), and blanks at the end of a text make no
difference to what is left of it (`trim_append_blanks`).
-/
import Matinee.Text.Blank

namespace Matinee.Text

theorem dropWhile_eq_self {p : Char → Bool} {s : List Char}
    (h : ∀ c, s.head? = some c → p c = false) : s.dropWhile p = s := by
  cases s with
  | nil => rfl
  | cons c s => exact List.dropWhile_cons_of_neg (by simp [h c rfl])

theorem head?_dropWhile {p : Char → Bool} {s : List Char} {c : Char}
    (h : (s.dropWhile p).head? = some c) : p c = false := by
  have hnot := List.head?_dropWhile_not p s
  rwa [h] at hnot

theorem dropEndWhile_prefix (p : Char → Bool) (s : List Char) : dropEndWhile p s <+: s := by
  have hsuffix : s.reverse.dropWhile p <:+ s.reverse := List.dropWhile_suffix p
  rw [dropEndWhile, ← List.reverse_suffix, List.reverse_reverse]
  exact hsuffix

theorem dropEndWhile_dropEndWhile (p : Char → Bool) (s : List Char) :
    dropEndWhile p (dropEndWhile p s) = dropEndWhile p s := by
  simp only [dropEndWhile, List.reverse_reverse]
  rw [dropWhile_eq_self fun _ => head?_dropWhile]

theorem trimStart_trim (s : List Char) : trimStart (trim s) = trim s := by
  obtain ⟨t, ht⟩ : trim s <+: trimStart s := dropEndWhile_prefix isBlank (trimStart s)
  refine dropWhile_eq_self fun c hc => ?_
  have hhead : (trimStart s).head? = some c := by
    rw [← ht, List.head?_append, hc, Option.some_or]
  exact head?_dropWhile hhead

theorem trim_trim (s : List Char) : trim (trim s) = trim s := by
  calc trim (trim s) = trimEnd (trim s) := by rw [trim, trimStart_trim]
    _ = trim s := dropEndWhile_dropEndWhile isBlank (trimStart s)

theorem dropWhile_eq_nil_iff {p : Char → Bool} {s : List Char} :
    s.dropWhile p = [] ↔ s.all p = true := by
  induction s with
  | nil => simp
  | cons c s ih =>
      by_cases hc : p c = true
      · rw [List.dropWhile_cons_of_pos hc, ih, List.all_cons, hc, Bool.true_and]
      · rw [List.dropWhile_cons_of_neg hc]
        simp [hc]

theorem dropEndWhile_eq_nil_iff {p : Char → Bool} {s : List Char} :
    dropEndWhile p s = [] ↔ s.all p = true := by
  rw [dropEndWhile, List.reverse_eq_nil_iff, dropWhile_eq_nil_iff, List.all_reverse]

theorem trim_eq_nil_iff {s : List Char} : trim s = [] ↔ isAllBlank s = true := by
  rw [isAllBlank, ← dropWhile_eq_nil_iff, trim, trimEnd, dropEndWhile_eq_nil_iff]
  constructor
  · intro hall
    cases hs : trimStart s with
    | nil => exact hs
    | cons c rest =>
        have hc : isBlank c = false := head?_dropWhile (congrArg List.head? hs)
        rw [hs, List.all_cons, hc] at hall
        exact absurd hall Bool.false_ne_true
  · intro hnil
    rw [trimStart, hnil]
    rfl

/-- A text that neither begins nor ends with a blank. -/
structure Trimmed (s : List Char) : Prop where
  first : ∀ c, s.head? = some c → isBlank c = false
  last : ∀ c, s.getLast? = some c → isBlank c = false

/-! ## A trimmed text within another -/

theorem exists_blanks_trimStart (s : List Char) :
    ∃ blanks, (∀ c ∈ blanks, isBlank c = true) ∧ s = blanks ++ trimStart s :=
  ⟨s.takeWhile isBlank, List.all_eq_true.mp List.all_takeWhile,
    List.takeWhile_append_dropWhile.symm⟩

theorem exists_trimEnd_blanks (s : List Char) :
    ∃ blanks, (∀ c ∈ blanks, isBlank c = true) ∧ s = trimEnd s ++ blanks := by
  obtain ⟨blanks, hblanks, hs⟩ := exists_blanks_trimStart s.reverse
  refine ⟨blanks.reverse, fun c hc => hblanks c (List.mem_reverse.mp hc), ?_⟩
  rw [trimEnd, dropEndWhile, ← List.reverse_append]
  exact List.reverse_eq_iff.mp hs

theorem head?_trim {s : List Char} {c : Char} (h : (trim s).head? = some c) : isBlank c = false := by
  rw [← trimStart_trim] at h
  exact head?_dropWhile h

theorem getLast?_trim {s : List Char} {c : Char} (h : (trim s).getLast? = some c) :
    isBlank c = false := by
  rw [trim, trimEnd, dropEndWhile, List.getLast?_reverse] at h
  exact head?_dropWhile h

theorem trimmed_trim (s : List Char) : Trimmed (trim s) :=
  ⟨fun _ => head?_trim, fun _ => getLast?_trim⟩

theorem trim_infix (s : List Char) : trim s <:+: s := by
  have hend : trim s <+: trimStart s := dropEndWhile_prefix isBlank (trimStart s)
  have hstart : trimStart s <:+ s := List.dropWhile_suffix isBlank
  exact hend.isInfix.trans hstart.isInfix

theorem dropWhile_append_of_head? {p : Char → Bool} (s : List Char) {t : List Char}
    (h : ∀ c, t.head? = some c → p c = false) : (s ++ t).dropWhile p = s.dropWhile p ++ t := by
  induction s with
  | nil => exact dropWhile_eq_self h
  | cons c s ih =>
      by_cases hc : p c = true
      · rw [List.cons_append, List.dropWhile_cons_of_pos hc, List.dropWhile_cons_of_pos hc, ih]
      · rw [List.cons_append, List.dropWhile_cons_of_neg hc, List.dropWhile_cons_of_neg hc]
        rfl

/-- What stands around a trimmed text is trimmed by itself. -/
theorem trim_around {text : List Char} (hne : trim text ≠ []) (front back : List Char) :
    trim (front ++ trim text ++ back) = trimStart front ++ trim text ++ trimEnd back := by
  have hfirst : ∀ c, (trim text ++ back).head? = some c → isBlank c = false := by
    intro c hc
    rw [List.head?_append, List.head?_eq_some_head hne, Option.some_or] at hc
    exact head?_trim ((List.head?_eq_some_head hne).trans hc)
  have hlast : ∀ c, (trimStart front ++ trim text).reverse.head? = some c → isBlank c = false := by
    intro c hc
    rw [List.head?_reverse, List.getLast?_append, List.getLast?_eq_some_getLast hne,
      Option.some_or] at hc
    exact getLast?_trim ((List.getLast?_eq_some_getLast hne).trans hc)
  have hstart : trimStart (front ++ trim text ++ back) = trimStart front ++ trim text ++ back := by
    rw [List.append_assoc, trimStart, dropWhile_append_of_head? front hfirst, ← List.append_assoc]
    rfl
  rw [trim, hstart, trimEnd, dropEndWhile, List.reverse_append,
    dropWhile_append_of_head? back.reverse hlast, List.reverse_append, List.reverse_reverse]
  rfl

/-! ## Blanks at the end -/

theorem trimEnd_concat {c : Char} (hc : isBlank c = false) (s : List Char) :
    trimEnd (s ++ [c]) = s ++ [c] := by
  rw [trimEnd, dropEndWhile, List.reverse_append, List.reverse_singleton, List.singleton_append,
    List.dropWhile_cons_of_neg (by simp [hc]), List.reverse_cons, List.reverse_reverse]

theorem trimEnd_append_blanks (s : List Char) {blanks : List Char}
    (h : ∀ c ∈ blanks, isBlank c = true) : trimEnd (s ++ blanks) = trimEnd s := by
  rw [trimEnd, dropEndWhile, List.reverse_append,
    List.dropWhile_append_of_pos fun c hc => h c (List.mem_reverse.mp hc)]
  rfl

theorem trim_append_blanks (s : List Char) {blanks : List Char}
    (h : ∀ c ∈ blanks, isBlank c = true) : trim (s ++ blanks) = trim s := by
  have hnil : trimStart blanks = [] := dropWhile_eq_nil_iff.mpr (List.all_eq_true.mpr h)
  rw [trim, trimStart, List.dropWhile_append]
  split
  · rename_i hempty
    rw [← trimStart] at hempty
    rw [trim, List.isEmpty_iff.mp hempty]
    exact congrArg trimEnd hnil
  · exact trimEnd_append_blanks (trimStart s) h

end Matinee.Text
