/-
# `Matinee.Proofs.Search.Year` — the year at the end of a title

A title ends in a year if what is left of it without the white space at its end is closed
by four digits in parentheses.  No parenthesis opens within those, so they stand behind
the last one that does, and that is where the year is looked for.

A digit has one octet.  So a text of five octets with a parenthesis at its end has digits
in all other places just if there are four of them, and the octets are counted for the
characters (`isYear_iff`).
-/
import Matinee.Proofs.Text.Blank
import Matinee.Search.Matching

namespace Matinee.Search

/-! ## Years -/

/-- Four digits. -/
structure IsYear (s : List Char) : Prop where
  length : s.length = 4
  digits : ∀ c ∈ s, '0' ≤ c ∧ c ≤ '9'

/-- Without the white space at its end, the title is `front` and a year in parentheses. -/
def EndsInYear (title front : List Char) : Prop :=
  ∃ year, IsYear year ∧ Text.trimEnd title = front ++ '(' :: (year ++ [')'])

theorem isDigit_iff {c : Char} : Number.isDigit c = true ↔ '0' ≤ c ∧ c ≤ '9' := by
  unfold Number.isDigit Number.digitValue?
  split
  · rename_i h
    exact iff_of_true rfl h
  · rename_i h
    exact iff_of_false Bool.false_ne_true h

theorem all_isDigit_iff {s : List Char} :
    s.all Number.isDigit = true ↔ ∀ c ∈ s, '0' ≤ c ∧ c ≤ '9' := by
  simp only [List.all_eq_true, isDigit_iff]

theorem octets_of_digits {s : List Char} (h : ∀ c ∈ s, '0' ≤ c ∧ c ≤ '9') :
    Text.octets s = s.length := by
  induction s with
  | nil => rfl
  | cons c s ih =>
      have hnine : c.val ≤ '9'.val := (h c List.mem_cons_self).2
      have hone : c.utf8Size = 1 := Char.utf8Size_eq_one_iff.mpr (UInt32.le_trans hnine (by decide))
      rw [Text.octets_cons, hone, ih fun d hd => h d (List.mem_cons_of_mem c hd), List.length_cons,
        Nat.add_comm]

theorem isYear_iff {s : List Char} :
    IsYear s ↔ (Text.octets s == 4 && s.all Number.isDigit) = true := by
  rw [Bool.and_eq_true, beq_iff_eq, all_isDigit_iff]
  constructor
  · intro h
    exact ⟨(octets_of_digits h.digits).trans h.length, h.digits⟩
  · rintro ⟨hoctets, hdigits⟩
    exact ⟨(octets_of_digits hdigits).symm.trans hoctets, hdigits⟩

theorem isYearTail?_eq_some_true_iff {s : List Char} :
    isYearTail? s = some true ↔ ∃ year, IsYear year ∧ s = year ++ [')'] := by
  constructor
  · intro h
    by_cases hlast : s.getLast? = some ')'
    · obtain ⟨year, rfl⟩ := List.getLast?_eq_some_iff.mp hlast
      rw [isYearTail?_concat, Option.some_inj] at h
      exact ⟨year, isYear_iff.mpr h, rfl⟩
    · rw [isYearTail?_of_getLast?_ne hlast] at h
      cases h
  · rintro ⟨year, hyear, rfl⟩
    rw [isYearTail?_concat, isYear_iff.mp hyear]

theorem IsYear.opening_notMem {year : List Char} (h : IsYear year) : '(' ∉ year ++ [')'] := by
  intro hmem
  rcases List.mem_append.mp hmem with hmem | hmem
  · exact absurd (h.digits _ hmem) (by decide)
  · exact absurd hmem (by decide)

/-! ## Titles -/

variable {title front : List Char}

theorem withoutYear?_of_endsInYear (h : EndsInYear title front) :
    withoutYear? title = some (Text.trim front) := by
  obtain ⟨year, hyear, htext⟩ := h
  exact withoutYear?_of_append htext hyear.opening_notMem
    (isYearTail?_eq_some_true_iff.mpr ⟨year, hyear, rfl⟩)

theorem withoutYear?_of_not_endsInYear (h : ∀ front, ¬ EndsInYear title front) :
    withoutYear? title = some (Text.trim title) := by
  by_cases hopening : '(' ∈ Text.trimEnd title
  · obtain ⟨front, inside, htext, hinside⟩ := Text.exists_append_of_mem hopening
    obtain ⟨found, hfound⟩ := Option.isSome_iff_exists.mp (isSome_isYearTail? inside)
    rw [withoutYear?_of_append htext hinside hfound]
    cases found with
    | false => rfl
    | true =>
        obtain ⟨year, hyear, rfl⟩ := isYearTail?_eq_some_true_iff.mp hfound
        exact absurd ⟨year, hyear, htext⟩ (h front)
  · exact withoutYear?_of_notMem hopening

theorem EndsInYear.lastOffsetOf (h : EndsInYear title front) :
    Text.lastOffsetOf '(' (Text.trimEnd title) = some (Text.octets front) := by
  obtain ⟨year, hyear, htext⟩ := h
  rw [htext, Text.lastOffsetOf_append front hyear.opening_notMem]

theorem EndsInYear.isInfix (h : EndsInYear title front) : front <:+: title := by
  obtain ⟨year, -, htext⟩ := h
  have hfront : front <+: Text.trimEnd title := htext ▸ List.prefix_append _ _
  have hend : Text.trimEnd title <+: title := Text.dropEndWhile_prefix Text.isBlank title
  exact (hfront.trans hend).isInfix

theorem IsYear.endsInYear {year : List Char} (h : IsYear year) (title : List Char) :
    EndsInYear (title ++ [' ', '('] ++ year ++ [')']) (title ++ [' ']) := by
  refine ⟨year, h, ?_⟩
  rw [Text.trimEnd_concat (by decide)]
  simp

theorem stripYear_eq {title : String} {rest : List Char}
    (h : withoutYear? title.toList = some rest) : stripYear title = String.ofList rest := by
  simp only [stripYear, withoutYear, h, Option.get_some]

theorem withoutYear?_eq_trim (title : List Char) :
    ∃ part, part <:+: title ∧ withoutYear? title = some (Text.trim part) := by
  by_cases h : ∃ front, EndsInYear title front
  · obtain ⟨front, hfront⟩ := h
    exact ⟨front, hfront.isInfix, withoutYear?_of_endsInYear hfront⟩
  · exact ⟨title, List.infix_refl title, withoutYear?_of_not_endsInYear (not_exists.mp h)⟩

/-- **The year is taken off**, and no cut for it falls into a character.  Of a title that
ends in a year there is left what stands in front of the last parenthesis that opens, of
any other title all of it, without white space at the ends; so a part of the title is
left.  A year that is put behind a title is taken off again. -/
theorem year_taken_off (title : String) :
    withoutYear? title.toList = some (stripYear title).toList ∧
      (∀ front, EndsInYear title.toList front →
        Text.lastOffsetOf '(' (Text.trimEnd title.toList) = some (Text.octets front) ∧
          stripYear title = String.ofList (Text.trim front)) ∧
      ((∀ front, ¬ EndsInYear title.toList front) →
        stripYear title = String.ofList (Text.trim title.toList)) ∧
      (stripYear title).toList <:+: title.toList ∧ Text.Trimmed (stripYear title).toList ∧
      ∀ year : String, IsYear year.toList →
        stripYear (title ++ " (" ++ year ++ ")") = String.ofList (Text.trim title.toList) := by
  obtain ⟨part, hpart, hrest⟩ := withoutYear?_eq_trim title.toList
  have hstrip : (stripYear title).toList = Text.trim part := by
    rw [stripYear_eq hrest, String.toList_ofList]
  refine ⟨?_, ?_, ?_, ?_, ?_, ?_⟩
  · rw [hrest, hstrip]
  · intro front hfront
    exact ⟨hfront.lastOffsetOf, stripYear_eq (withoutYear?_of_endsInYear hfront)⟩
  · intro hnone
    exact stripYear_eq (withoutYear?_of_not_endsInYear hnone)
  · rw [hstrip]
    exact (Text.trim_infix part).trans hpart
  · rw [hstrip]
    exact Text.trimmed_trim part
  · intro year hyear
    have hend : EndsInYear (title ++ " (" ++ year ++ ")").toList (title.toList ++ [' ']) := by
      rw [String.toList_append, String.toList_append, String.toList_append]
      exact hyear.endsInYear title.toList
    have hblank : ∀ c ∈ [' '], Text.isBlank c = true := List.forall_mem_singleton.mpr rfl
    rw [stripYear_eq (withoutYear?_of_endsInYear hend), Text.trim_append_blanks _ hblank]

/-- Of two years the last is taken off.  Where no parenthesis closes, the fourth of the
octets behind the one that opens may lie within a character, and the title is left as it is. -/
theorem year_taken_off_accented :
    let amelie := "Amélie (1999) (2001)\u3000"
    let ran := "Ran (198é"
    EndsInYear amelie.toList "Amélie (1999) ".toList ∧ stripYear amelie = "Amélie (1999)" ∧
      (∀ front, ¬ EndsInYear ran.toList front) ∧ stripYear ran = ran ∧
      IsYear "1985".toList ∧ stripYear (ran ++ " (" ++ "1985" ++ ")") = ran := by
  intro amelie ran
  have hamelie : EndsInYear amelie.toList "Amélie (1999) ".toList :=
    ⟨"2001".toList, isYear_iff.mpr (by decide), by decide +kernel⟩
  have hran : ∀ front, ¬ EndsInYear ran.toList front := by
    rintro front ⟨year, -, htext⟩
    have hlast : (Text.trimEnd ran.toList).getLast? = some 'é' := by decide +kernel
    rw [htext, ← List.cons_append, ← List.append_assoc, List.getLast?_concat] at hlast
    exact absurd hlast (by decide)
  have hyear : IsYear "1985".toList := isYear_iff.mpr (by decide)
  have htrim : String.ofList (Text.trim ran.toList) = ran := by decide +kernel
  refine ⟨hamelie, ?_, hran, ?_, hyear, ?_⟩
  · exact ((year_taken_off amelie).2.1 _ hamelie).2.trans (by decide +kernel)
  · exact ((year_taken_off ran).2.2.1 hran).trans htrim
  · exact ((year_taken_off ran).2.2.2.2.2 "1985" hyear).trans htrim

end Matinee.Search
