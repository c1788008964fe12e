/-
# `Matinee.Proofs.Instant.Calendar` — every day has one date

The years follow each other without gaps, and the quotient that guesses the year of a
day is off by one at most, so a day lies in the year that is found for it.  In that
year the month is found by going along the lengths (`monthAndDay_eq`).  So the date of
a day exists, and counting up to it gives the day again.
-/
import Mathlib.Algebra.GroupWithZero.Nat
import Matinee.Instant.Calendar

namespace Matinee.Calendar

/-! ## Years -/

def yearLength (year : Int) : Nat := if isLeap year then 366 else 365

theorem daysBefore_succ (year : Int) : daysBefore (year + 1) = daysBefore year + yearLength year := by
  simp only [daysBefore, yearLength, isLeap, Bool.and_eq_true, Bool.or_eq_true, beq_iff_eq,
    bne_iff_ne]
  split <;> omega

theorem daysBefore_yearOf (day : Int) :
    daysBefore (yearOf day) ≤ day ∧ day < daysBefore (yearOf day + 1) := by
  unfold yearOf
  dsimp only
  split
  · rename_i hbefore
    simp only [daysBefore] at hbefore ⊢
    omega
  · rename_i hfrom
    split
    · rename_i hbehind
      simp only [daysBefore] at hbehind ⊢
      omega
    · rename_i hto
      simp only [daysBefore] at hfrom hto ⊢
      omega

/-! ## Months -/

theorem sum_monthLengths (year : Int) : (monthLengths (isLeap year)).sum = yearLength year := by
  unfold yearLength
  cases isLeap year <;> rfl

theorem le_of_mem_monthLengths {leap : Bool} {length : Nat} (h : length ∈ monthLengths leap) :
    length ≤ 31 := by
  have hall : ∀ leap, ∀ length ∈ monthLengths leap, length ≤ 31 := by decide
  exact hall leap length h

/-- The month is the one that the day falls into, the lengths before it counted off. -/
theorem monthAndDay_eq {lengths : List Nat} {n : Nat} (h : n < lengths.sum) (first : Nat) :
    ∃ k length, lengths[k]? = some length ∧ (lengths.take k).sum ≤ n ∧
      n < (lengths.take k).sum + length ∧
        monthAndDay first n lengths = (first + k, n - (lengths.take k).sum + 1) := by
  induction lengths generalizing first n with
  | nil => cases h
  | cons length rest ih =>
      rw [monthAndDay]
      split
      · rename_i hn
        exact ⟨0, length, rfl, Nat.zero_le _, by simpa using hn, by simp⟩
      · rename_i hn
        rw [List.sum_cons] at h
        obtain ⟨k, length', hk, hle, hlt, heq⟩ := ih (n := n - length) (by omega) (first + 1)
        refine ⟨k + 1, length', hk, ?_, ?_, ?_⟩
        · rw [List.take_succ_cons, List.sum_cons]
          omega
        · rw [List.take_succ_cons, List.sum_cons]
          omega
        · rw [heq, List.take_succ_cons, List.sum_cons, Nat.sub_add_eq, Nat.add_right_comm,
            Nat.add_assoc]

/-! ## Dates -/

theorem ofDay_eq (day : Int) : ∃ k length,
    (monthLengths (isLeap (yearOf day)))[k]? = some length ∧
      (Date.ofDay day).year = yearOf day ∧ (Date.ofDay day).month = k + 1 ∧
        0 < (Date.ofDay day).day ∧ (Date.ofDay day).day ≤ length ∧
          daysBefore (yearOf day) + ((monthLengths (isLeap (yearOf day))).take k).sum +
            (Date.ofDay day).day = day + 1 := by
  obtain ⟨hfrom, hto⟩ := daysBefore_yearOf day
  rw [daysBefore_succ, ← sum_monthLengths] at hto
  have hn : (day - daysBefore (yearOf day)).toNat <
      (monthLengths (isLeap (yearOf day))).sum := by omega
  obtain ⟨k, length, hk, hle, hlt, heq⟩ := monthAndDay_eq hn 1
  refine ⟨k, length, hk, rfl, ?_, ?_, ?_, ?_⟩
  · rw [Date.ofDay, heq]
    exact Nat.add_comm 1 k
  · rw [Date.ofDay, heq]
    exact Nat.succ_pos _
  · rw [Date.ofDay, heq]
    dsimp only
    omega
  · rw [Date.ofDay, heq]
    dsimp only
    omega

theorem isValid_ofDay (day : Int) : (Date.ofDay day).isValid = true := by
  obtain ⟨k, length, hk, hyear, hmonth, hpos, hle, -⟩ := ofDay_eq day
  rw [Date.isValid, hyear, hmonth, Nat.add_sub_cancel, hk]
  simp only [Bool.and_eq_true, bne_iff_ne, decide_eq_true_eq]
  omega

theorem toDay_ofDay (day : Int) : (Date.ofDay day).toDay = day := by
  obtain ⟨k, length, hk, hyear, hmonth, hpos, -, hday⟩ := ofDay_eq day
  rw [Date.toDay, dayOfYear, hyear, hmonth, Nat.add_sub_cancel, ← List.sum_eq_foldl_nat]
  omega

theorem month_ofDay_le (day : Int) : (Date.ofDay day).month ≤ 12 := by
  obtain ⟨k, length, hk, -, hmonth, -⟩ := ofDay_eq day
  have hlt : k < 12 := (List.getElem?_eq_some_iff.mp hk).1
  omega

theorem day_ofDay_le (day : Int) : (Date.ofDay day).day ≤ 31 := by
  obtain ⟨k, length, hk, -, -, -, hle, -⟩ := ofDay_eq day
  exact Nat.le_trans hle (le_of_mem_monthLengths (List.mem_of_getElem? hk))

end Matinee.Calendar
