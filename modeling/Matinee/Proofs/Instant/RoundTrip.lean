/-
# `Matinee.Proofs.Instant.RoundTrip` — what the text of an instant reads back as

The text with milliseconds is made of digits of fixed width with single characters
between them, and it is read piece by piece (`readRfc3339_pieces`).  So an instant of the
years from 0 to 9999 reads back as what its text shows (`readRfc3339_millisText`).

That is the instant cut to whole milliseconds (`toMillis`), leap seconds included, as long
as these stand at the end of a minute.  The text of any other second with a count of
nanoseconds above a thousand million shows the second behind it (`shown`).
-/
import Matinee.Instant.Rfc3339
import Matinee.Proofs.Instant.Calendar
import Matinee.Proofs.Number.Digits

namespace Matinee.Instant

open Number (paddedDigits)

/-! ## What a text shows -/

/-- The instant without the part below a millisecond. -/
def toMillis (i : Instant) : Instant :=
  ⟨i.day, i.second, i.nano / 1000000 * 1000000, i.second_lt, by have := i.nano_lt; omega⟩

/-- A leap second is the last one of its minute. -/
def LeapInPlace (i : Instant) : Prop := 1000000000 ≤ i.nano → i.second % 60 = 59

instance (i : Instant) : Decidable i.LeapInPlace := inferInstanceAs (Decidable (_ → _))

/-- The second behind a leap second, as the text of the leap second has it. -/
def carried (i : Instant) (h : ¬ i.LeapInPlace) : Instant :=
  ⟨i.day, i.second + 1, (i.nano - 1000000000) / 1000000 * 1000000,
    by have := i.second_lt; rw [LeapInPlace] at h; omega,
    by have := i.nano_lt; omega⟩

/-- What the text with milliseconds says. -/
def shown (i : Instant) : Instant := if h : i.LeapInPlace then i.toMillis else i.carried h

@[simp] theorem toMillis_second (i : Instant) : i.toMillis.second = i.second := rfl

@[simp] theorem toMillis_nano (i : Instant) : i.toMillis.nano = i.nano / 1000000 * 1000000 := rfl

@[simp] theorem carried_second (i : Instant) (h : ¬ i.LeapInPlace) :
    (i.carried h).second = i.second + 1 := rfl

@[simp] theorem carried_nano (i : Instant) (h : ¬ i.LeapInPlace) :
    (i.carried h).nano = (i.nano - 1000000000) / 1000000 * 1000000 := rfl

/-- The whole milliseconds since the first of January of the year 1. -/
def millis (i : Instant) : Int := (i.day * 86400 + i.second) * 1000 + (i.nano / 1000000 : Nat)

theorem shown_of_leapInPlace {i : Instant} (h : i.LeapInPlace) : i.shown = i.toMillis := dif_pos h

theorem shown_of_not_leapInPlace {i : Instant} (h : ¬ i.LeapInPlace) : i.shown = i.carried h :=
  dif_neg h

/-- The instant `d` is `i` cut to whole milliseconds: it has no finer part and lies in the
same millisecond. -/
structure IsCutOf (d i : Instant) : Prop where
  whole : d.nano % 1000000 = 0
  millis : d.millis = i.millis
  /-- Only for leap seconds in their place; others go on in the next second. -/
  exact : i.LeapInPlace → d = i.toMillis

theorem isCutOf_shown (i : Instant) : i.shown.IsCutOf i := by
  by_cases hleap : i.LeapInPlace
  · rw [shown_of_leapInPlace hleap]
    refine ⟨?_, ?_, fun _ => rfl⟩
    · rw [toMillis_nano]
      omega
    · simp only [millis, toMillis]
      omega
  · rw [shown_of_not_leapInPlace hleap]
    refine ⟨?_, ?_, fun h => absurd h hleap⟩
    · rw [carried_nano]
      omega
    · rw [LeapInPlace] at hleap
      simp only [millis, carried]
      omega

/-! ## Pieces -/

theorem takeDigits_paddedDigits {width n : Nat} (hwidth : 0 < width) (h : n < 10 ^ width)
    (rest : List Char) : takeDigits width (paddedDigits width n ++ rest) = some (n, rest) := by
  have hlength := Number.length_paddedDigits hwidth h
  have hdigits : (paddedDigits width n).all Number.isDigit = true :=
    List.all_eq_true.mpr fun _ hc => Number.isDigit_of_mem_paddedDigits hc
  rw [takeDigits, List.take_left' hlength, List.drop_left' hlength, Number.ofDigits_paddedDigits,
    hlength, hdigits, BEq.rfl]
  rfl

theorem bind_of_eq_some {α β : Type} {x : Option α} {a : α} {f : α → Option β} {b : Option β}
    (hx : x = some a) (hf : f a = b) : x >>= f = b := by
  rw [hx]
  exact hf

theorem expect_cons {p : Char → Bool} {c : Char} (h : p c = true) (rest : List Char) :
    expect p (c :: rest) = some rest := if_pos h

theorem takeFraction_millis {millis : Nat} (h : millis < 1000) :
    takeFraction ('.' :: (paddedDigits 3 millis ++ ['Z'])) =
      some (⟨millis * 1000000, by omega⟩, ['Z']) := by
  have hlength : (paddedDigits 3 millis).length = 3 := Number.length_paddedDigits (by decide) h
  have hdigits : ∀ c ∈ paddedDigits 3 millis, Number.isDigit c = true :=
    fun _ hc => Number.isDigit_of_mem_paddedDigits hc
  have hwhile : (paddedDigits 3 millis ++ ['Z']).takeWhile Number.isDigit =
      paddedDigits 3 millis := by
    rw [List.takeWhile_append_of_pos hdigits]
    exact List.append_nil _
  have hrest : (paddedDigits 3 millis ++ ['Z']).dropWhile Number.isDigit = ['Z'] :=
    List.dropWhile_append_of_pos hdigits
  have hsome : (paddedDigits 3 millis).isEmpty = false := by
    rw [List.isEmpty_eq_false_iff, ne_eq, ← List.length_eq_zero_iff, hlength]
    decide
  have hnine : (paddedDigits 3 millis).take 9 = paddedDigits 3 millis :=
    List.take_of_length_le (by omega)
  have hvalue : Fin.ofNat 1000000000 (millis * 10 ^ (9 - 3)) = ⟨millis * 1000000, by omega⟩ :=
    Fin.ext (Nat.mod_eq_of_lt (by omega))
  simp only [takeFraction, hwhile, hrest, hsome, hnine, hlength, Number.ofDigits_paddedDigits,
    hvalue, Bool.false_eq_true, if_false]

/-- The text with these numbers in it. -/
def pieces (year month day hour minute second millis : Nat) : List Char :=
  paddedDigits 4 year ++ '-' :: (paddedDigits 2 month ++ '-' :: (paddedDigits 2 day ++ 'T' ::
    (paddedDigits 2 hour ++ ':' :: (paddedDigits 2 minute ++ ':' :: (paddedDigits 2 second ++
      '.' :: (paddedDigits 3 millis ++ ['Z']))))))

theorem readRfc3339_pieces {year month day hour minute second millis : Nat}
    (hyear : year < 10 ^ 4) (hmonth : month < 10 ^ 2) (hday : day < 10 ^ 2)
    (hdate : (⟨year, month, day⟩ : Calendar.Date).isValid = true) (hhour : hour ≤ 23)
    (hminute : minute ≤ 59) (hsecond : second ≤ 60) (hmillis : millis < 1000) :
    readRfc3339 (pieces year month day hour minute second millis) =
      some (ofLocal (Calendar.Date.toDay ⟨year, month, day⟩)
        (hour * 3600 + minute * 60 + min second 59)
        (nanosOf second ⟨millis * 1000000, by omega⟩) 0) := by
  have htwo : 0 < 2 := by decide
  have hall : ((⟨year, month, day⟩ : Calendar.Date).isValid && decide (hour ≤ 23) &&
      decide (minute ≤ 59) && decide (second ≤ 60)) = true := by
    rw [hdate, decide_eq_true hhour, decide_eq_true hminute, decide_eq_true hsecond]
    rfl
  rw [readRfc3339, pieces]
  refine bind_of_eq_some (takeDigits_paddedDigits (by decide) hyear _) ?_
  refine bind_of_eq_some (expect_cons rfl _) ?_
  refine bind_of_eq_some (takeDigits_paddedDigits htwo hmonth _) ?_
  refine bind_of_eq_some (expect_cons rfl _) ?_
  refine bind_of_eq_some (takeDigits_paddedDigits htwo hday _) ?_
  refine bind_of_eq_some (expect_cons rfl _) ?_
  refine bind_of_eq_some (takeDigits_paddedDigits htwo (by omega) _) ?_
  refine bind_of_eq_some (expect_cons rfl _) ?_
  refine bind_of_eq_some (takeDigits_paddedDigits htwo (by omega) _) ?_
  refine bind_of_eq_some (expect_cons rfl _) ?_
  refine bind_of_eq_some (takeDigits_paddedDigits htwo (by omega) _) ?_
  refine bind_of_eq_some (takeFraction_millis hmillis) ?_
  refine bind_of_eq_some rfl ?_
  exact bind_of_eq_some (if_pos hall) rfl

/-! ## Instants -/

theorem yearText_eq {year : Int} (h : 0 ≤ year ∧ year ≤ 9999) :
    yearText year = paddedDigits 4 year.toNat := by
  rw [yearText, if_neg (by omega), if_pos h.2]
  congr 1
  omega

theorem millisText_eq {i : Instant} (h : 0 ≤ i.date.year ∧ i.date.year ≤ 9999) :
    i.millisText = pieces i.date.year.toNat i.date.month i.date.day (i.second / 3600)
      (i.second / 60 % 60) (i.second % 60 + i.nano / 1000000000) (i.fraction / 1000000) := by
  simp only [millisText, secondsText, yearText_eq h, pieces, List.append_assoc, List.cons_append]

theorem ofLocal_eq {day : Int} {second : Nat} {nano : Fin 2000000000} {i : Instant}
    (hday : day = i.day) (hsecond : second = i.second) (hnano : nano.val = i.nano) :
    ofLocal day second nano 0 = i := by
  have hlt := i.second_lt
  obtain ⟨d, s, n, _, _⟩ := i
  dsimp only at hday hsecond hnano hlt
  rw [ofLocal, mk.injEq]
  exact ⟨by omega, by omega, hnano⟩

theorem nanosOf_of_ne {second : Nat} (h : second ≠ 60) (fraction : Fin 1000000000) :
    (nanosOf second fraction).val = fraction := by
  rw [nanosOf, if_neg h]

theorem nanosOf_sixty (fraction : Fin 1000000000) :
    (nanosOf 60 fraction).val = 1000000000 + fraction := rfl

/-- The hours, minutes and seconds of a text are those of the instant that is shown. -/
theorem ofLocal_shown (i : Instant) (fraction : Fin 1000000000)
    (hfraction : fraction.val = i.fraction / 1000000 * 1000000) :
    ofLocal i.day (i.second / 3600 * 3600 + i.second / 60 % 60 * 60 +
        min (i.second % 60 + i.nano / 1000000000) 59)
      (nanosOf (i.second % 60 + i.nano / 1000000000) fraction) 0 = i.shown := by
  have hnano := i.nano_lt
  rw [Instant.fraction] at hfraction
  by_cases hleap : 1000000000 ≤ i.nano
  · by_cases hplace : i.second % 60 = 59
    · have hsixty : i.second % 60 + i.nano / 1000000000 = 60 := by omega
      rw [shown_of_leapInPlace fun _ => hplace, hsixty]
      refine ofLocal_eq rfl ?_ ?_
      · rw [toMillis_second]
        omega
      · rw [toMillis_nano, nanosOf_sixty, hfraction]
        omega
    · rw [shown_of_not_leapInPlace fun h => hplace (h hleap)]
      refine ofLocal_eq rfl ?_ ?_
      · rw [carried_second]
        omega
      · rw [carried_nano, nanosOf_of_ne (by omega), hfraction]
        omega
  · rw [shown_of_leapInPlace fun h => absurd h hleap]
    refine ofLocal_eq rfl ?_ ?_
    · rw [toMillis_second]
      omega
    · rw [toMillis_nano, nanosOf_of_ne (by omega), hfraction]
      omega

/-- The text with milliseconds reads back as what it shows. -/
theorem readRfc3339_millisText {i : Instant} (h : 0 ≤ i.date.year ∧ i.date.year ≤ 9999) :
    readRfc3339 i.millisText = some i.shown := by
  have hmonth : i.date.month ≤ 12 := Calendar.month_ofDay_le i.day
  have hday : i.date.day ≤ 31 := Calendar.day_ofDay_le i.day
  have hdate : (⟨i.date.year.toNat, i.date.month, i.date.day⟩ : Calendar.Date) = i.date := by
    rw [Int.toNat_of_nonneg h.1]
  have hvalid : (⟨i.date.year.toNat, i.date.month, i.date.day⟩ : Calendar.Date).isValid = true := by
    rw [hdate]
    exact Calendar.isValid_ofDay i.day
  have hsecond := i.second_lt
  have hnano := i.nano_lt
  have hfraction : i.fraction / 1000000 < 1000 := by
    rw [fraction]
    omega
  rw [millisText_eq h, readRfc3339_pieces (by omega) (by omega) (by omega) hvalid (by omega)
    (by omega) (by omega) hfraction, hdate, date, Calendar.toDay_ofDay, ofLocal_shown i _ rfl]

end Matinee.Instant
