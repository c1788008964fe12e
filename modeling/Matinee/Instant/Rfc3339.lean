/-
# `Matinee.Instant.Rfc3339` — timestamps in RFC 3339 form

Instants are written in UTC, with `Z` for the offset.  They are read with any
offset below a day; a small `t` or `z`, a blank for the `T` and a true minus sign
are accepted.  Any minute may have a second 60.  Digits beyond the ninth decimal
are read over.
-/
import Matinee.Instant.Basic
import Matinee.Number.Whole

namespace Matinee.Instant

/-! ## Writing -/

/-- Four digits; a year that needs more, or lies before the year 0, has a sign. -/
def yearText (year : Int) : List Char :=
  if year < 0 then '-' :: Number.paddedDigits 4 year.natAbs
  else if year ≤ 9999 then Number.paddedDigits 4 year.natAbs
  else '+' :: Number.paddedDigits 4 year.natAbs

/-- The text up to the whole seconds. -/
def secondsText (i : Instant) : List Char :=
  let d := i.date
  let two := Number.paddedDigits 2
  yearText d.year ++ '-' :: (two d.month ++ '-' :: (two d.day ++ 'T' ::
    (two (i.second / 3600) ++ ':' :: (two (i.second / 60 % 60) ++ ':' ::
      two (i.second % 60 + i.nano / 1000000000)))))

/-- The nanoseconds of the second shown. -/
def fraction (i : Instant) : Nat := i.nano % 1000000000

/-- With milliseconds; finer parts are cut off. -/
def millisText (i : Instant) : List Char :=
  secondsText i ++ '.' :: (Number.paddedDigits 3 (i.fraction / 1000000) ++ ['Z'])

/-- With no decimals, or three, six or nine, as many as are needed. -/
def shortText (i : Instant) : List Char :=
  let f := i.fraction
  let decimals :=
    if f == 0 then []
    else if f % 1000000 == 0 then '.' :: Number.paddedDigits 3 (f / 1000000)
    else if f % 1000 == 0 then '.' :: Number.paddedDigits 6 (f / 1000)
    else '.' :: Number.paddedDigits 9 f
  secondsText i ++ (decimals ++ ['Z'])

/-! ## Reading -/

/-- Exactly `count` digits, and what stands behind them. -/
def takeDigits (count : Nat) (s : List Char) : Option (Nat × List Char) :=
  let ds := s.take count
  if ds.length == count && ds.all Number.isDigit then some (Number.ofDigits ds, s.drop count)
  else none

/-- The text behind one of the characters that satisfy `p`. -/
def expect (p : Char → Bool) : List Char → Option (List Char)
  | c :: rest => if p c then some rest else none
  | [] => none

/-- Nanoseconds behind the point, one digit or more. -/
def takeFraction : List Char → Option (Fin 1000000000 × List Char)
  | '.' :: s =>
    let ds := s.takeWhile Number.isDigit
    if ds.isEmpty then none
    else
      let nine := ds.take 9
      some (Fin.ofNat 1000000000 (Number.ofDigits nine * 10 ^ (9 - nine.length)),
        s.dropWhile Number.isDigit)
  | s => some (0, s)

/-- The offset in seconds, at the end of the text. -/
def readOffset : List Char → Option Int
  | [c] => if c == 'Z' || c == 'z' then some 0 else none
  | sign :: s => do
    let factor : Int ← if sign == '+' then some 1
      else if sign == '-' || sign == '\u2212' then some (-1) else none
    let (hours, s) ← takeDigits 2 s
    let s ← expect (· == ':') s
    let (minutes, s) ← takeDigits 2 s
    guard (s.isEmpty && hours ≤ 23 && minutes ≤ 59)
    return factor * (hours * 3600 + minutes * 60)
  | [] => none

/-- The nanoseconds of a second that is written `second`. -/
def nanosOf (second : Nat) (fraction : Fin 1000000000) : Fin 2000000000 :=
  if second = 60 then ⟨1000000000 + fraction, by omega⟩ else ⟨fraction, by omega⟩

def readRfc3339 (s : List Char) : Option Instant := do
  let (year, s) ← takeDigits 4 s
  let s ← expect (· == '-') s
  let (month, s) ← takeDigits 2 s
  let s ← expect (· == '-') s
  let (day, s) ← takeDigits 2 s
  let s ← expect (fun c => c == 'T' || c == 't' || c == ' ') s
  let (hour, s) ← takeDigits 2 s
  let s ← expect (· == ':') s
  let (minute, s) ← takeDigits 2 s
  let s ← expect (· == ':') s
  let (second, s) ← takeDigits 2 s
  let (fraction, s) ← takeFraction s
  let offset ← readOffset s
  let date : Calendar.Date := ⟨year, month, day⟩
  guard (date.isValid && hour ≤ 23 && minute ≤ 59 && second ≤ 60)
  return ofLocal date.toDay (hour * 3600 + minute * 60 + min second 59)
    (nanosOf second fraction) offset

example : (readRfc3339 "2024-03-15t13:30:60.5+01:00".toList).map shortText =
    some "2024-03-15T12:30:60.500Z".toList := by decide +kernel

end Matinee.Instant
