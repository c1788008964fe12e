/-
# `Matinee.Instant.Calendar` — days and dates

The Gregorian calendar, extended to all years.  Days are counted from the first
of January of the year 1.
-/

namespace Matinee.Calendar

def isLeap (year : Int) : Bool := year % 4 == 0 && (year % 100 != 0 || year % 400 == 0)

/-- The days of the years from 1 up to, but without, `year`. -/
def daysBefore (year : Int) : Int :=
  let y := year - 1
  365 * y + y / 4 - y / 100 + y / 400

/-- The lengths of the months. -/
def monthLengths (leap : Bool) : List Nat :=
  [31, if leap then 29 else 28, 31, 30, 31, 30, 31, 31, 30, 31, 30, 31]

/-- A day of a year; month and day count from 1. -/
structure Date where
  year : Int
  month : Nat
  day : Nat
deriving DecidableEq, Repr

/-- The date exists. -/
def Date.isValid (d : Date) : Bool :=
  match (monthLengths (isLeap d.year))[d.month - 1]? with
  | some length => d.month != 0 && d.day != 0 && d.day ≤ length
  | none => false

/-- The days of the year before a date. -/
def dayOfYear (leap : Bool) (month day : Nat) : Nat :=
  ((monthLengths leap).take (month - 1)).foldl (· + ·) 0 + (day - 1)

def Date.toDay (d : Date) : Int := daysBefore d.year + dayOfYear (isLeap d.year) d.month d.day

/-- The year of a day.  An average year has `146097 / 400` days, so a quotient
misses the year by one at most. -/
def yearOf (day : Int) : Int :=
  let guess := day * 400 / 146097 + 1
  if day < daysBefore guess then guess - 1
  else if daysBefore (guess + 1) ≤ day then guess + 1
  else guess

/-- Month and day, `n` days behind the first day of the first of these months. -/
def monthAndDay (month : Nat) (n : Nat) : List Nat → Nat × Nat
  | [] => (month, n + 1)
  | length :: rest => if n < length then (month, n + 1) else monthAndDay (month + 1) (n - length) rest

def Date.ofDay (day : Int) : Date :=
  let year := yearOf day
  let (month, d) := monthAndDay 1 (day - daysBefore year).toNat (monthLengths (isLeap year))
  ⟨year, month, d⟩

/-- The first of January 1970. -/
example : (⟨1970, 1, 1⟩ : Date).toDay = 719162 := by decide

/-- The last day of a leap century, and the day after it. -/
example : Date.ofDay 730484 = ⟨2000, 12, 31⟩ ∧ Date.ofDay 730485 = ⟨2001, 1, 1⟩ := by decide

end Matinee.Calendar
