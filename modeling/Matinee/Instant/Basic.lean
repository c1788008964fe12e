/-
# `Matinee.Instant.Basic` — points in time

An instant of Coordinated Universal Time, to the nanosecond.  A leap second is
the second nanosecond count above a thousand million inside the second before
it, so that it has a text of its own and still lies on its day.
-/
import Matinee.Instant.Calendar

namespace Matinee

structure Instant where
  /-- Days since the first of January of the year 1. -/
  day : Int
  /-- Seconds since midnight. -/
  second : Nat
  /-- Nanoseconds; a thousand million of them or more lie in a leap second. -/
  nano : Nat
  second_lt : second < 86400
  nano_lt : nano < 2000000000
deriving DecidableEq, Repr

namespace Instant

/-- The instant at which clocks that are `offset` seconds ahead show a time of a
day. -/
def ofLocal (day : Int) (second : Nat) (nano : Fin 2000000000) (offset : Int) : Instant :=
  let total := day * 86400 + second - offset
  ⟨total / 86400, (total % 86400).toNat, nano, by omega, nano.isLt⟩

def date (i : Instant) : Calendar.Date := .ofDay i.day

end Instant

end Matinee
