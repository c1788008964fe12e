/-
# `Matinee.Number.TotalOrder` — a total order on doubles

Doubles are ordered by value, with `-0.0` below `0.0` and the nameless value
above infinity.
-/
import Matinee.Number.Whole

namespace Matinee.Number

/-- The place of a double in the total order. -/
def orderKey (x : Float) : Int :=
  let bits := x.toBits.toNat
  if bits < 2 ^ 63 then bits else -(bits - 2 ^ 63 : Nat) - 1

end Matinee.Number
