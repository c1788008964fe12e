/-
# `Matinee.Number.Fixed` — a fixed number of decimal places

The exact binary value is rounded to the places asked for, a half to the even
neighbour; a double has no other value, so nothing is rounded twice.
-/
import Matinee.Number.Binary
import Matinee.Number.Whole

namespace Matinee.Number

/-- The text of `m · 2 ^ q` with `places` decimals. -/
def fixedDigits (places m : Nat) (q : Int) : List Char :=
  let (num, den) := ratio m q
  let scaled := roundHalfEven (num * 10 ^ places) den
  digits (scaled / 10 ^ places) ++
    if places == 0 then [] else '.' :: paddedDigits places (scaled % 10 ^ places)

/-- The text of any double with `places` decimals. -/
def fixedText (places : Nat) (x : Float) : List Char :=
  match meaning x with
  | .nan => "NaN".toList
  | .infinite negative => (if negative then "-inf" else "inf").toList
  | .finite ⟨negative, m, q⟩ => (if negative then ['-'] else []) ++ fixedDigits places m q

/-- `1 / 32` lies halfway, and so does `3 / 32`. -/
example : fixedDigits 4 1 (-5) = "0.0312".toList ∧ fixedDigits 4 3 (-5) = "0.0938".toList := by
  decide +kernel

end Matinee.Number
