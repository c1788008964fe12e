/-
# `Matinee.Rating.Scale` — from ten points to five

Ratings of the remote catalog go from 0 to 10, those of the dataset from 0 to 5.
-/

namespace Matinee.Rating

/-- A ten-point rating on the five-point scale; nothing is clipped. -/
def toFivePoint (x : Float) : Float := x / 10.0 * 5.0

end Matinee.Rating
