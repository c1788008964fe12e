/-
# `Matinee.Text.Runs` — classes of characters as runs of code points

A property of characters that the Unicode Character Database lists is kept here
as a table of runs, each given by its first and its last code point.
-/

namespace Matinee.Text

/-- The code point of `c` lies in one of the runs. -/
def inRuns (runs : List (Nat × Nat)) (c : Char) : Bool :=
  runs.any fun (first, last) => first ≤ c.toNat && c.toNat ≤ last

theorem inRuns_iff (runs : List (Nat × Nat)) (c : Char) :
    inRuns runs c = true ↔ ∃ r ∈ runs, r.1 ≤ c.toNat ∧ c.toNat ≤ r.2 := by
  simp [inRuns]

end Matinee.Text
