/-
# `Matinee.Text.Blank` — white space and trimming

Every rule of this library that trims, or asks whether a text is blank, means
the white space of the Unicode `White_Space` property: it is wider than the
ASCII blanks and does not contain the zero-width space.
-/

namespace Matinee.Text

/-- The characters with the Unicode property `White_Space`. -/
def isBlank (c : Char) : Bool :=
  let n := c.toNat
  (0x09 ≤ n && n ≤ 0x0D) || n == 0x20 || n == 0x85 || n == 0xA0 || n == 0x1680 ||
    (0x2000 ≤ n && n ≤ 0x200A) || n == 0x2028 || n == 0x2029 || n == 0x202F ||
    n == 0x205F || n == 0x3000

/-- Drops the longest suffix whose characters all satisfy `p`. -/
def dropEndWhile (p : Char → Bool) (s : List Char) : List Char :=
  (s.reverse.dropWhile p).reverse

def trimStart (s : List Char) : List Char := s.dropWhile isBlank

def trimEnd (s : List Char) : List Char := dropEndWhile isBlank s

def trim (s : List Char) : List Char := trimEnd (trimStart s)

/-- Nothing is left after trimming. -/
def isAllBlank (s : List Char) : Bool := s.all isBlank

/-- Core's ASCII blanks are blank here. -/
theorem isBlank_of_isWhitespace {c : Char} (h : c.isWhitespace = true) : isBlank c = true := by
  simp only [Char.isWhitespace, Bool.or_eq_true, decide_eq_true_eq] at h
  rcases h with ((rfl | rfl) | rfl) | rfl <;> rfl

theorem mem_of_mem_trim {c : Char} {s : List Char} (h : c ∈ trim s) : c ∈ s := by
  have h₁ : c ∈ trimStart s := by
    have := (List.dropWhile_sublist (l := (trimStart s).reverse) isBlank).subset (by
      simpa [trim, trimEnd, dropEndWhile] using h)
    simpa using this
  exact (List.dropWhile_sublist isBlank).subset h₁

end Matinee.Text
