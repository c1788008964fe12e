/-
# `Matinee.Text.Contains` — whether a text stands in another

A window as long as the text looked for slides over the other one.  A checksum
of what is in the window is kept up to date from character to character, and only
where it is the right one are the two texts compared.  So the work grows with the
sum of the two lengths, and the answer is that of the plain definition
(`contains_iff`): checksums that agree by chance cost a comparison and no more.
-/

namespace Matinee.Text

namespace Contains

def weight (c : Char) : UInt64 := c.val.toUInt64

def base : UInt64 := 1000003

/-- The checksum of a text behind one whose checksum is `sum`. -/
def extend (sum : UInt64) (s : List Char) : UInt64 := s.foldl (fun h c => h * base + weight c) sum

def checksum (s : List Char) : UInt64 := extend 0 s

/-- What a character counts that stands in front of a text of this length. -/
def frontFactor (s : List Char) : UInt64 := s.foldl (fun p _ => p * base) 1

/-- Looks for `sub`, of the given checksum and front factor, from a window on:
`sum` is the checksum of the window, which stands at the front of `s`, and `ahead`
is what follows it. -/
def slide (sub : List Char) (wanted factor sum : UInt64) (s : List Char) : List Char → Bool
  | [] => sum == wanted && sub.isPrefixOf s
  | d :: ahead =>
    if sum == wanted && sub.isPrefixOf s then true
    else match s with
      | c :: s' => slide sub wanted factor (sum * base + weight d - weight c * factor) s' ahead
      | [] => false

/-! ## The checksum of the next window -/

theorem foldl_mul_base (s : List Char) (p : UInt64) :
    s.foldl (fun p _ => p * base) p = p * frontFactor s := by
  induction s generalizing p with
  | nil => simp [frontFactor]
  | cons c r ih =>
    rw [frontFactor, List.foldl_cons, List.foldl_cons, ih, ih (1 * base)]
    grind

theorem frontFactor_cons (c : Char) (s : List Char) :
    frontFactor (c :: s) = base * frontFactor s := by
  rw [frontFactor, List.foldl_cons, foldl_mul_base]
  grind

theorem frontFactor_congr {s t : List Char} (h : s.length = t.length) :
    frontFactor s = frontFactor t := by
  induction s generalizing t with
  | nil => rw [List.length_eq_zero_iff.1 h.symm]
  | cons c r ih =>
    cases t with
    | nil => cases h
    | cons d u => rw [frontFactor_cons, frontFactor_cons, ih (Nat.succ.inj h)]

theorem extend_eq (sum : UInt64) (s : List Char) :
    extend sum s = sum * frontFactor s + checksum s := by
  induction s generalizing sum with
  | nil => simp [extend, checksum, frontFactor]
  | cons c r ih =>
    have h : ∀ sum, extend sum (c :: r) = extend (sum * base + weight c) r := fun _ => rfl
    rw [checksum, h, h, ih, ih (0 * base + weight c), frontFactor_cons]
    grind

/-- A character enters the window behind, and one leaves it in front. -/
theorem checksum_slide (c d : Char) (s : List Char) :
    checksum (s ++ [d]) =
      checksum (c :: s) * base + weight d - weight c * frontFactor (c :: s) := by
  have h₁ : checksum (s ++ [d]) = checksum s * base + weight d := by
    simp [checksum, extend, List.foldl_append]
  have h₂ : checksum (c :: s) = weight c * frontFactor s + checksum s := by
    rw [checksum, extend, List.foldl_cons, ← extend, extend_eq]
    grind
  rw [h₁, h₂, frontFactor_cons]
  grind

theorem eq_of_prefix_append {sub window ahead : List Char} (h : window.length = sub.length)
    (hp : sub <+: window ++ ahead) : sub = window := by
  obtain ⟨rest, hr⟩ := hp
  exact (List.append_inj hr h.symm).1

theorem meets_iff {sub window : List Char} (h : window.length = sub.length) (ahead : List Char) :
    (checksum window == checksum sub && sub.isPrefixOf (window ++ ahead)) = true ↔
      sub <+: window ++ ahead := by
  rw [Bool.and_eq_true, List.isPrefixOf_iff_prefix]
  refine ⟨And.right, fun hp => ⟨?_, hp⟩⟩
  rw [eq_of_prefix_append h hp]
  exact beq_self_eq_true _

theorem slide_iff {sub window : List Char} (h : window.length = sub.length) (ahead : List Char) :
    slide sub (checksum sub) (frontFactor sub) (checksum window) (window ++ ahead) ahead = true ↔
      sub <:+: window ++ ahead := by
  induction ahead generalizing window with
  | nil =>
    rw [slide, meets_iff h]
    refine ⟨List.IsPrefix.isInfix, fun hi => ?_⟩
    have he : sub = window ++ [] := hi.eq_of_length (by simp [h])
    exact ⟨[], by rw [List.append_nil, he]⟩
  | cons d ahead ih =>
    rw [slide.eq_def]
    by_cases hp : sub <+: window ++ d :: ahead
    · simp only [if_pos ((meets_iff h _).2 hp)]
      exact iff_of_true trivial hp.isInfix
    · simp only [if_neg fun hm => hp ((meets_iff h _).1 hm)]
      cases window with
      | nil =>
        have : sub = [] := List.length_eq_zero_iff.1 h.symm
        exact absurd (this ▸ List.nil_prefix) hp
      | cons c rest =>
        have hl : (rest ++ [d]).length = sub.length := by simpa using h
        have hf : frontFactor (c :: rest) = frontFactor sub := frontFactor_congr h
        have hs := ih hl
        rw [checksum_slide c d rest, hf, List.append_assoc, List.singleton_append] at hs
        rw [List.cons_append] at hp ⊢
        rw [List.infix_cons_iff, or_iff_right hp]
        exact hs

end Contains

/-- `sub` stands somewhere in `s`; the empty text stands in every text. -/
def contains (s sub : List Char) : Bool :=
  let window := s.take sub.length
  Contains.slide sub (Contains.checksum sub) (Contains.frontFactor sub)
    (Contains.checksum window) s (s.drop sub.length)

/-- The substring test is core's infix relation. -/
theorem contains_iff (s sub : List Char) : contains s sub = true ↔ sub <:+: s := by
  by_cases h : sub.length ≤ s.length
  · have hw : (s.take sub.length).length = sub.length := List.length_take_of_le h
    have hs := Contains.slide_iff hw (s.drop sub.length)
    rwa [List.take_append_drop] at hs
  · have hd : s.drop sub.length = [] := List.drop_eq_nil_of_le (by omega)
    have hi : ¬ sub <:+: s := fun hi => h hi.length_le
    simp only [contains, hd, Contains.slide, Bool.and_eq_true, List.isPrefixOf_iff_prefix]
    exact iff_of_false (fun hc => hi hc.2.isInfix) hi

example : contains "abcabd".toList "abd".toList = true ∧
    contains "abcab".toList "abd".toList = false ∧ contains [] [] = true := by decide +kernel

end Matinee.Text
