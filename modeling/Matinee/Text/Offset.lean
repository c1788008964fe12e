/-
# `Matinee.Text.Offset` — positions in a text, counted in octets

A position in a text is the number of octets of UTF-8 in front of it.  Not every number
is one: it may lie within a character, or behind the text.  So a cut can fail, and it
does unless the octets in front are those of a part of the text (`cutAt?_eq_some_iff`);
the core library calls such a position valid (`isSome_cutAt?_iff`).
-/
import Matinee.Text.Pieces
import Matinee.Text.Utf8

namespace Matinee.Text

/-- The number of octets of a text. -/
def octets (s : List Char) : Nat := (Utf8.encode s).length

/-- Goes on to cut behind `front`, whose characters are kept from the last to the first. -/
def cutBehind? (front : List Char) : List Char → Nat → Option (List Char × List Char)
  | s, 0 => some (front.reverse, s)
  | [], _ + 1 => none
  | c :: s, n + 1 =>
    if c.utf8Size ≤ n + 1 then cutBehind? (c :: front) s (n + 1 - c.utf8Size) else none

/-- What stands in front of the position `n` and what stands behind it. -/
def cutAt? (s : List Char) (n : Nat) : Option (List Char × List Char) := cutBehind? [] s n

/-- The position of the last `c`. -/
def lastOffsetOf (c : Char) (s : List Char) : Option Nat :=
  (lastIndexWhere (· == c) s).map fun i => octets (s.take i)

/-! ## Octets -/

@[simp] theorem octets_nil : octets [] = 0 := rfl

@[simp] theorem octets_cons (c : Char) (s : List Char) :
    octets (c :: s) = c.utf8Size + octets s := by
  simp [octets, Utf8.encode]

@[simp] theorem octets_append (s t : List Char) : octets (s ++ t) = octets s + octets t := by
  simp [octets, Utf8.encode]

theorem utf8ByteSize_ofList (s : List Char) : (String.ofList s).utf8ByteSize = octets s := by
  induction s with
  | nil => rfl
  | cons c s ih =>
    rw [String.ofList_cons, String.utf8ByteSize_append, String.utf8ByteSize_singleton, ih,
      octets_cons]

/-! ## Cuts -/

theorem cutBehind?_cons (front : List Char) (c : Char) (s : List Char) (n : Nat) :
    cutBehind? front (c :: s) (c.utf8Size + n) = cutBehind? (c :: front) s n := by
  obtain ⟨m, hm⟩ : ∃ m, c.utf8Size + n = m + 1 :=
    Nat.exists_eq_add_one.mpr (Nat.add_pos_left c.utf8Size_pos n)
  have hfits : c.utf8Size ≤ m + 1 := hm ▸ Nat.le_add_right c.utf8Size n
  rw [hm, cutBehind?, if_pos hfits, ← hm, Nat.add_sub_cancel_left]

theorem cutBehind?_append (front a b : List Char) :
    cutBehind? front (a ++ b) (octets a) = some (front.reverse ++ a, b) := by
  induction a generalizing front with
  | nil => simp [cutBehind?]
  | cons c a ih =>
    rw [List.cons_append, octets_cons, cutBehind?_cons, ih, List.reverse_cons, List.append_assoc]
    rfl

theorem exists_of_cutBehind? {front s a b : List Char} {n : Nat}
    (h : cutBehind? front s n = some (a, b)) :
    ∃ t, a = front.reverse ++ t ∧ s = t ++ b ∧ n = octets t := by
  fun_induction cutBehind? front s n with
  | case1 front s =>
    obtain ⟨rfl, rfl⟩ := Prod.mk.inj (Option.some.inj h)
    exact ⟨[], (List.append_nil _).symm, rfl, rfl⟩
  | case2 => cases h
  | case3 front c s n hfits ih =>
    obtain ⟨t, rfl, rfl, ht⟩ := ih h
    refine ⟨c :: t, by simp, rfl, ?_⟩
    rw [octets_cons, ← ht, Nat.add_sub_cancel' hfits]
  | case4 => cases h

/-- A text is cut into two parts at the position behind the first, and only there. -/
theorem cutAt?_eq_some_iff {s a b : List Char} {n : Nat} :
    cutAt? s n = some (a, b) ↔ s = a ++ b ∧ n = octets a := by
  constructor
  · intro h
    obtain ⟨t, rfl, hs, hn⟩ := exists_of_cutBehind? h
    exact ⟨hs, hn⟩
  · rintro ⟨rfl, rfl⟩
    exact cutBehind?_append [] a b

theorem cutAt?_octets (a b : List Char) : cutAt? (a ++ b) (octets a) = some (a, b) :=
  cutAt?_eq_some_iff.mpr ⟨rfl, rfl⟩

/-- The positions at which a text can be cut are the valid ones of the core library. -/
theorem isSome_cutAt?_iff {s : List Char} {n : Nat} :
    (cutAt? s n).isSome ↔ String.Pos.Raw.IsValid (String.ofList s) ⟨n⟩ := by
  rw [String.Pos.Raw.isValid_iff_exists_append, Option.isSome_iff_exists]
  constructor
  · rintro ⟨⟨a, b⟩, h⟩
    obtain ⟨rfl, rfl⟩ := cutAt?_eq_some_iff.mp h
    refine ⟨String.ofList a, String.ofList b, String.ofList_append, ?_⟩
    rw [String.rawEndPos, utf8ByteSize_ofList]
  · rintro ⟨a, b, hs, hn⟩
    refine ⟨(a.toList, b.toList), cutAt?_eq_some_iff.mpr ⟨?_, ?_⟩⟩
    · rw [← String.toList_append, ← hs, String.toList_ofList]
    · rw [← utf8ByteSize_ofList, String.ofList_toList]
      exact congrArg String.Pos.Raw.byteIdx hn

/-! ## The last character of its kind -/

theorem findIdx?_reverse_of_notMem {c : Char} {s : List Char} (h : c ∉ s) :
    s.reverse.findIdx? (· == c) = none := by
  refine List.findIdx?_eq_none_iff.mpr fun d hd => ?_
  exact beq_false_of_ne fun heq => h (heq ▸ List.mem_reverse.mp hd)

theorem lastOffsetOf_of_notMem {c : Char} {s : List Char} (h : c ∉ s) : lastOffsetOf c s = none := by
  rw [lastOffsetOf, lastIndexWhere, findIdx?_reverse_of_notMem h]
  rfl

theorem lastOffsetOf_append {c : Char} (a : List Char) {b : List Char} (h : c ∉ b) :
    lastOffsetOf c (a ++ c :: b) = some (octets a) := by
  have hindex : lastIndexWhere (· == c) (a ++ c :: b) = some a.length := by
    simp [lastIndexWhere, List.findIdx?_append, List.findIdx?_cons, findIdx?_reverse_of_notMem h]
  rw [lastOffsetOf, hindex, Option.map_some, List.take_left]

theorem exists_append_of_mem {c : Char} {s : List Char} (h : c ∈ s) :
    ∃ a b, s = a ++ c :: b ∧ c ∉ b := by
  obtain ⟨b, a, hs, hb⟩ := List.eq_append_cons_of_mem (List.mem_reverse.mpr h)
  refine ⟨a.reverse, b.reverse, ?_, fun hc => hb (List.mem_reverse.mp hc)⟩
  rw [← List.reverse_reverse s, hs]
  simp

end Matinee.Text
