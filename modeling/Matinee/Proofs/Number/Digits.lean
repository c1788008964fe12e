/-
# `Matinee.Proofs.Number.Digits` — the digits of a whole number read back

`Number.digits` writes a whole number without a zero in front, and the digits
have that number for their value.  Both go by the induction on the last digit
(`Nat.base_induction`), along which core states how the digits grow.  What a
reader makes of digits behind others it has read (`foldl_digits`) shifts the
value of those by as many places.
-/
import Matinee.Number.Whole

namespace Matinee.Number

theorem digitValue?_digitChar {d : Nat} (h : d < 10) : digitValue? d.digitChar = some d := by
  have hall : ∀ d < 10, digitValue? d.digitChar = some d := by decide
  exact hall d h

theorem digits_append {n d : Nat} (hn : 0 < n) (hd : d < 10) :
    digits (10 * n + d) = digits n ++ [d.digitChar] := by
  rw [digits, ← Nat.toDigits_append_toDigits (by decide) hn hd, Nat.toDigits_of_lt_base hd, digits]

theorem digits_of_lt {d : Nat} (hd : d < 10) : digits d = [d.digitChar] :=
  Nat.toDigits_of_lt_base hd

theorem digits_ne_nil (n : Nat) : digits n ≠ [] := Nat.toDigits_ne_nil

theorem isDigit_of_mem_digits {n : Nat} {c : Char} (h : c ∈ digits n) : isDigit c = true := by
  induction n using Nat.base_induction 10 (by decide) with
  | single d hd =>
      rw [digits_of_lt hd, List.mem_singleton] at h
      rw [h, isDigit, digitValue?_digitChar hd]
      rfl
  | digit n d hd hn ih =>
      rw [digits_append hn hd, List.mem_append, List.mem_singleton] at h
      rcases h with h | rfl
      · exact ih h
      · rw [isDigit, digitValue?_digitChar hd]
        rfl

/-- No zero stands in front of another digit, and only the zero begins with one. -/
theorem head?_digits {n : Nat} (hn : 0 < n) : (digits n).head? ≠ some '0' := by
  induction n using Nat.base_induction 10 (by decide) with
  | single d hd =>
      rw [digits_of_lt hd, List.head?_cons, ne_eq, Option.some_inj, Nat.digitChar_eq_zero]
      omega
  | digit n d hd hn' ih =>
      obtain ⟨c, cs, hcs⟩ := List.exists_cons_of_ne_nil (digits_ne_nil n)
      have hhead := ih hn'
      rw [hcs] at hhead
      rw [digits_append hn' hd, hcs]
      exact hhead

theorem getD_digitValue?_lt (c : Char) : (digitValue? c).getD 0 < 10 := by
  unfold digitValue?
  split
  · rename_i h
    have hle : c.toNat ≤ '9'.toNat := h.2
    rw [Option.getD_some]
    change c.toNat - 48 < 10
    change c.toNat ≤ 57 at hle
    omega
  · exact Nat.zero_lt_succ 9

theorem foldl_digits (n : Nat) (s : List Char) :
    s.foldl (fun n c => n * 10 + (digitValue? c).getD 0) n = n * 10 ^ s.length + ofDigits s := by
  induction s generalizing n with
  | nil => simp [ofDigits]
  | cons c s ih =>
      rw [ofDigits, List.foldl_cons, List.foldl_cons, ih, ih, List.length_cons, Nat.pow_succ',
        Nat.zero_mul, Nat.zero_add, Nat.add_mul, Nat.mul_assoc, Nat.add_assoc]

theorem ofDigits_append (s t : List Char) :
    ofDigits (s ++ t) = ofDigits s * 10 ^ t.length + ofDigits t := by
  rw [ofDigits, List.foldl_append, foldl_digits]
  rfl

theorem ofDigits_cons (c : Char) (s : List Char) :
    ofDigits (c :: s) = (digitValue? c).getD 0 * 10 ^ s.length + ofDigits s := by
  have hone : ofDigits [c] = (digitValue? c).getD 0 := Nat.zero_add _
  rw [← hone, ← ofDigits_append, List.singleton_append]

theorem ofDigits_lt (s : List Char) : ofDigits s < 10 ^ s.length := by
  induction s with
  | nil => exact Nat.one_pos
  | cons c s ih =>
      have hle : (digitValue? c).getD 0 * 10 ^ s.length ≤ 9 * 10 ^ s.length :=
        Nat.mul_le_mul_right _ (Nat.le_of_lt_succ (getD_digitValue?_lt c))
      rw [ofDigits_cons, List.length_cons, Nat.pow_succ]
      omega

theorem ofDigits_zeros (k : Nat) : ofDigits (List.replicate k '0') = 0 := by
  induction k with
  | zero => rfl
  | succ k ih =>
      have hzero : (digitValue? '0').getD 0 = 0 := rfl
      rw [List.replicate_succ, ofDigits_cons, ih, hzero, Nat.zero_mul]

theorem ofDigits_digits (n : Nat) : ofDigits (digits n) = n := by
  induction n using Nat.base_induction 10 (by decide) with
  | single d hd => simp [digits_of_lt hd, ofDigits, digitValue?_digitChar hd]
  | digit n d hd hn ih =>
      have hlast : ofDigits [d.digitChar] = d := by simp [ofDigits, digitValue?_digitChar hd]
      rw [digits_append hn hd, ofDigits_append, ih, hlast, List.length_singleton, Nat.pow_one,
        Nat.mul_comm]

theorem pow_length_le {n : Nat} (hn : 0 < n) : 10 ^ (digits n).length ≤ 10 * n := by
  induction n using Nat.base_induction 10 (by decide) with
  | single d hd =>
      rw [digits_of_lt hd, List.length_singleton]
      omega
  | digit n d hd hn' ih =>
      have ih' := ih hn'
      rw [digits_append hn' hd, List.length_append, List.length_singleton, Nat.pow_succ]
      omega

/-! ## Digits of fixed width -/

theorem length_paddedDigits {width n : Nat} (hwidth : 0 < width) (h : n < 10 ^ width) :
    (paddedDigits width n).length = width := by
  have hle : (digits n).length ≤ width := by
    rcases Nat.eq_zero_or_pos n with rfl | hn
    · exact hwidth
    · have hpow : 10 ^ (digits n).length < 10 ^ (width + 1) := by
        have hlength := pow_length_le hn
        rw [Nat.pow_succ]
        omega
      exact Nat.le_of_lt_succ ((Nat.pow_lt_pow_iff_right (by decide)).mp hpow)
  rw [paddedDigits, List.length_append, List.length_replicate, Nat.sub_add_cancel hle]

theorem isDigit_of_mem_paddedDigits {width n : Nat} {c : Char} (h : c ∈ paddedDigits width n) :
    isDigit c = true := by
  rcases List.mem_append.mp h with h | h
  · rw [List.eq_of_mem_replicate h]
    rfl
  · exact isDigit_of_mem_digits h

theorem ofDigits_paddedDigits (width n : Nat) : ofDigits (paddedDigits width n) = n := by
  rw [paddedDigits, ofDigits_append, ofDigits_zeros, ofDigits_digits, Nat.zero_mul, Nat.zero_add]

/-! ## Reading -/

theorem eq_of_readDigits {max n m : Nat} {s : List Char} (h : readDigits max n s = .ok m) :
    m = n * 10 ^ s.length + ofDigits s := by
  rw [← foldl_digits]
  induction s generalizing n with
  | nil =>
      injection h with h
      exact h.symm
  | cons c s ih =>
      simp only [readDigits] at h
      split at h
      · cases h
      · rename_i d hd
        split at h
        · rw [List.foldl_cons, hd]
          exact ih h
        · cases h

theorem readDigits_of_le {max n : Nat} {s : List Char} (hs : ∀ c ∈ s, isDigit c = true)
    (h : n * 10 ^ s.length + ofDigits s ≤ max) :
    readDigits max n s = .ok (n * 10 ^ s.length + ofDigits s) := by
  rw [← foldl_digits] at h ⊢
  induction s generalizing n with
  | nil => rfl
  | cons c s ih =>
      obtain ⟨hc, hs⟩ := List.forall_mem_cons.mp hs
      obtain ⟨d, hd⟩ := Option.isSome_iff_exists.mp hc
      rw [List.foldl_cons, hd, Option.getD_some] at h ⊢
      have hfirst : n * 10 + d ≤ max := by
        rw [foldl_digits] at h
        have hle := Nat.le_mul_of_pos_right (n * 10 + d) (Nat.pow_pos (n := s.length)
          (by decide : 0 < 10))
        omega
      simp only [readDigits, hd, if_pos hfirst]
      exact ih hs h

end Matinee.Number
