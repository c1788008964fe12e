/-
# `Matinee.Proofs.Number.Shortest` — the shortest decimal is no further off than half a unit

The search goes over ever finer grids and takes the first with a hit in the basin.
A grid finer than half a unit always has one, just above the value, and the
eighteenth is that fine; so there is a hit, and its decimal lies in the basin.
-/
import Mathlib
import Matinee.Number.Shortest

namespace Matinee.Number

/-- The number that a decimal stands for. -/
def Decimal.size (x : Decimal) : ℚ := x.d * 10 ^ x.e

/-! ## Quotients -/

theorem ratio_den_pos (m : Nat) (q : Int) : 0 < (ratio m q).2 := by
  cases q with
  | ofNat k => exact Nat.one_pos
  | negSucc k => exact Nat.two_pow_pos (k + 1)

theorem ratio_eq (m : Nat) (q : Int) : ((ratio m q).1 : ℚ) = m * 2 ^ q * (ratio m q).2 := by
  cases q with
  | ofNat k =>
      simp [ratio]
  | negSucc k =>
      rw [ratio, zpow_negSucc]
      push_cast
      field_simp

theorem ratio_den_eq (m n : Nat) (q : Int) : (ratio m q).2 = (ratio n q).2 := by
  cases q <;> rfl

theorem tenPower_den_pos (e : Int) : 0 < (tenPower e).2 := by
  cases e with
  | ofNat k => exact Nat.one_pos
  | negSucc k => exact Nat.pow_pos (by decide)

theorem tenPower_num_pos (e : Int) : 0 < (tenPower e).1 := by
  cases e with
  | ofNat k => exact Nat.pow_pos (by decide)
  | negSucc k => exact Nat.one_pos

theorem tenPower_eq (e : Int) : ((tenPower e).1 : ℚ) = 10 ^ e * (tenPower e).2 := by
  cases e with
  | ofNat k => simp [tenPower]
  | negSucc k =>
      rw [tenPower, zpow_negSucc]
      push_cast
      field_simp

/-! ## Grids -/

namespace Basin

variable {b : Basin} {e : Int}

theorem holds_le {num den : Nat} (h : b.holds num den = true) : num * b.den ≤ b.high * den := by
  unfold holds at h
  split at h
  · rw [Bool.and_eq_true, decide_eq_true_eq, decide_eq_true_eq] at h
    exact h.2
  · rw [Bool.and_eq_true, decide_eq_true_eq, decide_eq_true_eq] at h
    exact Nat.le_of_lt h.2

theorem holds_of_lt {num den : Nat} (hlow : b.low ≤ b.value) (h : b.value * den < num * b.den)
    (h' : num * b.den < b.high * den) : b.holds num den = true := by
  have hlt : b.low * den < num * b.den := Nat.lt_of_le_of_lt (Nat.mul_le_mul_right den hlow) h
  unfold holds
  split
  · simp [hlt.le, h'.le]
  · simp [hlt, h']

theorem le_high_of_onGrid {k : Nat} (h : b.onGrid e = some k) :
    0 < k ∧ (⟨k, e⟩ : Decimal).size * b.den ≤ b.high := by
  have hhit : 0 < k ∧ b.holds (k * (tenPower e).1) (tenPower e).2 = true := by
    unfold onGrid at h
    dsimp only at h
    generalize b.value * (tenPower e).2 / (b.den * (tenPower e).1) = down at h
    split at h
    · rename_i hboth
      simp only [Bool.and_eq_true, bne_iff_ne] at hboth
      obtain ⟨⟨hne, hdown⟩, hup⟩ := hboth
      have hpos := Nat.pos_of_ne_zero hne
      split at h
      · injection h with h
        exact h ▸ ⟨hpos, hdown⟩
      split at h
      · injection h with h
        exact h ▸ ⟨Nat.succ_pos _, hup⟩
      · injection h with h
        split at h
        · exact h ▸ ⟨hpos, hdown⟩
        · exact h ▸ ⟨Nat.succ_pos _, hup⟩
    split at h
    · rename_i hdown
      simp only [Bool.and_eq_true, bne_iff_ne] at hdown
      injection h with h
      exact h ▸ ⟨Nat.pos_of_ne_zero hdown.1, hdown.2⟩
    split at h
    · rename_i hup
      injection h with h
      exact h ▸ ⟨Nat.succ_pos _, hup⟩
    · cases h
  refine ⟨hhit.1, ?_⟩
  have hden : (0 : ℚ) < (tenPower e).2 := by exact_mod_cast tenPower_den_pos e
  have hle : (k : ℚ) * (tenPower e).1 * b.den ≤ b.high * (tenPower e).2 := by
    exact_mod_cast holds_le hhit.2
  rw [tenPower_eq] at hle
  rw [Decimal.size]
  refine le_of_mul_le_mul_right (le_of_eq_of_le ?_ hle) hden
  ring

/-- A grid that is finer than the upper half of the basin has a hit. -/
theorem exists_onGrid (hden : 0 < b.den) (hlow : b.low ≤ b.value)
    (h : (b.value : ℚ) + 10 ^ e * b.den < b.high) : ∃ k, b.onGrid e = some k := by
  have hcell : 0 < b.den * (tenPower e).1 := Nat.mul_pos hden (tenPower_num_pos e)
  have hup : b.holds ((b.value * (tenPower e).2 / (b.den * (tenPower e).1) + 1) *
      (tenPower e).1) (tenPower e).2 = true := by
    have hfloor := Nat.div_mul_le_self (b.value * (tenPower e).2) (b.den * (tenPower e).1)
    have hceil := Nat.lt_div_mul_add (a := b.value * (tenPower e).2) hcell
    generalize b.value * (tenPower e).2 / (b.den * (tenPower e).1) = down at hfloor hceil
    have hplace : (down + 1) * (tenPower e).1 * b.den =
        down * (b.den * (tenPower e).1) + b.den * (tenPower e).1 := by ring
    refine holds_of_lt hlow (by omega) ?_
    have hroom : b.value * (tenPower e).2 + b.den * (tenPower e).1 < b.high * (tenPower e).2 := by
      have hpos : (0 : ℚ) < (tenPower e).2 := by exact_mod_cast tenPower_den_pos e
      have hcast := mul_lt_mul_of_pos_right h hpos
      rw [add_mul, mul_right_comm, ← tenPower_eq] at hcast
      rw [Nat.mul_comm b.den]
      exact_mod_cast hcast
    omega
  unfold onGrid
  dsimp only
  rw [hup, Bool.and_true]
  split
  · split
    · exact ⟨_, rfl⟩
    split
    · exact ⟨_, rfl⟩
    · exact ⟨_, rfl⟩
  · exact ⟨_, by rw [if_pos rfl]⟩

theorem exists_search {count : Nat} (h : ∃ j ≤ count, ∃ k, b.onGrid (e - j) = some k) :
    ∃ e' k, b.onGrid e' = some k ∧ b.search e count = ⟨k, e'⟩ := by
  induction count generalizing e with
  | zero =>
      obtain ⟨j, hj, k, hk⟩ := h
      obtain rfl : j = 0 := by omega
      rw [Int.ofNat_zero, Int.sub_zero] at hk
      exact ⟨e, k, hk, by rw [search, hk]; rfl⟩
  | succ count ih =>
      rw [search]
      cases hhit : b.onGrid e with
      | some k => exact ⟨e, k, hhit, rfl⟩
      | none =>
          refine ih ?_
          obtain ⟨j, hj, k, hk⟩ := h
          cases j with
          | zero =>
              rw [Int.ofNat_zero, Int.sub_zero, hhit] at hk
              cases hk
          | succ j =>
              refine ⟨j, by omega, k, ?_⟩
              rw [← hk]
              congr 1
              omega

end Basin

theorem Decimal.size_go (fuel : Nat) (x : Decimal) : (Decimal.normal.go fuel x).size = x.size := by
  induction fuel generalizing x with
  | zero => rfl
  | succ fuel ih =>
      rw [Decimal.normal.go]
      split
      · rename_i hten
        simp only [Bool.and_eq_true, beq_iff_eq] at hten
        obtain ⟨d, hd⟩ := Nat.dvd_of_mod_eq_zero hten.2
        rw [ih, Decimal.size, Decimal.size, hd, Nat.mul_div_cancel_left _ (by decide),
          zpow_add_one₀ (by norm_num)]
        push_cast
        ring
      · rfl

theorem Decimal.size_normal (x : Decimal) : x.normal.size = x.size := Decimal.size_go 400 x

theorem Decimal.size_pos_iff (x : Decimal) : 0 < x.size ↔ 0 < x.d := by
  rw [Decimal.size, mul_pos_iff_of_pos_right (by positivity)]
  exact Nat.cast_pos

/-! ## The first digit -/

/-- `log₁₀ 2` by `30103 / 100000`, as far as doubles go. -/
theorem tenPower_estimate {k : Nat} (h : k < 1100) :
    10 ^ (k * 30103 / 100000) * 2 ≤ 2 ^ k * 100 ∧
      2 ^ (k + 1) ≤ 10 ^ ((k * 30103 + 99999) / 100000 + 2) := by
  have hall : ∀ k < 1100, 10 ^ (k * 30103 / 100000) * 2 ≤ 2 ^ k * 100 ∧
      2 ^ (k + 1) ≤ 10 ^ ((k * 30103 + 99999) / 100000 + 2) := by
    decide +kernel
  exact hall k h

theorem zpow_estimate_le {t : Int} (hlow : -1100 < t) (hhigh : t < 1100) :
    (10 : ℚ) ^ (t * 30103 / 100000 - 2) ≤ 2 ^ (t - 1) := by
  rcases Int.le_total 0 t with ht | ht
  · obtain ⟨k, rfl⟩ := Int.eq_ofNat_of_zero_le ht
    have hle := (tenPower_estimate (k := k) (by omega)).1
    have hexponent : (k : Int) * 30103 / 100000 - 2 = (k * 30103 / 100000 : Nat) - 2 := by omega
    rw [hexponent, zpow_sub₀ (by norm_num), zpow_sub₀ two_ne_zero, zpow_natCast, zpow_natCast,
      zpow_ofNat, zpow_one, div_le_div_iff₀ (by norm_num) two_pos]
    refine le_of_le_of_eq (b := ((2 ^ k * 100 : Nat) : ℚ)) ?_ (by push_cast; ring)
    exact_mod_cast hle
  · obtain ⟨k, hk⟩ := Int.eq_ofNat_of_zero_le (Int.neg_nonneg.mpr ht)
    have hle := (tenPower_estimate (k := k) (by omega)).2
    have hten : t * 30103 / 100000 - 2 = -(((k * 30103 + 99999) / 100000 + 2 : Nat) : Int) := by
      omega
    have htwo : t - 1 = -((k + 1 : Nat) : Int) := by omega
    rw [hten, htwo, zpow_neg, zpow_neg, zpow_natCast, zpow_natCast]
    refine inv_anti₀ (by positivity) ?_
    exact_mod_cast hle

theorem le_of_reaches {num den : Nat} {e : Int}
    (h : (tenPower e).1 * den ≤ num * (tenPower e).2) : (10 : ℚ) ^ e * den ≤ num := by
  have hpos : (0 : ℚ) < (tenPower e).2 := by exact_mod_cast tenPower_den_pos e
  have hcast : ((tenPower e).1 : ℚ) * den ≤ num * (tenPower e).2 := by exact_mod_cast h
  rw [tenPower_eq, mul_right_comm] at hcast
  exact le_of_mul_le_mul_right hcast hpos

theorem leadingExponent_le {num den : Nat} (hnum : 0 < num) (hden : 0 < den)
    (hlow : (-1100 : Int) < num.log2 - den.log2) (hhigh : (num.log2 - den.log2 : Int) < 1100) :
    (10 : ℚ) ^ leadingExponent num den * den ≤ num := by
  unfold leadingExponent
  dsimp only
  split
  · rename_i h
    exact le_of_reaches (of_decide_eq_true h)
  split
  · rename_i h
    exact le_of_reaches (of_decide_eq_true h)
  split
  · rename_i h
    exact le_of_reaches (of_decide_eq_true h)
  · have hfirst : ((2 : ℚ) ^ num.log2) ≤ num := by
      exact_mod_cast Nat.log2_self_le (Nat.ne_of_gt hnum)
    have hnext : (den : ℚ) ≤ 2 ^ (den.log2 + 1) := by
      exact_mod_cast (Nat.lt_log2_self (n := den)).le
    have hexponent : (num.log2 - den.log2 - 1 : Int) + (den.log2 + 1 : Nat) = num.log2 := by
      omega
    calc (10 : ℚ) ^ ((num.log2 - den.log2 : Int) * 30103 / 100000 - 2) * den
        ≤ 2 ^ (num.log2 - den.log2 - 1 : Int) * 2 ^ (den.log2 + 1) :=
          mul_le_mul (zpow_estimate_le hlow hhigh) hnext (by positivity) (by positivity)
      _ = 2 ^ num.log2 := by
          rw [← zpow_natCast, ← zpow_natCast, ← zpow_add₀ two_ne_zero, hexponent]
      _ ≤ num := hfirst

/-! ## Doubles -/

/-- A quotient with the size of a double has about as many more bits above. -/
theorem log2_sub_log2 {num den : Nat} (hnum : 0 < num) (hden : 0 < den) {a b : Int}
    (hlow : (2 : ℚ) ^ a * den ≤ num) (hhigh : (num : ℚ) < 2 ^ b * den) :
    a - 1 < num.log2 - den.log2 ∧ (num.log2 - den.log2 : Int) < b + 1 := by
  have hnum' : ((2 : ℚ) ^ num.log2) ≤ num := by
    exact_mod_cast Nat.log2_self_le (Nat.ne_of_gt hnum)
  have hden' : ((2 : ℚ) ^ den.log2) ≤ den := by
    exact_mod_cast Nat.log2_self_le (Nat.ne_of_gt hden)
  have hnum'' : (num : ℚ) < 2 ^ (num.log2 + 1) := by exact_mod_cast Nat.lt_log2_self (n := num)
  have hden'' : (den : ℚ) < 2 ^ (den.log2 + 1) := by exact_mod_cast Nat.lt_log2_self (n := den)
  rw [← zpow_natCast] at hnum' hden' hnum'' hden''
  constructor
  · have hlt : (2 : ℚ) ^ (a + den.log2) < 2 ^ ((num.log2 + 1 : Nat) : Int) := by
      rw [zpow_add₀ two_ne_zero]
      exact ((mul_le_mul_of_nonneg_left hden' (by positivity)).trans hlow).trans_lt hnum''
    have hexponent := (zpow_lt_zpow_iff_right₀ one_lt_two).mp hlt
    omega
  · have hlt : (2 : ℚ) ^ (num.log2 : Int) < 2 ^ (b + (den.log2 + 1 : Nat)) := by
      rw [zpow_add₀ two_ne_zero]
      exact (hnum'.trans_lt hhigh).trans (mul_lt_mul_of_pos_left hden'' (by positivity))
    have hexponent := (zpow_lt_zpow_iff_right₀ one_lt_two).mp hlt
    omega

theorem range_of_meaning {x : Float} {b : Binary} (h : meaning x = .finite b) :
    b.m < 2 ^ 53 ∧ -1074 ≤ b.q ∧ b.q ≤ 971 := by
  have hexponent : x.toBits.toNat / 2 ^ 52 % 2 ^ 11 < 2 ^ 11 := Nat.mod_lt _ (Nat.two_pow_pos 11)
  have hfraction : x.toBits.toNat % 2 ^ 52 < 2 ^ 52 := Nat.mod_lt _ (Nat.two_pow_pos 52)
  simp only [meaning] at h
  split at h
  · split at h <;> cases h
  · rename_i htop
    have hne : x.toBits.toNat / 2 ^ 52 % 2 ^ 11 ≠ 2047 := fun heq => htop (beq_iff_eq.mpr heq)
    split at h
    · injection h with h
      rw [← h]
      dsimp only
      omega
    · rename_i hbottom
      have hne' : x.toBits.toNat / 2 ^ 52 % 2 ^ 11 ≠ 0 := fun heq => hbottom (beq_iff_eq.mpr heq)
      injection h with h
      rw [← h]
      dsimp only
      omega

theorem basin_eq (m : Nat) (q : Int) :
    0 < (basin m q).den ∧ (basin m q).low ≤ (basin m q).value ∧
      ((basin m q).value : ℚ) = m * 2 ^ q * (basin m q).den ∧
      ((basin m q).high : ℚ) = (m + 1 / 2) * 2 ^ q * (basin m q).den := by
  have hquarter : (2 : ℚ) ^ (q - 2) * 4 = 2 ^ q := by
    rw [zpow_sub₀ two_ne_zero, zpow_ofNat]
    norm_num
  have hvalue : ((ratio (4 * m) (q - 2)).1 : ℚ) = m * 2 ^ q * (ratio (4 * m) (q - 2)).2 := by
    rw [ratio_eq, ← hquarter]
    push_cast
    ring
  have hunit : ((ratio 1 (q - 2)).1 : ℚ) = 2 ^ (q - 2) * (ratio (4 * m) (q - 2)).2 := by
    rw [ratio_eq, ratio_den_eq 1 (4 * m), Nat.cast_one, one_mul]
  refine ⟨ratio_den_pos _ _, Nat.sub_le _ _, hvalue, ?_⟩
  rw [basin]
  push_cast
  rw [hvalue, hunit, ← hquarter]
  ring

/-- The shortest decimal is not zero, and half a unit above the double at most. -/
theorem shortest_le {m : Nat} {q : Int} (hm : 0 < m) (hm' : m < 2 ^ 53) (hq : -1074 ≤ q)
    (hq' : q ≤ 971) :
    0 < (shortest m q).d ∧ (shortest m q).size ≤ (m + 1 / 2) * 2 ^ q := by
  obtain ⟨hden, hlow, hvalue, hhigh⟩ := basin_eq m q
  rw [shortest]
  generalize basin m q = b at hden hlow hvalue hhigh
  have hden' : (0 : ℚ) < b.den := by exact_mod_cast hden
  have hsize : (1 : ℚ) ≤ m := by exact_mod_cast hm
  have hsize' : (m : ℚ) < 2 ^ 53 := by exact_mod_cast hm'
  have hpos : 0 < b.value := by
    have hcast : (0 : ℚ) < b.value := by
      rw [hvalue]
      positivity
    exact_mod_cast hcast
  have hbits : (-1100 : Int) < b.value.log2 - b.den.log2 ∧
      (b.value.log2 - b.den.log2 : Int) < 1100 := by
    have hlog := log2_sub_log2 hpos hden (a := q) (b := q + 53) ?_ ?_
    · omega
    · rw [hvalue]
      refine mul_le_mul_of_nonneg_right ?_ hden'.le
      exact le_mul_of_one_le_left (by positivity) hsize
    · rw [hvalue, zpow_add₀ two_ne_zero, mul_comm ((2 : ℚ) ^ q)]
      refine mul_lt_mul_of_pos_right (mul_lt_mul_of_pos_right ?_ (by positivity)) hden'
      exact_mod_cast hm'
  have hfirst := leadingExponent_le hpos hden hbits.1 hbits.2
  generalize leadingExponent b.value b.den = first at hfirst
  have hhit : ∃ k, b.onGrid (first - 18) = some k := by
    refine Basin.exists_onGrid hden hlow ?_
    have hfine : (10 : ℚ) ^ (first - 18) < 1 / 2 * 2 ^ q := by
      have hvalue' : (10 : ℚ) ^ first ≤ m * 2 ^ q :=
        le_of_mul_le_mul_right (hvalue ▸ hfirst) hden'
      rw [zpow_sub₀ (by norm_num), zpow_ofNat, div_lt_iff₀ (by norm_num)]
      calc (10 : ℚ) ^ first ≤ m * 2 ^ q := hvalue'
        _ < 2 ^ 53 * 2 ^ q := mul_lt_mul_of_pos_right hsize' (by positivity)
        _ ≤ 1 / 2 * 10 ^ 18 * 2 ^ q := mul_le_mul_of_nonneg_right (by norm_num) (by positivity)
        _ = 1 / 2 * 2 ^ q * 10 ^ 18 := by ring
    rw [hvalue, hhigh, ← add_mul, add_mul (m : ℚ)]
    exact mul_lt_mul_of_pos_right (add_lt_add_right hfine _) hden'
  obtain ⟨e, k, hk, hsearch⟩ := Basin.exists_search (e := first) ⟨18, Nat.le_refl 18, hhit⟩
  obtain ⟨hk', hle⟩ := Basin.le_high_of_onGrid hk
  rw [hsearch]
  constructor
  · rw [← Decimal.size_pos_iff, Decimal.size_normal, Decimal.size_pos_iff]
    exact hk'
  · rw [Decimal.size_normal]
    exact le_of_mul_le_mul_right (hhigh ▸ hle) hden'

end Matinee.Number
