/-
# `Matinee.Proofs.Number.Rounding` — how far up rounding moves a number

`Below` follows the place of the first binary digit, which is too coarse near the
largest double.  `AtMost b` bounds the size of a number itself: rounding moves it
up by half a unit of its last digit at most, so a product of two doubles stays
finite while the exact product is less than half a unit above the largest double.
The other way it takes no number below one that was not: the powers of ten that
divide a decimal are all `FromOne`.
-/
import Mathlib
import Matinee.Proofs.Number.Finite

namespace Matinee.Number

open Float.Model
open Float.Model.UnpackedFloat

/-- A double of size `b` at most. -/
inductive AtMost (b : ℚ) : UnpackedFloat → Prop where
  | zero (s : Sign) : AtMost b (.zero s)
  | finite {s : Sign} {m : Nat} {e : Int} {hm : 0 < m} (hlow : -1074 ≤ e) (hhigh : e ≤ 971)
      (h : (m : ℚ) * 2 ^ e ≤ b) : AtMost b (.finite s m e hm)

theorem AtMost.mono {b b' : ℚ} (h : b ≤ b') {u : UnpackedFloat} (hu : AtMost b u) :
    AtMost b' u := by
  cases hu with
  | zero s => exact .zero s
  | finite hlow hhigh hu => exact .finite hlow hhigh (hu.trans h)

theorem AtMost.isFinite {b : ℚ} {u : UnpackedFloat} (h : AtMost b u) : u.isFinite = true := by
  cases h <;> rfl

theorem toNat_one_append (v : BitVec 52) : (1#1 ++ v).toNat = 2 ^ 52 + v.toNat := by
  rw [BitVec.toNat_append, ← Nat.shiftLeft_add_eq_or_of_lt v.isLt]
  rfl

theorem atMost_unpack {bits : BitVec Format.binary64.numBits} {b : ℚ}
    (htop : unpackExponent bits ≠ -BitVec.ofNat Format.binary64.exponentBits 1)
    (hzero : (unpackExponent bits).toNat = 0 →
      ((unpackMantissa bits).toNat : ℚ) * 2 ^ (-1074 : Int) ≤ b)
    (hpos : 0 < (unpackExponent bits).toNat →
      ((2 ^ 52 + (unpackMantissa bits).toNat : Nat) : ℚ) *
        2 ^ ((unpackExponent bits).toNat - 1075 : Int) ≤ b) :
    AtMost b (UnpackedFloat.unpack Format.binary64 bits) := by
  have hlt := (unpackExponent bits).isLt
  have hne : (unpackExponent bits).toNat ≠ 2047 := fun hall =>
    htop (BitVec.eq_of_toNat_eq hall)
  simp only [UnpackedFloat.unpack, htop, if_false]
  split
  · rename_i hbottom
    rw [hbottom] at hzero
    split
    · exact .zero _
    · have hexponent : ((unpackExponent bits).toNat : Int) - (Format.binary64.exponentBias +
          Format.binary64.mantissaBitsWithoutImplicit) + 1 = -1074 := by
        rw [hbottom]
        rfl
      rw [hexponent]
      exact .finite (by decide) (by decide) (hzero rfl)
  · rename_i hbottom
    have hexponent : ((unpackExponent bits).toNat : Int) - (Format.binary64.exponentBias +
        Format.binary64.mantissaBitsWithoutImplicit) = (unpackExponent bits).toNat - 1075 := by
      rfl
    have hpos' : 0 < (unpackExponent bits).toNat :=
      Nat.pos_of_ne_zero fun h => hbottom (BitVec.eq_of_toNat_eq h)
    simp only [hexponent, toNat_one_append]
    refine .finite (by omega) ?_ (hpos hpos')
    change _ < 2048 at hlt
    omega

/-- Packing drops no digit but those that a number without a full mantissa has above it. -/
theorem AtMost.pack {b : ℚ} {u : UnpackedFloat} (h : AtMost b u) :
    AtMost b (Float.Model.pack u).unpack := by
  cases h with
  | zero s =>
      have hzero : (Float.Model.pack (.zero s)).unpack = .zero s := by cases s <;> rfl
      rw [hzero]
      exact .zero s
  | @finite s m e hm hlow hhigh h =>
      change AtMost b (UnpackedFloat.unpack Format.binary64
        (UnpackedFloat.pack Format.binary64 _))
      rcases pack_cases s hm hhigh with ⟨hfull, level, hlevel, htop, hpack⟩ | ⟨-, hpack⟩
      · rw [hpack]
        refine atMost_unpack ?_ (fun hzero => ?_) fun _ => ?_
        · rwa [unpackExponent_packComponents]
        · rw [unpackExponent_packComponents, hlevel] at hzero
          omega
        · have hexponent : ((e + 1075).toNat : Int) - 1075 = e := by omega
          obtain ⟨hle, hlt⟩ := (Nat.log2_eq_iff (Nat.ne_of_gt hm)).mp hfull
          have hmantissa : 2 ^ 52 + (BitVec.ofNat 52 m).toNat = m := by
            rw [BitVec.toNat_ofNat]
            omega
          rw [unpackExponent_packComponents, unpackMantissa_packComponents, hlevel, hexponent,
            hmantissa]
          exact h
      · rw [hpack]
        refine atMost_unpack ?_ (fun _ => ?_) fun hpos => ?_
        · rw [unpackExponent_packComponents]
          decide
        · rw [unpackMantissa_packComponents, BitVec.toNat_ofNat]
          have hmod : ((m % 2 ^ Format.binary64.mantissaBitsWithoutImplicit : Nat) : ℚ) ≤ m := by
            exact_mod_cast Nat.mod_le _ _
          have hpow : (2 : ℚ) ^ (-1074 : Int) ≤ 2 ^ e :=
            zpow_le_zpow_right₀ one_le_two hlow
          exact (mul_le_mul hmod hpow (by positivity) (by positivity)).trans h
        · rw [unpackExponent_packComponents] at hpos
          exact absurd hpos (by decide)

/-! ## Rounding -/

/-- The exponent of a number of 53 digits, or of the least double. -/
def lastPlace (m : Nat) (e : Int) : Int := max (totalExponent m e - 53) (-1074)

theorem targetExponent_eq (m : Nat) (e : Int) :
    Format.binary64.targetExponent (totalExponent m e) = lastPlace m e := rfl

theorem shift_eq (m : Nat) (e : Int) (a : Accuracy) :
    shiftToTargetExponent Format.binary64 m e a =
      (ExtendedMantissa.ofMantissaAndAccuracy m a >>> (lastPlace m e - e).toNat,
        e + (lastPlace m e - e).toNat) := rfl

theorem roundedMantissa_shiftRightOne_le (em : ExtendedMantissa) :
    2 * em.shiftRightOne.roundedMantissa ≤ em.mantissa + 1 := by
  have hle : em.shiftRightOne.roundedMantissa ≤ em.mantissa / 2 + (em.mantissa % 2 != 0).toNat :=
    roundedMantissa_le_roundBit em.shiftRightOne
  rcases Nat.mod_two_eq_zero_or_one em.mantissa with h | h <;> rw [h] at hle
  · change _ ≤ _ + 0 at hle
    omega
  · change _ ≤ _ + 1 at hle
    omega

/-- What is shifted out counts for half a unit at most. -/
theorem roundedMantissa_shift_le (m k : Nat) :
    2 * ((ExtendedMantissa.ofMantissaAndAccuracy m .exact >>> (k + 1)).roundedMantissa *
      2 ^ (k + 1)) ≤ 2 * m + 2 ^ (k + 1) := by
  generalize hem : ExtendedMantissa.ofMantissaAndAccuracy m .exact = em
  have hmantissa : (em >>> k).mantissa = m / 2 ^ k := by
    rw [mantissa_shiftRight, ← hem, mantissa_ofMantissaAndAccuracy]
  have hone : 2 * (em >>> (k + 1)).roundedMantissa ≤ m / 2 ^ k + 1 :=
    hmantissa ▸ roundedMantissa_shiftRightOne_le (em >>> k)
  calc 2 * ((em >>> (k + 1)).roundedMantissa * 2 ^ (k + 1))
      = 2 * (em >>> (k + 1)).roundedMantissa * 2 ^ k * 2 := by ring
    _ ≤ (m / 2 ^ k + 1) * 2 ^ k * 2 :=
        Nat.mul_le_mul_right _ (Nat.mul_le_mul_right _ hone)
    _ = m / 2 ^ k * 2 ^ k * 2 + 2 ^ (k + 1) := by ring
    _ ≤ m * 2 + 2 ^ (k + 1) :=
        Nat.add_le_add_right (Nat.mul_le_mul_right _ (Nat.div_mul_le_self m _)) _
    _ = 2 * m + 2 ^ (k + 1) := by ring

theorem roundedMantissa_le_of_lt {m : Nat} {e : Int} (h : e < lastPlace m e) :
    ((shiftToTargetExponent Format.binary64 m e .exact).1.roundedMantissa : ℚ) *
      2 ^ lastPlace m e ≤ m * 2 ^ e + 2 ^ (lastPlace m e - 1) := by
  obtain ⟨k, hk⟩ : ∃ k : Nat, lastPlace m e = e + (k + 1 : Nat) :=
    ⟨(lastPlace m e - e - 1).toNat, by omega⟩
  have hshift : (lastPlace m e - e).toNat = k + 1 := by omega
  have hle := roundedMantissa_shift_le m k
  rw [shift_eq, hshift, hk]
  generalize (ExtendedMantissa.ofMantissaAndAccuracy m .exact >>> (k + 1)).roundedMantissa = r
    at hle ⊢
  have hle' : (r : ℚ) * 2 ^ (k + 1) ≤ m + 2 ^ k := by
    have hcast : (2 : ℚ) * (r * 2 ^ (k + 1)) ≤ 2 * m + 2 ^ (k + 1) := by exact_mod_cast hle
    rw [pow_succ] at hcast ⊢
    linarith
  have hexponent : e + ((k + 1 : Nat) : Int) - 1 = e + k := by omega
  have htwo : (2 : ℚ) ≠ 0 := two_ne_zero
  calc (r : ℚ) * 2 ^ (e + ((k + 1 : Nat) : Int)) = 2 ^ e * (r * 2 ^ (k + 1)) := by
        rw [zpow_add₀ htwo, zpow_natCast]
        ring
    _ ≤ 2 ^ e * (m + 2 ^ k) := mul_le_mul_of_nonneg_left hle' (by positivity)
    _ = m * 2 ^ e + 2 ^ (e + ((k + 1 : Nat) : Int) - 1) := by
        rw [hexponent, zpow_add₀ htwo, zpow_natCast]
        ring

theorem totalExponent_le_of_lt {m : Nat} (hm : 0 < m) {e t : Int} (h : (m : ℚ) * 2 ^ e < 2 ^ t) :
    totalExponent m e ≤ t := by
  have hlog : (2 : ℚ) ^ ((m.log2 : Int) + e) ≤ m * 2 ^ e := by
    rw [zpow_add₀ two_ne_zero, zpow_natCast]
    refine mul_le_mul_of_nonneg_right ?_ (by positivity)
    exact_mod_cast Nat.log2_self_le (Nat.ne_of_gt hm)
  have hlt := (zpow_lt_zpow_iff_right₀ (one_lt_two : (1 : ℚ) < 2)).mp (hlog.trans_lt h)
  rw [totalExponent]
  omega

theorem lastPlace_le {m : Nat} {e : Int} (he : e ≤ 971) (h : (m : ℚ) * 2 ^ e < 2 ^ 1024) :
    lastPlace m e ≤ 971 := by
  rw [lastPlace]
  rcases Nat.eq_zero_or_pos m with rfl | hm
  · have hzero : totalExponent 0 e = e + 1 := by simp [totalExponent]; omega
    omega
  · have htotal : totalExponent m e ≤ 1024 := totalExponent_le_of_lt hm (by exact_mod_cast h)
    omega

/-- The carry out of rounding is shifted out as a zero. -/
theorem atMost_roundWithAccuracy (s : Sign) {m : Nat} {e : Int} {b : ℚ}
    (he : max e (lastPlace m e) ≤ 971) (hb : b < 2 ^ 1024)
    (h : ((shiftToTargetExponent Format.binary64 m e .exact).1.roundedMantissa : ℚ) *
      2 ^ (max e (lastPlace m e)) ≤ b) :
    AtMost b (roundWithAccuracy Format.binary64 s m e .exact) := by
  have hexponent : (shiftToTargetExponent Format.binary64 m e .exact).2 =
      max e (lastPlace m e) := by
    rw [shift_eq]
    dsimp only
    omega
  have hlow : -1074 ≤ max e (lastPlace m e) := le_max_of_le_right (le_max_right _ _)
  simp only [roundWithAccuracy]
  generalize shiftToTargetExponent Format.binary64 m e .exact = first at h hexponent
  obtain ⟨em, e₁⟩ := first
  dsimp only at h hexponent ⊢
  rw [← hexponent] at h he hlow
  have hcarry : lastPlace em.roundedMantissa e₁ ≤ 971 := lastPlace_le he (h.trans_lt hb)
  rw [shift_eq]
  generalize hk : (lastPlace em.roundedMantissa e₁ - e₁).toNat = k
  dsimp only
  rw [mantissa_shiftRight, mantissa_ofMantissaAndAccuracy]
  split
  · exact .zero s
  · refine .finite (by omega) (by omega) (le_trans ?_ h)
    rw [zpow_add₀ two_ne_zero, zpow_natCast]
    have hdiv : ((em.roundedMantissa / 2 ^ k : Nat) : ℚ) * 2 ^ k ≤ em.roundedMantissa := by
      exact_mod_cast Nat.div_mul_le_self em.roundedMantissa (2 ^ k)
    calc ((em.roundedMantissa / 2 ^ k : Nat) : ℚ) * (2 ^ e₁ * 2 ^ k)
        = (em.roundedMantissa / 2 ^ k : Nat) * 2 ^ k * 2 ^ e₁ := by ring
      _ ≤ em.roundedMantissa * 2 ^ e₁ := mul_le_mul_of_nonneg_right hdiv (by positivity)

theorem atMost_of_lastPlace_le (s : Sign) {m : Nat} {e : Int} (he : e ≤ 971)
    (hlt : (m : ℚ) * 2 ^ e < 2 ^ 1024) (h : lastPlace m e ≤ e) :
    AtMost (m * 2 ^ e) (roundWithAccuracy Format.binary64 s m e .exact) := by
  refine atMost_roundWithAccuracy s (max_le he (h.trans he)) hlt (le_of_eq ?_)
  have hshift : (lastPlace m e - e).toNat = 0 := by omega
  rw [max_eq_left h, shift_eq, hshift]
  rfl

theorem atMost_round (s : Sign) {m : Nat} {e : Int} (he : e ≤ 971)
    (hlt : (m : ℚ) * 2 ^ e + 2 ^ (lastPlace m e - 1) < 2 ^ 1024) :
    AtMost (m * 2 ^ e + 2 ^ (lastPlace m e - 1))
      (roundWithAccuracy Format.binary64 s m e .exact) := by
  have hle : (m : ℚ) * 2 ^ e ≤ m * 2 ^ e + 2 ^ (lastPlace m e - 1) :=
    le_add_of_nonneg_right (by positivity)
  rcases le_or_gt (lastPlace m e) e with h | h
  · exact (atMost_of_lastPlace_le s he (hle.trans_lt hlt) h).mono hle
  · have hplace := lastPlace_le he (hle.trans_lt hlt)
    refine atMost_roundWithAccuracy s (max_le he hplace) hlt ?_
    rw [max_eq_right h.le]
    exact roundedMantissa_le_of_lt h

/-- Half a unit is a small part of a number, and below the normal doubles next to nothing. -/
theorem half_unit_le {m : Nat} (hm : 0 < m) {e : Int} {b : ℚ} (h : (m : ℚ) * 2 ^ e ≤ b)
    (hb : 2 ^ (-1022 : Int) ≤ b) : (2 : ℚ) ^ (lastPlace m e - 1) ≤ b / 2 ^ 53 := by
  have hfirst : (2 : ℚ) ^ (totalExponent m e - 1) ≤ b := by
    have hexponent : totalExponent m e - 1 = (m.log2 : Int) + e := by
      rw [totalExponent]
      omega
    rw [hexponent, zpow_add₀ two_ne_zero, zpow_natCast]
    refine le_trans (mul_le_mul_of_nonneg_right ?_ (by positivity)) h
    exact_mod_cast Nat.log2_self_le (Nat.ne_of_gt hm)
  have hpart (t : Int) : (2 : ℚ) ^ (t - 54) = 2 ^ (t - 1) / 2 ^ 53 := by
    have hexponent : t - 54 = t - 1 - (53 : Nat) := by omega
    rw [hexponent, zpow_sub₀ two_ne_zero, zpow_natCast]
  rcases max_choice (totalExponent m e - 53) (-1074) with hplace | hplace
  · have hexponent : lastPlace m e - 1 = totalExponent m e - 54 := by
      rw [lastPlace, hplace]
      omega
    rw [hexponent, hpart]
    exact div_le_div_of_nonneg_right hfirst (by positivity)
  · have hexponent : lastPlace m e - 1 = -1021 - 54 := by
      rw [lastPlace, hplace]
      rfl
    rw [hexponent, hpart]
    exact div_le_div_of_nonneg_right hb (by positivity)

/-- Rounding moves a number up by its `2 ^ 53`rd part at most. -/
theorem atMost_round_of_le (s : Sign) {m : Nat} (hm : 0 < m) {e : Int} {b : ℚ} (he : e ≤ 971)
    (h : (m : ℚ) * 2 ^ e ≤ b) (hlow : 2 ^ (-1022 : Int) ≤ b)
    (hhigh : b * (1 + 1 / 2 ^ 53) < 2 ^ 1024) :
    AtMost (b * (1 + 1 / 2 ^ 53)) (roundWithAccuracy Format.binary64 s m e .exact) := by
  have hle : (m : ℚ) * 2 ^ e + 2 ^ (lastPlace m e - 1) ≤ b * (1 + 1 / 2 ^ 53) := by
    have hunit := half_unit_le hm h hlow
    linarith
  exact (atMost_round s he (hle.trans_lt hhigh)).mono hle

/-! ## Products -/

theorem full_of_unpack {bits : BitVec Format.binary64.numBits} {s : Sign} {m : Nat} {e : Int}
    {hm : 0 < m} (h : UnpackedFloat.unpack Format.binary64 bits = .finite s m e hm) :
    2 ^ 52 ≤ m ∨ e = -1074 := by
  simp only [UnpackedFloat.unpack] at h
  split at h
  · split at h <;> cases h
  split at h
  · rename_i hzero
    split at h
    · cases h
    · injection h with _ _ he
      right
      rw [← he, hzero]
      rfl
  · injection h with _ hmantissa
    left
    rw [← hmantissa, toNat_one_append]
    omega

section Product

variable {x y : Float} {a b : ℚ}

theorem exists_product (hx : AtMost a x.toModel.unpack) (hy : AtMost b y.toModel.unpack)
    (hab : a * b < 2 ^ 1024) :
    AtMost 0 (x * y).toModel.unpack ∨ ∃ s, ∃ m : Nat, ∃ e : Int, 0 < m ∧ e ≤ 971 ∧
      (m : ℚ) * 2 ^ e ≤ a * b ∧
      (x * y).toModel = Float.Model.pack (roundWithAccuracy Format.binary64 s m e .exact) := by
  have hproduct : (x * y).toModel =
      Float.Model.pack (UnpackedFloat.mul Format.binary64 x.toModel.unpack y.toModel.unpack) := rfl
  rw [hproduct]
  generalize hu : x.toModel.unpack = u at hx
  generalize hv : y.toModel.unpack = v at hy
  cases hx with
  | zero s =>
      left
      refine AtMost.pack ?_
      cases hy <;> exact .zero _
  | @finite s m e hm hlow hhigh hx =>
      cases hy with
      | zero s => exact Or.inl (AtMost.pack (.zero _))
      | @finite s' m' e' hm' hlow' hhigh' hy =>
          have hle : ((m * m' : Nat) : ℚ) * 2 ^ (e + e') ≤ a * b := by
            have ha : 0 ≤ a := le_trans (by positivity) hx
            calc ((m * m' : Nat) : ℚ) * 2 ^ (e + e') = m * 2 ^ e * (m' * 2 ^ e') := by
                  rw [zpow_add₀ two_ne_zero]
                  push_cast
                  ring
              _ ≤ a * b := mul_le_mul hx hy (by positivity) ha
          refine Or.inr ⟨_, _, _, Nat.mul_pos hm hm', ?_, hle, rfl⟩
          rcases full_of_unpack hu with hfull | rfl
          · rcases full_of_unpack hv with hfull' | rfl
            · have htotal := totalExponent_le_of_lt (Nat.mul_pos hm hm') (t := 1024)
                (hle.trans_lt (by exact_mod_cast hab))
              have hlog : 52 + 52 ≤ (m * m').log2 := by
                rw [Nat.le_log2 (Nat.ne_of_gt (Nat.mul_pos hm hm')), Nat.pow_add]
                exact Nat.mul_le_mul hfull hfull'
              rw [totalExponent] at htotal
              omega
            · omega
          · omega

theorem atMost_float_mul (hx : AtMost a x.toModel.unpack) (hy : AtMost b y.toModel.unpack)
    (hlow : 2 ^ (-1022 : Int) ≤ a * b) (hhigh : a * b * (1 + 1 / 2 ^ 53) < 2 ^ 1024) :
    AtMost (a * b * (1 + 1 / 2 ^ 53)) (x * y).toModel.unpack := by
  have hpos : 0 ≤ a * b := le_trans (by positivity) hlow
  have hle : a * b ≤ a * b * (1 + 1 / 2 ^ 53) := le_mul_of_one_le_right hpos (by norm_num)
  rcases exists_product hx hy (hle.trans_lt hhigh) with hzero | ⟨s, m, e, hm, he, hab, hproduct⟩
  · exact hzero.mono (by positivity)
  · rw [hproduct]
    exact (atMost_round_of_le s hm he hab hlow hhigh).pack

/-- A product is finite if it is less than half a unit above the largest double. -/
theorem isFinite_mul_of_lt (hx : AtMost a x.toModel.unpack) (hy : AtMost b y.toModel.unpack)
    (hab : a * b < (2 ^ 54 - 1) * 2 ^ 970) : isFinite (x * y) = true := by
  rw [isFinite_eq]
  have htop : (2 : ℚ) ^ 1024 = 2 ^ 54 * 2 ^ 970 := by rw [← pow_add]
  have hlt : a * b < 2 ^ 1024 := by
    rw [htop]
    exact hab.trans (mul_lt_mul_of_pos_right (by norm_num) (by positivity))
  rcases exists_product hx hy hlt with hzero | ⟨s, m, e, hm, he, hle, hproduct⟩
  · exact hzero.isFinite
  · have hunit : (2 : ℚ) ^ (lastPlace m e - 1) ≤ 2 ^ 970 := by
      have hplace := lastPlace_le he (hle.trans_lt hlt)
      rw [← zpow_natCast]
      exact zpow_le_zpow_right₀ one_le_two (by omega)
    rw [hproduct]
    refine (atMost_round s he ?_).pack.isFinite
    calc (m : ℚ) * 2 ^ e + 2 ^ (lastPlace m e - 1) ≤ a * b + 2 ^ 970 := add_le_add hle hunit
      _ < (2 ^ 54 - 1) * 2 ^ 970 + 2 ^ 970 := add_lt_add_left hab _
      _ = 2 ^ 1024 := by
          rw [htop, sub_mul, one_mul, sub_add_cancel]

end Product

/-! ## Decimals -/

theorem atMost_toFloat {n : Nat} (h : n < 2 ^ 53) : AtMost n n.toUInt64.toFloat.toModel.unpack := by
  refine AtMost.pack ?_
  have hvalue : n.toUInt64.toNat = n := Nat.mod_eq_of_lt (by omega)
  simp only [UnpackedFloat.ofUInt64, UnpackedFloat.ofNat, UnpackedFloat.ofInt,
    UnpackedFloat.normalize, hvalue]
  split
  · rename_i hneg
    have hlt := Int.compare_eq_lt.mp hneg
    omega
  · exact .zero _
  · simp only [UnpackedFloat.round, decreaseExponent, Int.toNat_natCast, targetExponent_eq]
    have hplace : lastPlace n 0 ≤ 0 := by
      have htotal : totalExponent n 0 ≤ 53 := totalExponent_le h (by decide) (by decide)
      rw [lastPlace]
      omega
    generalize hj : (0 - lastPlace n 0).toNat = j
    have hsize : ((n <<< j : Nat) : ℚ) * 2 ^ (0 - (j : Int)) = n := by
      rw [Nat.shiftLeft_eq, zpow_sub₀ two_ne_zero, zpow_zero, zpow_natCast]
      push_cast
      field_simp
    have hsame : lastPlace (n <<< j) (0 - j) ≤ lastPlace n 0 := by
      have htotal : totalExponent (n <<< j) (0 - j) ≤ totalExponent n 0 := by
        refine totalExponent_le (shiftLeft_lt (Nat.lt_log2_self (n := n)) j) (by omega) ?_
        rw [totalExponent]
        push_cast
        omega
      rw [lastPlace, lastPlace]
      omega
    have hlt : (n : ℚ) < 2 ^ 1024 := by
      have hcast : (n : ℚ) < 2 ^ 53 := by exact_mod_cast h
      exact hcast.trans (pow_lt_pow_right₀ one_lt_two (by decide))
    have hatMost := atMost_of_lastPlace_le .positive (by omega) (hsize ▸ hlt)
      (by omega : lastPlace (n <<< j) (0 - j) ≤ 0 - j)
    rwa [hsize] at hatMost

theorem quotient_le_iff (m n k c : Nat) :
    (m : ℚ) * (2 ^ k / 2 ^ c) ≤ n ↔ m * 2 ^ k ≤ n * 2 ^ c := by
  rw [mul_div_assoc', div_le_iff₀ (by positivity)]
  exact_mod_cast Iff.rfl

theorem size_le_iff {m n : Nat} {e : Int} (he : -1074 ≤ e) :
    (m : ℚ) * 2 ^ e ≤ n ↔ m * 2 ^ (e + 1074).toNat ≤ n * 2 ^ 1074 := by
  obtain ⟨k, hk⟩ : ∃ k : Nat, e = k - (1074 : Nat) := ⟨(e + 1074).toNat, by omega⟩
  have hshift : (e + 1074).toNat = k := by omega
  rw [hshift, hk, zpow_sub₀ two_ne_zero, zpow_natCast, zpow_natCast]
  exact quotient_le_iff m n k 1074

instance (n : Nat) (u : UnpackedFloat) : Decidable (AtMost n u) :=
  match u with
  | .finite _ m e _ =>
    if he : -1074 ≤ e ∧ e ≤ 971 then
      if h : m * 2 ^ (e + 1074).toNat ≤ n * 2 ^ 1074 then
        isTrue (.finite he.1 he.2 ((size_le_iff he.1).mpr h))
      else isFalse fun | .finite hlow _ h' => h ((size_le_iff hlow).mp h')
    else isFalse fun | .finite hlow hhigh _ => he ⟨hlow, hhigh⟩
  | .zero s => isTrue (.zero s)
  | .infinity _ | .notANumber => isFalse nofun

theorem atMost_exactPower (k : Fin Float.exactlyRepresentablePowersOfTen.size) :
    AtMost (10 ^ k.val) Float.exactlyRepresentablePowersOfTen[k].toModel.unpack := by
  have hall : ∀ k : Fin Float.exactlyRepresentablePowersOfTen.size,
      AtMost ((10 ^ k.val : Nat) : ℚ) Float.exactlyRepresentablePowersOfTen[k].toModel.unpack := by
    decide +kernel
  exact_mod_cast hall k

/-- A decimal is rounded up by its `2 ^ 53`rd part at most. -/
theorem atMost_ofScientific {n k : Nat} (hn : 0 < n) (hk : k ≤ 308)
    (hhigh : (n : ℚ) * 10 ^ k * (1 + 1 / 2 ^ 53) < 2 ^ 1024) :
    AtMost (n * 10 ^ k * (1 + 1 / 2 ^ 53)) (Float.ofScientific n false k).toModel.unpack := by
  have hone : (1 : ℚ) ≤ n * 10 ^ k :=
    one_le_mul_of_one_le_of_one_le (by exact_mod_cast hn) (one_le_pow₀ (by norm_num))
  have hlow : (2 : ℚ) ^ (-1022 : Int) ≤ n * 10 ^ k :=
    (zpow_le_one_of_nonpos₀ one_le_two (by decide)).trans hone
  unfold Float.ofScientific
  split
  · rename_i hsmall
    have hindex : k < Float.exactlyRepresentablePowersOfTen.size := Nat.lt_succ_of_le hsmall.2
    exact atMost_float_mul (atMost_toFloat hsmall.1) (atMost_exactPower ⟨k, hindex⟩) hlow hhigh
  · change AtMost _ (Float.Model.pack (UnpackedFloat.ofScientific Format.binary64 n k)).unpack
    refine AtMost.pack ?_
    unfold UnpackedFloat.ofScientific
    have hpow : (2 : Int) ^ Format.binary64.exponentBits = 2048 := rfl
    rw [dif_neg (Nat.ne_of_gt hn), hpow, if_neg (by omega), if_neg (by omega), if_pos (by omega)]
    refine atMost_round_of_le _ (Nat.mul_pos ?_ ?_) (by decide) (le_of_eq ?_) hlow hhigh
    · rw [Nat.shiftLeft_eq]
      exact Nat.mul_pos hn (Nat.two_pow_pos _)
    · exact Nat.pow_pos (by decide)
    · rw [Nat.shiftLeft_eq, add_zero, zpow_neg, zpow_natCast, Int.toNat_natCast]
      push_cast
      field_simp

theorem atMost_ofNat {n : Nat} (hn : n < 2 ^ 64) :
    AtMost (n * (1 + 1 / 2 ^ 53)) (Float.ofNat n).toModel.unpack := by
  rcases Nat.eq_zero_or_pos n with rfl | hpos
  · have hzero : AtMost ((0 : Nat) : ℚ) (Float.ofNat 0).toModel.unpack := by decide +kernel
    rwa [Nat.cast_zero, zero_mul, ← Nat.cast_zero]
  · have hatMost := atMost_ofScientific (k := 0) hpos (by decide) ?_
    · rw [pow_zero, mul_one] at hatMost
      exact hatMost
    · have hcast : (n : ℚ) ≤ 2 ^ 64 := by exact_mod_cast hn.le
      rw [pow_zero, mul_one]
      calc (n : ℚ) * (1 + 1 / 2 ^ 53) ≤ 2 ^ 64 * 2 :=
            mul_le_mul hcast (by norm_num) (by norm_num) (by norm_num)
        _ = 2 ^ 65 := by norm_num
        _ < 2 ^ 1024 := pow_lt_pow_right₀ one_lt_two (by decide)

theorem AtMost.below {b : ℚ} {t : Int} (hb : b < 2 ^ t) {u : UnpackedFloat} (h : AtMost b u) :
    Below t u := by
  cases h with
  | zero s => exact .zero s
  | @finite s m e hm hlow hhigh h => exact .finite (totalExponent_le_of_lt hm (h.trans_lt hb))

theorem below_ofNat {n : Nat} (h : n < 2 ^ 64) : Below 65 (Float.ofNat n).toModel.unpack := by
  refine (atMost_ofNat h).below ?_
  have hcast : (n : ℚ) < 2 ^ 64 := by exact_mod_cast h
  calc (n : ℚ) * (1 + 1 / 2 ^ 53) < 2 ^ 64 * 2 :=
        mul_lt_mul hcast (by norm_num) (by norm_num) (by norm_num)
    _ = 2 ^ (65 : Int) := by norm_num

theorem isFinite_ofInt {n : Int} (h : n.natAbs < 2 ^ 64) : isFinite (Float.ofInt n) = true := by
  cases n with
  | ofNat k =>
      rw [isFinite_eq]
      exact (atMost_ofNat h).isFinite
  | negSucc k =>
      refine isFinite_neg ?_
      rw [isFinite_eq]
      exact (atMost_ofNat h).isFinite

/-! ## Numbers of size one or more -/

theorem le_roundedMantissa (em : ExtendedMantissa) : em.mantissa ≤ em.roundedMantissa := by
  obtain ⟨m, roundBit, stickyBit⟩ := em
  cases roundBit <;> cases stickyBit <;>
    simp only [ExtendedMantissa.roundedMantissa, ExtendedMantissa.accuracy,
      Accuracy.roundToNearestEven] <;> omega

theorem roundWithAccuracy_eq (s : Sign) {m k r j : Nat} {e : Int}
    (hk : (lastPlace m e - e).toNat = k)
    (hr : (ExtendedMantissa.ofMantissaAndAccuracy m .exact >>> k).roundedMantissa = r)
    (hj : (lastPlace r (e + k) - (e + k)).toNat = j) (hpos : 0 < r / 2 ^ j) :
    roundWithAccuracy Format.binary64 s m e .exact = .finite s (r / 2 ^ j) (e + k + j) hpos := by
  simp only [roundWithAccuracy, shift_eq, hk, hr, hj, mantissa_shiftRight,
    mantissa_ofMantissaAndAccuracy]
  rw [dif_neg (Nat.ne_of_gt hpos)]

/-- A number with more digits than a double holds keeps 53 of them, the first at its
place or one above. -/
theorem exists_full_round (s : Sign) {m : Nat} {e : Int} (hm : 52 ≤ m.log2)
    (he : -1021 ≤ totalExponent m e) : ∃ m' e' hm',
      roundWithAccuracy Format.binary64 s m e .exact = .finite s m' e' hm' ∧ m'.log2 = 52 ∧
        totalExponent m e ≤ totalExponent m' e' := by
  have hpos : m ≠ 0 := by
    rintro rfl
    exact absurd hm (by decide)
  obtain ⟨k, hk⟩ : ∃ k, m.log2 = 52 + k := ⟨m.log2 - 52, by omega⟩
  have htotal : totalExponent m e = 53 + (e + k) := by
    rw [totalExponent]
    omega
  rw [htotal] at he ⊢
  have hshift : (lastPlace m e - e).toNat = k := by
    rw [lastPlace, htotal]
    omega
  obtain ⟨hlow, hhigh⟩ : 2 ^ 52 ≤ m / 2 ^ k ∧ m / 2 ^ k < 2 ^ 53 := by
    have hself := Nat.log2_self_le hpos
    have hlt := Nat.lt_log2_self (n := m)
    rw [hk, Nat.pow_add] at hself
    rw [hk, Nat.add_right_comm, Nat.pow_add] at hlt
    exact ⟨(Nat.le_div_iff_mul_le (Nat.two_pow_pos k)).mpr hself,
      (Nat.div_lt_iff_lt_mul (Nat.two_pow_pos k)).mpr hlt⟩
  have hdown := le_roundedMantissa (ExtendedMantissa.ofMantissaAndAccuracy m .exact >>> k)
  have hup := roundedMantissa_le (ExtendedMantissa.ofMantissaAndAccuracy m .exact >>> k)
  rw [mantissa_shiftRight, mantissa_ofMantissaAndAccuracy] at hdown hup
  generalize hr : (ExtendedMantissa.ofMantissaAndAccuracy m .exact >>> k).roundedMantissa = r
    at hdown hup
  rcases Nat.lt_or_ge r (2 ^ 53) with hcarry | hcarry
  · have hlog : r.log2 = 52 := (Nat.log2_eq_iff (by omega)).mpr ⟨by omega, hcarry⟩
    have hstay : (lastPlace r (e + k) - (e + k)).toNat = 0 := by
      rw [lastPlace, totalExponent, hlog]
      omega
    refine ⟨_, _, _, roundWithAccuracy_eq s hshift hr hstay (by omega), ?_⟩
    rw [Nat.pow_zero, Nat.div_one, totalExponent, hlog]
    exact ⟨rfl, by omega⟩
  · obtain rfl : r = 2 ^ 53 := by omega
    have hcarried : (lastPlace (2 ^ 53) (e + k) - (e + k)).toNat = 1 := by
      rw [lastPlace, totalExponent, Nat.log2_two_pow]
      omega
    refine ⟨_, _, _, roundWithAccuracy_eq s hshift hr hcarried (by decide), by decide, ?_⟩
    have hlog : (2 ^ 53 / 2 ^ 1 : Nat).log2 = 52 := by decide
    rw [totalExponent, hlog]
    omega

theorem fromOne_pack {s : Sign} {m : Nat} {e : Int} {hm : 0 < m} (hfull : m.log2 = 52)
    (he : e ≤ 971) (h : 1 ≤ totalExponent m e) :
    FromOne (Float.Model.pack (.finite s m e hm)).unpack := by
  change FromOne (UnpackedFloat.unpack Format.binary64 (UnpackedFloat.pack Format.binary64 _))
  rcases pack_cases s hm he with ⟨-, level, hlevel, htop, hpack⟩ | ⟨hne, -⟩
  · rw [totalExponent, hfull] at h
    have hbottom : level ≠ 0#_ := by
      rintro rfl
      rw [BitVec.toNat_zero] at hlevel
      omega
    have hlog : 52 ≤ (2 ^ 52 + (BitVec.ofNat 52 m).toNat).log2 := by
      rw [Nat.le_log2 (by omega)]
      exact Nat.le_add_right _ _
    have hexponent : (level.toNat : Int) - (Format.binary64.exponentBias +
        Format.binary64.mantissaBitsWithoutImplicit) = level.toNat - 1075 := rfl
    rw [hpack]
    simp only [UnpackedFloat.unpack, unpackExponent_packComponents, unpackMantissa_packComponents,
      if_neg htop, if_neg hbottom, toNat_one_append, hexponent]
    refine .finite ?_
    rw [totalExponent]
    omega
  · exact absurd hfull hne

theorem fromOne_round (s : Sign) {m : Nat} {e : Int} {b : ℚ} (hm : 52 ≤ m.log2)
    (hplace : 1 ≤ totalExponent m e) (he : e ≤ 971) (h : (m : ℚ) * 2 ^ e ≤ b)
    (hlow : 2 ^ (-1022 : Int) ≤ b) (hhigh : b * (1 + 1 / 2 ^ 53) < 2 ^ 1024) :
    FromOne (Float.Model.pack (roundWithAccuracy Format.binary64 s m e .exact)).unpack := by
  have hpos : 0 < m := by
    rw [Nat.pos_iff_ne_zero]
    rintro rfl
    exact absurd hm (by decide)
  have hfirst : -1021 ≤ totalExponent m e := by omega
  obtain ⟨m', e', hm', heq, hfull, hplace'⟩ := exists_full_round s hm hfirst
  have hatMost := atMost_round_of_le s hpos he h hlow hhigh
  rw [heq] at hatMost ⊢
  cases hatMost with
  | finite _ htop _ => exact fromOne_pack hfull htop (hplace.trans hplace')

theorem fromOne_exactPower (k : Fin Float.exactlyRepresentablePowersOfTen.size) :
    FromOne ((1 : Nat).toUInt64.toFloat *
      Float.exactlyRepresentablePowersOfTen[k]).toModel.unpack := by
  have hall : ∀ k : Fin Float.exactlyRepresentablePowersOfTen.size,
      FromOne ((1 : Nat).toUInt64.toFloat *
        Float.exactlyRepresentablePowersOfTen[k]).toModel.unpack := by
    decide +kernel
  exact hall k

theorem tenPower_lt {k : Nat} (hk : k ≤ 308) : (10 : ℚ) ^ k * (1 + 1 / 2 ^ 53) < 2 ^ 1024 := by
  have htop : ((10 ^ 308 * 3 : Nat) : ℚ) < ((2 ^ 1024 * 2 : Nat) : ℚ) :=
    Nat.cast_lt.mpr (by decide +kernel)
  simp only [Nat.cast_mul, Nat.cast_pow, Nat.cast_ofNat] at htop
  calc (10 : ℚ) ^ k * (1 + 1 / 2 ^ 53) ≤ 10 ^ 308 * (3 / 2) :=
        mul_le_mul (pow_le_pow_right₀ (by norm_num) hk) (by norm_num) (by norm_num) (by positivity)
    _ < 2 ^ 1024 := by rwa [mul_div_assoc', div_lt_iff₀ two_pos]

/-- The powers of ten are rounded to numbers of size one or more. -/
theorem fromOne_tenPower {k : Nat} (hk : k ≤ 308) :
    FromOne (Float.ofScientific 1 false k).toModel.unpack := by
  unfold Float.ofScientific
  split
  · rename_i hsmall
    exact fromOne_exactPower ⟨k, Nat.lt_succ_of_le hsmall.2⟩
  · change FromOne (Float.Model.pack (UnpackedFloat.ofScientific Format.binary64 1 k)).unpack
    unfold UnpackedFloat.ofScientific
    have hpow : (2 : Int) ^ Format.binary64.exponentBits = 2048 := rfl
    rw [dif_neg Nat.one_ne_zero, hpow, if_neg (by omega), if_neg (by omega), if_pos (by omega)]
    have hbits : Format.binary64.mantissaBits = 53 := rfl
    have hten : 0 < 10 ^ k := Nat.pow_pos (by decide)
    have hlog : 53 ≤ (2 ^ 53 * 10 ^ k).log2 := by
      rw [Nat.le_log2 (by omega)]
      exact Nat.le_mul_of_pos_right _ hten
    have hone : (1 : ℚ) ≤ 10 ^ k := one_le_pow₀ (by norm_num)
    simp only [UnpackedFloat.mul, Nat.shiftLeft_eq, one_mul, hbits, Int.toNat_natCast]
    refine fromOne_round _ (by omega) ?_ (by decide) (le_of_eq ?_)
      ((zpow_le_one_of_nonpos₀ one_le_two (by decide)).trans hone) (tenPower_lt hk)
    · rw [totalExponent]
      omega
    · rw [add_zero, zpow_neg, zpow_natCast]
      push_cast
      ring

end Matinee.Number
