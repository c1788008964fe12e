/-
# `Matinee.Proofs.Number.Finite` — arithmetic that stays below the infinite

Nothing here is about the exact value of a sum or a quotient.  `Below t` bounds
the place of the first binary digit of a double: its size is less than `2 ^ t`.
Each operation moves that bound by a few places at most, so a short computation
that starts from moderate numbers ends with a finite one.
-/
import Mathlib
import Matinee.Number.Binary

namespace Matinee.Number

open Float.Model
open Float.Model.UnpackedFloat

/-! ## Doubles by their first binary digit -/

/-- A finite number of size less than `2 ^ t`. -/
inductive Below (t : Int) : UnpackedFloat → Prop where
  | zero (s : Sign) : Below t (.zero s)
  | finite {s : Sign} {m : Nat} {e : Int} {hm : 0 < m} (h : totalExponent m e ≤ t) :
      Below t (.finite s m e hm)

theorem toNat_unpackExponent (bits : BitVec Format.binary64.numBits) :
    (unpackExponent bits).toNat = bits.toNat / 2 ^ 52 % 2 ^ 11 := by
  simp [unpackExponent, BitVec.extractLsb_toNat, Nat.shiftRight_eq_div_pow]

theorem unpackExponent_eq_neg_one_iff (bits : BitVec Format.binary64.numBits) :
    unpackExponent bits = -BitVec.ofNat Format.binary64.exponentBits 1 ↔
      bits.toNat / 2 ^ 52 % 2 ^ 11 = 2047 := by
  rw [← BitVec.toNat_inj, toNat_unpackExponent]
  rfl

theorem isFinite_unpack (bits : BitVec Format.binary64.numBits) :
    (UnpackedFloat.unpack Format.binary64 bits).isFinite =
      decide (bits.toNat / 2 ^ 52 % 2 ^ 11 ≠ 2047) := by
  have hexponent := unpackExponent_eq_neg_one_iff bits
  by_cases h : bits.toNat / 2 ^ 52 % 2 ^ 11 = 2047
  · simp only [UnpackedFloat.unpack, hexponent.mpr h, if_true, h]
    split <;> rfl
  · simp only [UnpackedFloat.unpack, mt hexponent.mp h, if_false, decide_eq_true h]
    split
    · split <;> rfl
    · rfl

theorem isFinite_eq (x : Float) : isFinite x = x.toModel.unpack.isFinite := by
  rw [Float.Model.unpack, isFinite_unpack]
  change isFinite x = decide (x.toBits.toNat / 2 ^ 52 % 2 ^ 11 ≠ 2047)
  simp only [isFinite, meaning]
  by_cases h : x.toBits.toNat / 2 ^ 52 % 2 ^ 11 = 2047
  · simp only [h, beq_self_eq_true, if_true]
    cases x.toBits.toNat % 2 ^ 52 == 0 <;> rfl
  · simp only [beq_eq_false_iff_ne.mpr h, decide_eq_true h]
    cases x.toBits.toNat / 2 ^ 52 % 2 ^ 11 == 0 <;> rfl

/-- A finite number is stored with an exponent that leaves room above it. -/
theorem exponent_le_of_unpack {bits : BitVec Format.binary64.numBits} {s : Sign} {m : Nat} {e : Int}
    {hm : 0 < m} (h : UnpackedFloat.unpack Format.binary64 bits = .finite s m e hm) : e ≤ 971 := by
  have hlt := (unpackExponent bits).isLt
  have hne : unpackExponent bits ≠ -BitVec.ofNat Format.binary64.exponentBits 1 := by
    intro hall
    simp only [UnpackedFloat.unpack, hall, if_true] at h
    split at h <;> cases h
  have hlevel : (unpackExponent bits).toNat ≠ 2047 := fun hall =>
    hne (BitVec.eq_of_toNat_eq hall)
  simp only [UnpackedFloat.unpack, hne, if_false] at h
  split at h
  · rename_i hzero
    split at h
    · cases h
    · injection h with _ _ he
      rw [← he, hzero]
      decide
  · injection h with _ _ he
    rw [← he]
    simp [Format.exponentBias] at hlt ⊢
    omega

theorem Below.isFinite {t : Int} {u : UnpackedFloat} (h : Below t u) : u.isFinite = true := by
  cases h <;> rfl

theorem exists_below {u : UnpackedFloat} (h : u.isFinite = true) :
    ∃ t : Int, 0 ≤ t ∧ Below t u := by
  cases u with
  | zero s => exact ⟨0, Int.le_refl 0, .zero s⟩
  | finite s m e hm =>
      exact ⟨_, Int.le_max_left 0 _, .finite (Int.le_max_right _ (totalExponent m e))⟩
  | infinity s => cases h
  | notANumber => cases h

theorem totalExponent_le {m k : Nat} {e t : Int} (hm : m < 2 ^ k) (hk : 0 < k) (h : k + e ≤ t) :
    totalExponent m e ≤ t := by
  have hlog : m.log2 < k := by
    rcases Nat.eq_zero_or_pos m with rfl | hpos
    · exact hk
    · exact (Nat.log2_lt (Nat.ne_of_gt hpos)).mpr hm
  rw [totalExponent]
  omega

theorem below_unpack {bits : BitVec Format.binary64.numBits} {t : Int}
    (hne : unpackExponent bits ≠ -BitVec.ofNat Format.binary64.exponentBits 1)
    (hlow : -1022 ≤ t) (hhigh : (unpackExponent bits).toNat ≤ t + 1022) :
    Below t (UnpackedFloat.unpack Format.binary64 bits) := by
  simp only [UnpackedFloat.unpack, hne, if_false]
  split
  · rename_i hzero
    split
    · exact .zero _
    · refine .finite (totalExponent_le (unpackMantissa bits).isLt (by decide) ?_)
      simp [hzero, Format.exponentBias]
      omega
  · refine .finite (totalExponent_le (1#1 ++ unpackMantissa bits).isLt (by decide) ?_)
    simp [Format.exponentBias]
    omega

/-- A number is stored as it is if its mantissa is full, else with the least exponent. -/
theorem pack_cases (s : Sign) {m : Nat} {e : Int} (hm : 0 < m) (he : e ≤ 971) :
    (m.log2 = 52 ∧ ∃ level : BitVec Format.binary64.exponentBits,
      level.toNat = (e + 1075).toNat ∧ level ≠ -BitVec.ofNat Format.binary64.exponentBits 1 ∧
      UnpackedFloat.pack Format.binary64 (.finite s m e hm) =
        packComponents Format.binary64 s level (BitVec.ofNat _ m)) ∨
    (m.log2 ≠ 52 ∧ UnpackedFloat.pack Format.binary64 (.finite s m e hm) =
      packComponents Format.binary64 s 0#_ (BitVec.ofNat _ m)) := by
  have hstored : (e + Format.binary64.exponentBias +
      Format.binary64.mantissaBitsWithoutImplicit).toNat = (e + 1075).toNat := by
    simp [Format.exponentBias]
    omega
  have hroom : ¬ 2 ^ Format.binary64.exponentBits ≤ (e + 1075).toNat + 1 := by
    simp
    omega
  have hlevel : (BitVec.ofNat Format.binary64.exponentBits (e + 1075).toNat).toNat =
      (e + 1075).toNat := by
    rw [BitVec.toNat_ofNat, Nat.mod_eq_of_lt]
    simp
    omega
  simp only [UnpackedFloat.pack, hstored, if_neg hroom]
  by_cases hfull : m.log2 = 52
  · refine Or.inl ⟨hfull, _, hlevel, fun hall => ?_, if_pos (by rw [hfull]; rfl)⟩
    have htop := congrArg BitVec.toNat hall
    rw [hlevel] at htop
    change (e + 1075).toNat = 2047 at htop
    omega
  · exact Or.inr ⟨hfull, if_neg fun h => hfull (Nat.succ.inj h)⟩

theorem below_pack {s : Sign} {m : Nat} {e t : Int} {hm : 0 < m} (he : e ≤ 971) (ht : -1022 ≤ t)
    (h : totalExponent m e ≤ t) : Below t (Float.Model.pack (.finite s m e hm)).unpack := by
  change Below t (UnpackedFloat.unpack Format.binary64 (UnpackedFloat.pack Format.binary64 _))
  rcases pack_cases s hm he with ⟨hfull, level, hlevel, htop, hpack⟩ | ⟨-, hpack⟩
  · rw [hpack]
    refine below_unpack ?_ ht ?_
    · rwa [unpackExponent_packComponents]
    · rw [unpackExponent_packComponents, hlevel]
      rw [totalExponent] at h
      omega
  · rw [hpack]
    refine below_unpack ?_ ht ?_
    · rw [unpackExponent_packComponents]
      decide
    · rw [unpackExponent_packComponents]
      simp
      omega

theorem isFinite_or_isInf_pack {u : UnpackedFloat} (hu : u.isFinite = true) :
    (Float.Model.pack u).unpack.isFinite = true ∨ (Float.Model.pack u).unpack.isInf = true := by
  cases u with
  | zero s => left; cases s <;> decide
  | finite s m e hm =>
      by_cases he : e ≤ 971
      · exact Or.inl (below_pack he (Int.le_max_left _ _) (Int.le_max_right _ _)).isFinite
      · right
        change (UnpackedFloat.unpack Format.binary64
          (UnpackedFloat.pack Format.binary64 (.finite s m e hm))).isInf = true
        have hbig : 2 ^ Format.binary64.exponentBits ≤ (e + Format.binary64.exponentBias +
            Format.binary64.mantissaBitsWithoutImplicit).toNat + 1 := by
          simp [Format.exponentBias]
          omega
        simp only [UnpackedFloat.pack, hbig, if_true]
        cases s <;> decide
  | infinity s => cases hu
  | notANumber => cases hu

/-! ## Rounding -/

theorem mantissa_shiftRight (em : ExtendedMantissa) (k : Nat) :
    (em >>> k).mantissa = em.mantissa / 2 ^ k := by
  induction k with
  | zero => exact (Nat.div_one _).symm
  | succ k ih =>
      calc (em >>> (k + 1)).mantissa = (em >>> k).mantissa / 2 := rfl
        _ = em.mantissa / 2 ^ (k + 1) := by rw [ih, Nat.div_div_eq_div_mul, Nat.pow_succ]

theorem roundedMantissa_le_roundBit (em : ExtendedMantissa) :
    em.roundedMantissa ≤ em.mantissa + em.roundBit.toNat := by
  obtain ⟨m, roundBit, stickyBit⟩ := em
  cases roundBit <;> cases stickyBit <;>
    simp only [ExtendedMantissa.roundedMantissa, ExtendedMantissa.accuracy,
      Accuracy.roundToNearestEven, Bool.toNat_true, Bool.toNat_false] <;> omega

theorem roundedMantissa_le (em : ExtendedMantissa) : em.roundedMantissa ≤ em.mantissa + 1 :=
  (roundedMantissa_le_roundBit em).trans (Nat.add_le_add_left (Bool.toNat_le em.roundBit) _)

theorem mantissa_ofMantissaAndAccuracy (m : Nat) (a : Accuracy) :
    (ExtendedMantissa.ofMantissaAndAccuracy m a).mantissa = m := by
  cases a with
  | exact => rfl
  | inexact o => cases o <;> rfl

theorem exists_shift (m : Nat) (e : Int) (a : Accuracy) : ∃ k : Nat,
    (shiftToTargetExponent Format.binary64 m e a).1.mantissa = m / 2 ^ k ∧
      (shiftToTargetExponent Format.binary64 m e a).2 = e + k ∧
      (k = 0 ∨ e + k = max (totalExponent m e - 53) (-1074)) := by
  refine ⟨(Format.binary64.targetExponent (totalExponent m e) - e).toNat, ?_, rfl, ?_⟩
  · simp only [shiftToTargetExponent, shiftToExponent, mantissa_shiftRight,
      mantissa_ofMantissaAndAccuracy]
  · have htarget : Format.binary64.targetExponent (totalExponent m e) =
        max (totalExponent m e - 53) (-1074) := rfl
    rw [htarget]
    omega

theorem log2_div_le (m k : Nat) (h : m / 2 ^ k ≠ 0) : (m / 2 ^ k).log2 + k ≤ m.log2 := by
  have hm : m ≠ 0 := by
    rintro rfl
    exact h (Nat.zero_div _)
  rw [Nat.le_log2 hm, Nat.pow_add]
  calc 2 ^ (m / 2 ^ k).log2 * 2 ^ k ≤ m / 2 ^ k * 2 ^ k :=
        Nat.mul_le_mul_right _ (Nat.log2_self_le h)
    _ ≤ m := Nat.div_mul_le_self m _

theorem log2_succ_le (m : Nat) : (m + 1).log2 ≤ m.log2 + 1 := by
  have hlt : m + 1 < 2 ^ (m.log2 + 1 + 1) := by
    have hself := Nat.lt_log2_self (n := m)
    rw [Nat.pow_succ]
    omega
  have hlog : (m + 1).log2 < m.log2 + 1 + 1 := (Nat.log2_lt (Nat.add_one_ne_zero m)).mpr hlt
  omega

theorem log2_mono {m n : Nat} (h : m ≤ n) : m.log2 ≤ n.log2 := by
  rcases Nat.eq_zero_or_pos m with rfl | hm
  · exact Nat.zero_le _
  · rw [Nat.le_log2 (by omega)]
    exact Nat.le_trans (Nat.log2_self_le (by omega)) h

/-- Rounding moves the first digit up by one place at most. -/
theorem below_roundWithAccuracy (s : Sign) {m : Nat} {e t : Int} (a : Accuracy) (ht : -1073 ≤ t)
    (h : totalExponent m e ≤ t) :
    Below (t + 1) (roundWithAccuracy Format.binary64 s m e a) := by
  obtain ⟨k, hmantissa, hexponent, hk⟩ := exists_shift m e a
  simp only [roundWithAccuracy]
  generalize shiftToTargetExponent Format.binary64 m e a = first at hmantissa hexponent
  obtain ⟨em, e₁⟩ := first
  dsimp only at hmantissa hexponent ⊢
  have hcarry : totalExponent em.roundedMantissa e₁ ≤ t + 1 := by
    have hlog := log2_mono (roundedMantissa_le em)
    rw [hmantissa] at hlog
    rw [totalExponent] at h hk ⊢
    by_cases hq : m / 2 ^ k = 0
    · have hone : (0 + 1 : Nat).log2 = 0 := by decide
      rw [hq, hone] at hlog
      omega
    · have hsucc := log2_succ_le (m / 2 ^ k)
      have hdiv := log2_div_le m k hq
      omega
  obtain ⟨k', hmantissa', hexponent', -⟩ := exists_shift em.roundedMantissa e₁ .exact
  split
  · exact .zero s
  · rename_i hne
    rw [hmantissa'] at hne
    have hdiv := log2_div_le _ k' hne
    refine .finite ?_
    rw [hmantissa', hexponent']
    rw [totalExponent] at hcarry ⊢
    omega

/-! ## Operations -/

theorem Below.pack {t : Int} (hlow : -1022 ≤ t) (hhigh : t ≤ 971) {u : UnpackedFloat}
    (h : Below t u) : Below t (Float.Model.pack u).unpack := by
  cases h with
  | zero s =>
      have hzero : (Float.Model.pack (.zero s)).unpack = .zero s := by cases s <;> rfl
      rw [hzero]
      exact .zero s
  | @finite s m e hm h =>
      refine below_pack ?_ hlow h
      rw [totalExponent] at h
      omega

theorem log2_mul_le (m n : Nat) : (m * n).log2 ≤ m.log2 + n.log2 + 1 := by
  by_cases h : m * n = 0
  · rw [h]
    exact Nat.zero_le _
  · have hlt : m * n < 2 ^ (m.log2 + 1) * 2 ^ (n.log2 + 1) :=
      Nat.mul_lt_mul'' Nat.lt_log2_self Nat.lt_log2_self
    rw [← Nat.pow_add] at hlt
    have hlog := (Nat.log2_lt h).mpr hlt
    omega

theorem below_mul {u v : UnpackedFloat} {t t' : Int} (hlow : -1073 ≤ t + t') (hu : Below t u)
    (hv : Below t' v) : Below (t + t' + 1) (UnpackedFloat.mul Format.binary64 u v) := by
  cases hu with
  | zero s => cases hv <;> exact .zero _
  | @finite s m e hm hu =>
      cases hv with
      | zero s => exact .zero _
      | @finite s' m' e' hm' hv =>
          refine below_roundWithAccuracy _ _ hlow ?_
          have hlog := log2_mul_le m m'
          rw [totalExponent] at hu hv ⊢
          omega

theorem shiftLeft_lt {m k : Nat} (h : m < 2 ^ k) (j : Nat) : m <<< j < 2 ^ (k + j) := by
  rw [Nat.shiftLeft_eq, Nat.pow_add]
  exact Nat.mul_lt_mul_of_pos_right h (Nat.two_pow_pos j)

/-- A number of size one or more. -/
inductive FromOne : UnpackedFloat → Prop where
  | finite {s : Sign} {m : Nat} {e : Int} {hm : 0 < m} (h : 1 ≤ totalExponent m e) :
      FromOne (.finite s m e hm)

instance (u : UnpackedFloat) : Decidable (FromOne u) :=
  match u with
  | .finite _ m e _ =>
    if h : 1 ≤ totalExponent m e then isTrue (.finite h) else isFalse fun | .finite h' => h h'
  | .zero _ | .infinity _ | .notANumber => isFalse nofun

theorem FromOne.isFinite {u : UnpackedFloat} (h : FromOne u) : u.isFinite = true := by
  cases h
  rfl

/-- A quotient by such a number is hardly larger than what is divided. -/
theorem below_div {u v : UnpackedFloat} {t : Int} (hlow : -1073 ≤ t) (hu : Below t u)
    (hv : FromOne v) : Below (t + 1) (UnpackedFloat.div Format.binary64 u v) := by
  obtain @⟨s', m', e', hm', hv⟩ := hv
  cases hu with
  | zero s => exact .zero _
  | @finite s m e hm hu =>
      refine below_roundWithAccuracy _ _ hlow ?_
      have htarget : Format.binary64.targetExponent (totalExponent m e - totalExponent m' e') =
          max (totalExponent m e - totalExponent m' e' - 53) (-1074) := rfl
      simp only [htarget]
      generalize hshift : (e - e' - min (e - e')
        (max (totalExponent m e - totalExponent m' e' - 53) (-1074))).toNat = k
      by_cases hq : (m <<< k) / m' = 0
      · rw [hq, totalExponent]
        have hzero : (0 : Nat).log2 = 0 := by decide
        omega
      · have hle : 2 ^ (((m <<< k) / m').log2 + m'.log2) ≤ m <<< k := by
          calc 2 ^ (((m <<< k) / m').log2 + m'.log2)
              = 2 ^ ((m <<< k) / m').log2 * 2 ^ m'.log2 := Nat.pow_add ..
            _ ≤ (m <<< k) / m' * m' := Nat.mul_le_mul (Nat.log2_self_le hq)
                (Nat.log2_self_le (Nat.ne_of_gt hm'))
            _ ≤ m <<< k := Nat.div_mul_le_self _ _
        have hlt := shiftLeft_lt (Nat.lt_log2_self (n := m)) k
        have hlog := (Nat.pow_lt_pow_iff_right (by decide)).mp (Nat.lt_of_le_of_lt hle hlt)
        simp only [totalExponent] at hu hv hshift ⊢
        omega

/-! ## Doubles -/

theorem below_float_div {x y : Float} {t : Int} (hlow : -1023 ≤ t) (hhigh : t ≤ 970)
    (hx : Below t x.toModel.unpack) (hy : FromOne y.toModel.unpack) :
    Below (t + 1) (x / y).toModel.unpack :=
  (below_div (by omega) hx hy).pack (by omega) (by omega)

theorem isFinite_neg {x : Float} (h : isFinite x = true) : isFinite (-x) = true := by
  rw [isFinite_eq] at h ⊢
  change (Float.Model.pack x.toModel.unpack.neg).unpack.isFinite = true
  cases hx : x.toModel.unpack with
  | infinity s =>
      rw [hx] at h
      cases h
  | notANumber =>
      rw [hx] at h
      cases h
  | zero s => cases s <;> rfl
  | finite s m e hm =>
      exact (below_pack (exponent_le_of_unpack hx) (Int.le_max_left _ _)
        (Int.le_max_right _ _)).isFinite

/-- A product of finite numbers that does not overflow is finite. -/
theorem isFinite_mul {x y : Float} (hx : isFinite x = true) (hy : isFinite y = true)
    (hxy : (x * y).isInf = false) : isFinite (x * y) = true := by
  rw [isFinite_eq] at hx hy ⊢
  obtain ⟨t, ht, hx⟩ := exists_below hx
  obtain ⟨t', ht', hy⟩ := exists_below hy
  have hmul := (below_mul (by omega) hx hy).isFinite
  rcases isFinite_or_isInf_pack hmul with hfinite | hinf
  · exact hfinite
  · exact absurd hinf (Bool.eq_false_iff.mp hxy)

end Matinee.Number
