/-
# `Matinee.Proofs.Json.Real` — every finite double is written as a number in range

The digits of a double lie half a unit above it at most (`shortest_le`), and the
parts of its text have the size of those digits.  Reading rounds three times: the
significand, the power of ten and their product.  Below `safeSize` that cannot
reach the infinite, and the three doubles above it are read out one by one.  The
number read need not be the one written; `ReadsBack` says so where it is.
-/
import Mathlib
import Matinee.Proofs.Json.Finite
import Matinee.Proofs.Json.Numeral
import Matinee.Proofs.Number.Rounding
import Matinee.Proofs.Number.Shortest

namespace Matinee.Json

namespace Number

open Matinee.Number (AtMost isFinite ofDigits digits Decimal FloatFormat plainFormat)

/-! ## Scaling -/

/-- The size of the fourth double from the top, and half a unit more. -/
def safeSize : ℚ := (2 ^ 54 - 7) * 2 ^ 970

theorem safeSize_lt : safeSize < 2 ^ 1024 := by
  have htop : (2 : ℚ) ^ 1024 = 2 ^ 54 * 2 ^ 970 := by rw [← pow_add]
  rw [safeSize, htop]
  exact mul_lt_mul_of_pos_right (by norm_num) (by positivity)

theorem lt_of_tenPower_le {k : Nat} (h : (10 : ℚ) ^ k ≤ safeSize) : k < 309 := by
  have htop : ((2 ^ 1024 : Nat) : ℚ) < ((10 ^ 309 : Nat) : ℚ) := Nat.cast_lt.mpr (by decide +kernel)
  rw [Nat.cast_pow, Nat.cast_pow, Nat.cast_ofNat, Nat.cast_ofNat] at htop
  exact (pow_lt_pow_iff_right₀ (by norm_num)).mp ((h.trans_lt safeSize_lt).trans htop)

theorem isSome_scale_of_neg {power : Int} (h : power < 0) (x : Float) (fuel : Nat) :
    (scale x power fuel).isSome = true := by
  induction fuel generalizing x power with
  | zero => rfl
  | succ fuel ih =>
      have hneg : ¬ 0 ≤ power := by omega
      simp only [scale, if_neg hneg]
      split
      · rfl
      split
      · rfl
      · exact ih (by omega) _

theorem isInf_of_isFinite {x : Float} (h : isFinite x = true) : x.isInf = false := by
  rw [Matinee.Number.isFinite_eq] at h
  change x.toModel.unpack.isInf = false
  cases hx : x.toModel.unpack with
  | infinity s =>
      rw [hx] at h
      cases h
  | notANumber => rfl
  | zero s => rfl
  | finite s m e hm => rfl

/-- Rounding twice does not leave the room above `safeSize`. -/
theorem safeSize_rounded_lt :
    safeSize * (1 + 1 / 2 ^ 53) * (1 + 1 / 2 ^ 53) < (2 ^ 54 - 1) * 2 ^ 970 := by
  rw [safeSize, mul_right_comm _ ((2 : ℚ) ^ 970), mul_right_comm _ ((2 : ℚ) ^ 970)]
  exact mul_lt_mul_of_pos_right (by norm_num) (by positivity)

theorem isSome_value? {s : Scaled} (hs : s.significand < 2 ^ 64)
    (h : (s.significand : ℚ) * 10 ^ s.power ≤ safeSize) : s.value?.isSome = true := by
  obtain ⟨n, power⟩ := s
  dsimp only at hs h
  rw [Scaled.value?]
  rcases lt_or_ge power 0 with hneg | hnonneg
  · exact isSome_scale_of_neg hneg _ 5
  obtain ⟨k, rfl⟩ := Int.eq_ofNat_of_zero_le hnonneg
  rw [zpow_natCast] at h
  simp only [scale, Int.natAbs_natCast, if_pos hnonneg]
  split
  · rename_i hk
    have hproduct : isFinite (Float.ofNat n * Float.ofScientific 1 false k) = true := by
      refine Matinee.Number.isFinite_mul_of_lt (Matinee.Number.atMost_ofNat hs)
        (Matinee.Number.atMost_ofScientific Nat.one_pos hk ?_) ?_
      · rw [Nat.cast_one, one_mul]
        exact Matinee.Number.tenPower_lt hk
      · rw [Nat.cast_one, one_mul]
        calc (n : ℚ) * (1 + 1 / 2 ^ 53) * (10 ^ k * (1 + 1 / 2 ^ 53))
            = n * 10 ^ k * (1 + 1 / 2 ^ 53) * (1 + 1 / 2 ^ 53) := by ring
          _ ≤ safeSize * (1 + 1 / 2 ^ 53) * (1 + 1 / 2 ^ 53) := by gcongr
          _ < _ := safeSize_rounded_lt
    rw [isInf_of_isFinite hproduct]
    rfl
  · rename_i hk
    split
    · rfl
    · rename_i hne
      have hpos : (1 : ℚ) ≤ n := by
        refine Nat.one_le_cast.mpr (Nat.pos_of_ne_zero ?_)
        rintro rfl
        exact hne (by decide +kernel)
      have hpower : (10 : ℚ) ^ k ≤ safeSize :=
        (le_mul_of_one_le_left (by positivity) hpos).trans h
      exact absurd (Nat.le_of_lt_succ (lt_of_tenPower_le hpower)) hk

/-! ## The size of a number in text -/

/-- The power of ten that the exponent asks for. -/
def Parts.power (p : Parts) : Int :=
  match p.exponent with
  | none => 0
  | some (negative, ds) => if negative then -(ofDigits ds : Int) else ofDigits ds

/-- The decimal that is written. -/
def Parts.decimal (p : Parts) : Decimal :=
  ⟨ofDigits (p.whole ++ p.fraction.getD []), p.power - (p.fraction.getD []).length⟩

theorem exists_taken (n : Nat) (s : List Char) : ∃ taken, s = taken ++ (absorb n s).2 ∧
    (absorb n s).1 = n * 10 ^ taken.length + ofDigits taken := by
  induction s generalizing n with
  | nil => exact ⟨[], rfl, by simp [absorb, ofDigits]⟩
  | cons c s ih =>
      rw [absorb]
      split
      · obtain ⟨taken, hs, hvalue⟩ := ih (n * 10 + (Matinee.Number.digitValue? c).getD 0)
        refine ⟨c :: taken, congrArg (c :: ·) hs, ?_⟩
        rw [hvalue, Matinee.Number.ofDigits_cons, List.length_cons]
        ring
      · exact ⟨[], rfl, by simp [ofDigits]⟩

theorem scaled_le {whole fraction : List Char} (h : ofDigits whole < 2 ^ 64) (e : Int) :
    ((scaled whole fraction).significand : ℚ) * 10 ^ ((scaled whole fraction).power + e) ≤
      (⟨ofDigits (whole ++ fraction), e - fraction.length⟩ : Decimal).size := by
  have hwhole : absorb 0 whole = (ofDigits whole, []) := by
    rw [absorb_of_fits (by omega), Nat.zero_mul, Nat.zero_add]
  obtain ⟨taken, hfraction, hvalue⟩ := exists_taken (ofDigits whole) fraction
  rw [scaled, hwhole]
  dsimp only
  generalize absorb (ofDigits whole) fraction = rest at hfraction hvalue
  obtain ⟨m, dropped⟩ := rest
  dsimp only at hfraction hvalue ⊢
  have hpower : (([] : List Char).length : Int) - (fraction.length - dropped.length : Nat) + e =
      (e - fraction.length) + dropped.length := by
    rw [hfraction, List.length_append, List.length_nil]
    omega
  have hdigits : m * 10 ^ dropped.length ≤ ofDigits (whole ++ fraction) := by
    rw [hfraction, ← List.append_assoc, Matinee.Number.ofDigits_append,
      Matinee.Number.ofDigits_append whole, hvalue]
    exact Nat.le_add_right _ _
  rw [hpower, zpow_add₀ (by norm_num), zpow_natCast, Decimal.size, mul_left_comm, mul_comm]
  refine mul_le_mul_of_nonneg_right ?_ (by positivity)
  exact_mod_cast hdigits

theorem isSome_magnitude? {p : Parts} (hwhole : ofDigits p.whole < 2 ^ 64)
    (hsize : p.decimal.size ≤ safeSize)
    (hexponent : ∀ e ∈ p.exponent, e.1 = false →
      (∀ c ∈ e.2, Scan.isDigit c = true) ∧ ofDigits e.2 ≤ maxExponent) :
    p.magnitude?.isSome = true := by
  have hsignificand := scaled_lt p.whole (p.fraction.getD [])
  have hle := (scaled_le hwhole p.power).trans hsize
  unfold Parts.magnitude?
  unfold Parts.power at hle
  generalize scaled p.whole (p.fraction.getD []) = s at hsignificand hle
  dsimp only
  generalize p.exponent = exponent at hexponent hle
  cases exponent with
  | none =>
      rw [add_zero] at hle
      exact isSome_value? hsignificand hle
  | some e =>
      obtain ⟨negative, ds⟩ := e
      dsimp only at hle ⊢
      split
      · rename_i e hread
        have he := Matinee.Number.eq_of_readDigits hread
        rw [Nat.zero_mul, Nat.zero_add] at he
        rw [← he] at hle
        exact isSome_value? hsignificand hle
      · rename_i hread
        cases negative with
        | true => rfl
        | false =>
            obtain ⟨hds, hlimit⟩ := hexponent _ rfl rfl
            have hroom : 0 * 10 ^ ds.length + ofDigits ds ≤ maxExponent := by
              rw [Nat.zero_mul, Nat.zero_add]
              exact hlimit
            have hok := Matinee.Number.readDigits_of_le hds hroom
            rw [hok] at hread
            cases hread

/-! ## Laying out -/

/-- The parts in which a decimal is laid out. -/
def Parts.ofDecimal (f : FloatFormat) (negative : Bool) (x : Decimal) : Parts :=
  let ds := digits x.d
  let first : Int := x.e + ds.length - 1
  if f.least ≤ first && first < f.beyond then
    if 0 ≤ x.e then ⟨negative, ds ++ List.replicate x.e.toNat '0', some ['0'], none⟩
    else if 0 ≤ first then
      ⟨negative, ds.take (first.toNat + 1), some (ds.drop (first.toNat + 1)), none⟩
    else ⟨negative, ['0'], some (List.replicate (-first - 1).toNat '0' ++ ds), none⟩
  else
    ⟨negative, ds.take 1, if ds.length = 1 then none else some (ds.drop 1),
      some (decide (first < 0), digits first.natAbs)⟩

theorem text_ofDecimal (f : FloatFormat) (negative : Bool) (x : Decimal) :
    (Parts.ofDecimal f negative x).text = (if negative then ['-'] else []) ++ f.layout x := by
  have hne := Matinee.Number.digits_ne_nil x.d
  unfold Parts.ofDecimal FloatFormat.layout
  generalize digits x.d = ds at hne
  dsimp only
  split
  · split
    · simp [Parts.text]
    split
    · simp [Parts.text]
    · simp [Parts.text]
  · obtain ⟨c, ds, rfl⟩ := List.exists_cons_of_ne_nil hne
    by_cases hfirst : 0 ≤ x.e + ((c :: ds).length : Int) - 1
    · have hneg : ¬ x.e + ((c :: ds).length : Int) - 1 < 0 := by omega
      have habs : (x.e + ((c :: ds).length : Int) - 1).natAbs =
          (x.e + ((c :: ds).length : Int) - 1).toNat := by omega
      rw [habs, if_pos hfirst, decide_eq_false hneg]
      cases ds <;> simp [Parts.text]
    · have hneg : x.e + ((c :: ds).length : Int) - 1 < 0 := by omega
      have habs : (x.e + ((c :: ds).length : Int) - 1).natAbs =
          (-(x.e + ((c :: ds).length : Int) - 1)).toNat := by omega
      rw [habs, if_neg hfirst, decide_eq_true hneg]
      cases ds <;> simp [Parts.text]

theorem isDigits_append {s t : List Char} (hs : ∀ c ∈ s, Scan.isDigit c = true)
    (ht : IsDigits t) : IsDigits (s ++ t) :=
  ⟨List.append_ne_nil_of_right_ne_nil s ht.1, List.forall_mem_append.mpr ⟨hs, ht.2⟩⟩

theorem isDigit_of_mem_zeros {k : Nat} {c : Char} (h : c ∈ List.replicate k '0') :
    Scan.isDigit c = true := by
  rw [List.eq_of_mem_replicate h]
  decide

theorem wellFormed_ofDecimal (f : FloatFormat) (negative : Bool) {x : Decimal} (hd : 0 < x.d) :
    (Parts.ofDecimal f negative x).WellFormed := by
  have hhead := Matinee.Number.head?_digits hd
  obtain ⟨hne, hdigits⟩ := isDigits_digits x.d
  unfold Parts.ofDecimal
  generalize digits x.d = ds at hhead hne hdigits
  obtain ⟨c, ds, rfl⟩ := List.exists_cons_of_ne_nil hne
  have hc : c ≠ '0' := fun h => hhead (congrArg some h)
  have hzero : IsDigits ['0'] :=
    ⟨List.cons_ne_nil _ _, fun d hd => isDigit_of_mem_zeros (k := 1) hd⟩
  have hwhole {s : List Char} (hs : ∀ d ∈ s, Scan.isDigit d = true) : IsDigits (c :: s) :=
    ⟨List.cons_ne_nil c s, List.forall_mem_cons.mpr ⟨hdigits c List.mem_cons_self, hs⟩⟩
  have hds : ∀ d ∈ ds, Scan.isDigit d = true := (List.forall_mem_cons.mp hdigits).2
  have hnonzero {s : List Char} (h : (c :: s).head? = some '0') : c :: s = ['0'] :=
    absurd (Option.some.inj h) hc
  dsimp only
  split
  · split
    · refine ⟨hwhole fun d hd => ?_, hnonzero, fun s hs => Option.mem_some.mp hs ▸ hzero, nofun⟩
      rcases List.mem_append.mp hd with hd | hd
      · exact hds d hd
      · exact isDigit_of_mem_zeros hd
    split
    · rename_i hneg hfirst
      refine ⟨?_, ?_, ?_, nofun⟩
      · rw [List.take_succ_cons]
        exact hwhole fun d hd => hds d (List.mem_of_mem_take hd)
      · rw [List.take_succ_cons]
        exact hnonzero
      · rintro _ ⟨⟩
        refine ⟨fun hnil => ?_, fun d hd => hdigits d (List.mem_of_mem_drop hd)⟩
        have hlength := List.drop_eq_nil_iff.mp hnil
        omega
    · refine ⟨hzero, fun _ => rfl, ?_, nofun⟩
      rintro _ ⟨⟩
      exact isDigits_append (fun d hd => isDigit_of_mem_zeros hd) ⟨hne, hdigits⟩
  · refine ⟨hwhole nofun, hnonzero, fun s hs => ?_, ?_⟩
    · split at hs
      · cases hs
      · rename_i hmore
        obtain rfl := Option.mem_some.mp hs
        refine ⟨?_, hds⟩
        rintro rfl
        exact hmore rfl
    · rintro _ ⟨⟩
      exact isDigits_digits _

theorem size_ofDecimal (f : FloatFormat) (negative : Bool) (x : Decimal) :
    (Parts.ofDecimal f negative x).decimal.size = x.size := by
  have hvalue := Matinee.Number.ofDigits_digits x.d
  have hlength := List.length_pos_iff.mpr (Matinee.Number.digits_ne_nil x.d)
  unfold Parts.ofDecimal
  generalize digits x.d = ds at hvalue hlength
  obtain ⟨d, e⟩ := x
  dsimp only at hvalue ⊢
  have hsame {p : Parts} (hdigits : ofDigits (p.whole ++ p.fraction.getD []) = d)
      (hpower : p.power - (p.fraction.getD []).length = e) :
      p.decimal.size = Decimal.size ⟨d, e⟩ := by
    rw [Parts.decimal, hdigits, hpower]
  split
  · split
    · rename_i hnonneg
      obtain ⟨k, rfl⟩ := Int.eq_ofNat_of_zero_le hnonneg
      have hdigits : ofDigits (ds ++ List.replicate (k : Int).toNat '0' ++ ['0']) =
          d * 10 ^ k * 10 := by
        have hzero : ofDigits ['0'] = 0 := rfl
        rw [Matinee.Number.ofDigits_append, Matinee.Number.ofDigits_append,
          Matinee.Number.ofDigits_zeros, hvalue, hzero, List.length_replicate, Int.toNat_natCast]
        rfl
      have hpower : (10 : ℚ) ^ (0 - ((1 : Nat) : Int)) = 1 / 10 := by norm_num
      rw [Parts.decimal, Decimal.size, Decimal.size]
      simp only [Parts.power, Option.getD_some, hdigits, List.length_singleton, hpower,
        zpow_natCast]
      push_cast
      ring
    split
    · rename_i hneg hfirst
      refine hsame ?_ ?_
      · rw [Option.getD_some, List.take_append_drop, hvalue]
      · simp only [Parts.power, Option.getD_some, List.length_drop]
        omega
    · rename_i hneg hfirst
      refine hsame ?_ ?_
      · have hzero : (Matinee.Number.digitValue? '0').getD 0 = 0 := rfl
        rw [Option.getD_some, List.singleton_append, Matinee.Number.ofDigits_cons,
          Matinee.Number.ofDigits_append, Matinee.Number.ofDigits_zeros, hvalue, hzero,
          Nat.zero_mul, Nat.zero_mul, Nat.zero_add, Nat.zero_add]
      · simp only [Parts.power, Option.getD_some, List.length_append, List.length_replicate]
        omega
  · have hrest : (if ds.length = 1 then none else some (ds.drop 1)).getD [] = ds.drop 1 := by
      split
      · rename_i hone
        rw [Option.getD_none, List.drop_of_length_le hone.le]
      · rfl
    refine hsame ?_ ?_
    · rw [hrest, List.take_append_drop, hvalue]
    · rw [hrest]
      simp only [Parts.power, Matinee.Number.ofDigits_digits, decide_eq_true_eq, List.length_drop]
      split <;> omega

/-- Positional digits before the point fit, and so do those before an exponent. -/
theorem length_whole_le (f : FloatFormat) (negative : Bool) (x : Decimal) :
    ((Parts.ofDecimal f negative x).whole.length : Int) ≤ max f.beyond 1 := by
  have hlength := List.length_pos_iff.mpr (Matinee.Number.digits_ne_nil x.d)
  unfold Parts.ofDecimal
  generalize digits x.d = ds at hlength
  dsimp only
  split
  · rename_i hplaced
    rw [Bool.and_eq_true, decide_eq_true_eq, decide_eq_true_eq] at hplaced
    split
    · rw [List.length_append, List.length_replicate]
      omega
    split
    · rw [List.length_take]
      omega
    · rw [List.length_singleton]
      omega
  · rw [List.length_take]
    omega

theorem tenPower_le_size {x : Decimal} (hd : 0 < x.d) :
    (10 : ℚ) ^ (x.e + (digits x.d).length - 1) ≤ x.size := by
  have hcast : (10 : ℚ) ^ (digits x.d).length ≤ 10 * x.d := by
    exact_mod_cast Matinee.Number.pow_length_le hd
  calc (10 : ℚ) ^ (x.e + (digits x.d).length - 1)
      = 10 ^ (digits x.d).length * (10 ^ x.e * 10⁻¹) := by
        rw [zpow_sub_one₀ (by norm_num), zpow_add₀ (by norm_num), zpow_natCast]
        ring
    _ ≤ 10 * x.d * (10 ^ x.e * 10⁻¹) := mul_le_mul_of_nonneg_right hcast (by positivity)
    _ = x.size := by
        rw [Decimal.size]
        ring

theorem exponent_le {f : FloatFormat} {negative : Bool} {x : Decimal} (hd : 0 < x.d)
    (hsize : x.size ≤ safeSize) :
    ∀ e ∈ (Parts.ofDecimal f negative x).exponent, e.1 = false →
      (∀ c ∈ e.2, Scan.isDigit c = true) ∧ ofDigits e.2 ≤ maxExponent := by
  have hfirst := (tenPower_le_size hd).trans hsize
  unfold Parts.ofDecimal
  dsimp only
  generalize x.e + ((digits x.d).length : Int) - 1 = first at hfirst
  intro e he hpositive
  split at he
  · split at he
    · cases he
    split at he <;> cases he
  · obtain rfl := Option.mem_some.mp he
    rw [decide_eq_false_iff_not, Int.not_lt] at hpositive
    obtain ⟨k, rfl⟩ := Int.eq_ofNat_of_zero_le hpositive
    rw [zpow_natCast] at hfirst
    have hk := lt_of_tenPower_le hfirst
    refine ⟨(isDigits_digits _).2, ?_⟩
    rw [Matinee.Number.ofDigits_digits, Int.natAbs_natCast, maxExponent]
    omega

theorem isSome_value?_of_magnitude? {p : Parts}
    (hreal : p.fraction.isSome = true ∨ p.exponent.isSome = true)
    (h : p.magnitude?.isSome = true) : ∃ v, p.value? = some v := by
  obtain ⟨x, hx⟩ := Option.isSome_iff_exists.mp h
  have hcond : (p.fraction.isSome || p.exponent.isSome || !(absorb 0 p.whole).2.isEmpty) = true := by
    rcases hreal with hreal | hreal <;> simp [hreal]
  exact ⟨_, by rw [Parts.value?, hx]; exact if_pos hcond⟩

theorem real_ofDecimal (f : FloatFormat) (negative : Bool) (x : Decimal) :
    (Parts.ofDecimal f negative x).fraction.isSome = true ∨
      (Parts.ofDecimal f negative x).exponent.isSome = true := by
  unfold Parts.ofDecimal
  dsimp only
  split
  · split
    · exact Or.inl rfl
    split <;> exact Or.inl rfl
  · exact Or.inr rfl

theorem exists_value? (negative : Bool) {x : Decimal} (hd : 0 < x.d) (hsize : x.size ≤ safeSize) :
    ∃ v, (Parts.ofDecimal plainFormat negative x).value? = some v := by
  refine isSome_value?_of_magnitude? (real_ofDecimal _ _ _) (isSome_magnitude? ?_ ?_ ?_)
  · have hlength : (Parts.ofDecimal plainFormat negative x).whole.length ≤ 16 := by
      have hle := length_whole_le plainFormat negative x
      change _ ≤ (16 : Int) at hle
      omega
    calc ofDigits (Parts.ofDecimal plainFormat negative x).whole
        < 10 ^ (Parts.ofDecimal plainFormat negative x).whole.length := Matinee.Number.ofDigits_lt _
      _ ≤ 10 ^ 16 := Nat.pow_le_pow_right (by decide) hlength
      _ < 2 ^ 64 := by decide
  · rwa [size_ofDecimal]
  · exact exponent_le hd hsize

/-- The three doubles above are in range as well. -/
theorem exists_value?_of_top (negative : Bool) {m : Nat} (hlow : 2 ^ 53 - 3 ≤ m) (hhigh : m < 2 ^ 53) :
    ∃ v, (Parts.ofDecimal plainFormat negative (Matinee.Number.shortest m 971)).value? = some v := by
  rw [← Option.isSome_iff_exists]
  have hall : ∀ k < 3, ∀ negative : Bool, (Parts.ofDecimal plainFormat negative
      (Matinee.Number.shortest (2 ^ 53 - 3 + k) 971)).value?.isSome = true := by
    decide +kernel
  have hm : m = 2 ^ 53 - 3 + (m - (2 ^ 53 - 3)) := by omega
  rw [hm]
  exact hall _ (by omega) negative

theorem half_above_le {m : Nat} {q : Int} (hm : m < 2 ^ 53) (hq : q ≤ 971)
    (htop : ¬ (q = 971 ∧ 2 ^ 53 - 3 ≤ m)) : ((m : ℚ) + 1 / 2) * 2 ^ q ≤ safeSize := by
  rcases eq_or_lt_of_le hq with rfl | hq
  · have hle : (m : ℚ) ≤ 2 ^ 53 - 4 := by
      have hnat : m + 4 ≤ 2 ^ 53 := by omega
      have hcast : (m : ℚ) + 4 ≤ 2 ^ 53 := by exact_mod_cast hnat
      exact le_sub_iff_add_le.mpr hcast
    have hdouble : (2 : ℚ) ^ (971 : Int) = 2 * 2 ^ 970 := by
      rw [← pow_succ', ← zpow_natCast]
      rfl
    rw [hdouble, ← mul_assoc, safeSize]
    refine mul_le_mul_of_nonneg_right ?_ (by positivity)
    linarith
  · have hle : (m : ℚ) + 1 / 2 ≤ 2 ^ 54 - 7 := by
      have hcast : (m : ℚ) < 2 ^ 53 := by exact_mod_cast hm
      linarith
    have hpow : (2 : ℚ) ^ q ≤ 2 ^ 970 := by
      rw [← zpow_natCast]
      exact zpow_le_zpow_right₀ one_le_two (by omega)
    exact mul_le_mul hle hpow (by positivity) (by norm_num)

end Number

/-! ## Real numbers -/

open Matinee.Number (isFinite)

theorem isNumeral_zero (negative : Bool) :
    ∃ v, IsNumeral ((if negative then ['-'] else []) ++ ['0', '.', '0']) v := by
  have hdigits : Number.IsDigits ['0'] :=
    ⟨List.cons_ne_nil _ _, fun d hd => Number.isDigit_of_mem_zeros (k := 1) hd⟩
  have hparts : Number.Parts.WellFormed ⟨negative, ['0'], some ['0'], none⟩ := by
    refine ⟨hdigits, fun _ => rfl, ?_, nofun⟩
    rintro _ ⟨⟩
    exact hdigits
  have htext : (if negative then ['-'] else []) ++ ['0', '.', '0'] =
      Number.Parts.text ⟨negative, ['0'], some ['0'], none⟩ := by cases negative <;> rfl
  have hvalue : ∀ negative,
      (Number.Parts.value? ⟨negative, ['0'], some ['0'], none⟩).isSome = true := by
    decide +kernel
  obtain ⟨v, hv⟩ := Option.isSome_iff_exists.mp (hvalue negative)
  exact ⟨v, htext ▸ isNumeral_text hparts hv⟩

/-- Every finite double is written as a number in range. -/
theorem exists_isNumeral {x : Float} (h : isFinite x = true) : ∃ v, IsNumeral (realText x) v := by
  unfold isFinite at h
  unfold realText Matinee.Number.floatText?
  cases hmeaning : Matinee.Number.meaning x with
  | nan =>
      rw [hmeaning] at h
      cases h
  | infinite negative =>
      rw [hmeaning] at h
      cases h
  | finite b =>
      obtain ⟨negative, m, q⟩ := b
      obtain ⟨hm, hlow, hhigh⟩ := Matinee.Number.range_of_meaning hmeaning
      dsimp only
      rw [Option.getD_some]
      by_cases hzero : m = 0
      · rw [hzero]
        exact isNumeral_zero negative
      · have hne : (m == 0) = false := beq_eq_false_iff_ne.mpr hzero
        have hpos := Nat.pos_of_ne_zero hzero
        obtain ⟨hd, hsize⟩ := Matinee.Number.shortest_le hpos hm hlow hhigh
        obtain ⟨v, hv⟩ : ∃ v, (Number.Parts.ofDecimal Matinee.Number.plainFormat negative
            (Matinee.Number.shortest m q)).value? = some v := by
          by_cases htop : q = 971 ∧ 2 ^ 53 - 3 ≤ m
          · obtain ⟨rfl, htop⟩ := htop
            exact Number.exists_value?_of_top negative htop hm
          · exact Number.exists_value? negative hd
              (hsize.trans (Number.half_above_le hm hhigh htop))
        simp only [hne, Bool.false_eq_true, if_false, ← Number.text_ofDecimal]
        exact ⟨v, isNumeral_text (Number.wellFormed_ofDecimal _ _ hd) hv⟩

end Matinee.Json
