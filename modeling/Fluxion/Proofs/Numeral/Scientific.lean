/-
# From decimals to numbers

A decimal is turned into a number on one of three ways, by size: a product or a quotient of two
numbers that are exact, or a product or a quotient of long mantissas.  Each of them rounds once,
and rounds a description of the exact value, so that the number depends on the value of the
decimal only (`toFloat_congr`).  A value that needs no rounding is kept (`toFloat_of_value`).
-/
import Fluxion.Numeral.Decimal
import Fluxion.Proofs.Numeral.Packing

namespace Fluxion.Numeral

open Float.Model Float.Model.UnpackedFloat

/-! ## 1. Rounded values -/

/-- The exact value `x` is rounded to `v`. -/
def RoundsTo (x : ℚ) (v : UnpackedFloat) : Prop :=
  ∃ m e acc, Approximates x m e acc ∧ v = roundWithAccuracy Format.binary64 .positive m e acc

theorem RoundsTo.unique {x : ℚ} {v v' : UnpackedFloat} (h : RoundsTo x v) (h' : RoundsTo x v') :
    v = v' := by
  obtain ⟨m, e, acc, happrox, rfl⟩ := h
  obtain ⟨m', e', acc', happrox', rfl⟩ := h'
  exact round_congr .positive happrox happrox'

theorem IsCanonical.roundsTo {m : Nat} {e : ℤ} (h : IsCanonical m e) :
    RoundsTo ((m : ℚ) * 2 ^ e) (.finite .positive m e h.pos) :=
  ⟨m, e, .exact, h.approximates, (round_of_isCanonical .positive h).symm⟩

/-- A rounded value, packed, has no sign. -/
theorem RoundsTo.unsigned {x : ℚ} {v : UnpackedFloat} (h : RoundsTo x v) :
    Unsigned (Float.ofModel (Float.Model.pack v)) := by
  obtain ⟨m, e, acc, happrox, rfl⟩ := h
  obtain ⟨n, -, ⟨-, hzero⟩ | ⟨m', e', hcanonical, -, hfinite⟩⟩ := round_form .positive happrox
  · rw [hzero]
    have hpacked : Float.ofModel (Float.Model.pack (.zero .positive)) = 0.0 := by decide +kernel
    rw [hpacked]
    exact .zero
  · rw [hfinite]
    rcases le_or_gt e' 971 with hle | hgt
    · exact .finite hcanonical hle
    · have hpacked : ofParts m' e' hcanonical.pos = infinity :=
        ofParts_of_overflow hcanonical.pos (by omega)
      rw [ofParts] at hpacked
      rw [hpacked]
      exact .infinite

/-! ## 2. Products and quotients -/

/-- A product of finite numbers rounds the product of their values. -/
theorem roundsTo_mul {m₁ m₂ : Nat} {e₁ e₂ : ℤ} (h₁ : 0 < m₁) (h₂ : 0 < m₂)
    (hlong : 2 ^ 52 ≤ m₁ * m₂) :
    RoundsTo (((m₁ : ℚ) * 2 ^ e₁) * ((m₂ : ℚ) * 2 ^ e₂))
      (UnpackedFloat.mul Format.binary64 (.finite .positive m₁ e₁ h₁)
        (.finite .positive m₂ e₂ h₂)) := by
  refine ⟨m₁ * m₂, e₁ + e₂, .exact, ?_, rfl⟩
  have hvalue : ((m₁ : ℚ) * 2 ^ e₁) * ((m₂ : ℚ) * 2 ^ e₂) =
      ((m₁ * m₂ : Nat) : ℚ) * 2 ^ (e₁ + e₂) := by
    rw [zpow_add₀ (by norm_num), Nat.cast_mul]
    ring
  rw [hvalue]
  exact approximates_exact _ hlong

/-- A quotient of finite numbers rounds the quotient of their values. -/
theorem roundsTo_div {m₁ m₂ : Nat} {e₁ e₂ : ℤ} (h₁ : 0 < m₁) (h₂ : 0 < m₂) :
    RoundsTo (((m₁ : ℚ) * 2 ^ e₁) / ((m₂ : ℚ) * 2 ^ e₂))
      (UnpackedFloat.div Format.binary64 (.finite .positive m₁ e₁ h₁)
        (.finite .positive m₂ e₂ h₂)) :=
  ⟨_, _, _, approximates_quotient e₁ e₂ h₁ h₂, rfl⟩

/-- The number `x` is a positive finite one with the exact value `q` and a long mantissa. -/
def HasValue (x : Float) (q : ℚ) : Prop :=
  ∃ (m : Nat) (e : ℤ) (h : 0 < m), x.toModel.unpack = .finite .positive m e h ∧
    2 ^ 52 ≤ m ∧ q = (m : ℚ) * 2 ^ e

theorem HasValue.mul {x y : Float} {p q : ℚ} (hx : HasValue x p) (hy : HasValue y q) :
    ∃ v, RoundsTo (p * q) v ∧ x * y = Float.ofModel (Float.Model.pack v) := by
  obtain ⟨m₁, e₁, h₁, hunpack₁, hlong, rfl⟩ := hx
  obtain ⟨m₂, e₂, h₂, hunpack₂, -, rfl⟩ := hy
  have hproduct : x * y = Float.ofModel (Float.Model.pack
      (UnpackedFloat.mul Format.binary64 x.toModel.unpack y.toModel.unpack)) := rfl
  rw [hunpack₁, hunpack₂] at hproduct
  exact ⟨_, roundsTo_mul h₁ h₂ (Nat.le_trans hlong (Nat.le_mul_of_pos_right m₁ h₂)), hproduct⟩

theorem HasValue.div {x y : Float} {p q : ℚ} (hx : HasValue x p) (hy : HasValue y q) :
    ∃ v, RoundsTo (p / q) v ∧ x / y = Float.ofModel (Float.Model.pack v) := by
  obtain ⟨m₁, e₁, h₁, hunpack₁, -, rfl⟩ := hx
  obtain ⟨m₂, e₂, h₂, hunpack₂, -, rfl⟩ := hy
  have hquotient : x / y = Float.ofModel (Float.Model.pack
      (UnpackedFloat.div Format.binary64 x.toModel.unpack y.toModel.unpack)) := rfl
  rw [hunpack₁, hunpack₂] at hquotient
  exact ⟨_, roundsTo_div h₁ h₂, hquotient⟩

/-- A short natural number has an exact float. -/
theorem hasValue_toFloat {m : Nat} (hm : 0 < m) (hlt : m < 2 ^ 53) :
    HasValue m.toUInt64.toFloat m := by
  have hlog : m.log2 ≤ 52 := by
    have hless : m.log2 < 53 := (Nat.log2_lt hm.ne').mpr hlt
    omega
  have hself : 2 ^ m.log2 ≤ m := Nat.log2_self_le hm.ne'
  have hnext : m < 2 ^ (m.log2 + 1) := Nat.lt_log2_self
  obtain ⟨k, hk⟩ : ∃ k, m.log2 + k = 52 := ⟨52 - m.log2, by omega⟩
  have hlow : 2 ^ 52 ≤ m * 2 ^ k := by
    rw [← hk, pow_add]
    exact Nat.mul_le_mul_right _ hself
  have hhigh : m * 2 ^ k < 2 ^ 53 := by
    have hpow : (2 : Nat) ^ 53 = 2 ^ (m.log2 + 1) * 2 ^ k := by
      rw [← pow_add]
      congr 1
      omega
    rw [hpow]
    exact Nat.mul_lt_mul_of_pos_right hnext (by positivity)
  have hcanonical : IsCanonical (m * 2 ^ k) (-k) :=
    ⟨by omega, hhigh, by omega, Or.inl hlow⟩
  have hnat : m.toUInt64.toNat = m := by
    rw [Nat.toUInt64_eq]
    exact UInt64.toNat_ofNat_of_lt' (by norm_num; omega)
  have hrounded : UnpackedFloat.ofUInt64 Format.binary64 m.toUInt64 =
      .finite .positive (m * 2 ^ k) (-k) hcanonical.pos := by
    have hcompare : compare (m : ℤ) 0 = .gt := compare_gt_iff_gt.mpr (by exact_mod_cast hm)
    have htarget : Format.binary64.targetExponent (totalExponent m 0) = -k := by
      simp [Format.targetExponent, totalExponent, Format.mantissaBits, Format.minExponent]
      omega
    have hshift : (- -(k : ℤ)).toNat = k := by omega
    unfold UnpackedFloat.ofUInt64 UnpackedFloat.ofNat UnpackedFloat.ofInt UnpackedFloat.normalize
    rw [hnat, hcompare]
    simp only [UnpackedFloat.round, Int.toNat_natCast, htarget, decreaseExponent,
      Nat.shiftLeft_eq, zero_sub, hshift]
    exact round_of_isCanonical .positive hcanonical
  refine ⟨m * 2 ^ k, -k, hcanonical.pos, ?_, hlow, ?_⟩
  · have hmodel : m.toUInt64.toFloat.toModel.unpack =
        (Float.Model.pack (UnpackedFloat.ofUInt64 Format.binary64 m.toUInt64)).unpack := rfl
    rw [hmodel, hrounded]
    exact unpack_ofParts hcanonical (by omega)
  · rw [Nat.cast_mul, Nat.cast_pow, Nat.cast_ofNat, zpow_neg, zpow_natCast, mul_assoc,
      mul_inv_cancel₀ (by positivity), mul_one]

/-- The number unpacks to the given power of ten, with a long mantissa. -/
def isPowerOfTen (k : Nat) (x : Float) : Bool :=
  match x.toModel.unpack with
  | .finite .positive m e _ =>
    m * 2 ^ e.toNat == 10 ^ k * 2 ^ (-e).toNat && decide (2 ^ 52 ≤ m)
  | _ => false

theorem hasValue_of_isPowerOfTen {k : Nat} {x : Float} (h : isPowerOfTen k x = true) :
    HasValue x (10 ^ k) := by
  unfold isPowerOfTen at h
  split at h
  · next m e hm hunpack =>
    simp only [Bool.and_eq_true, beq_iff_eq, decide_eq_true_eq] at h
    refine ⟨m, e, hm, hunpack, h.2, ?_⟩
    have hcast : (m : ℚ) * 2 ^ e.toNat = 10 ^ k * 2 ^ (-e).toNat := by exact_mod_cast h.1
    rw [zpow_eq_div (by norm_num) e, ← mul_div_assoc, hcast,
      mul_div_cancel_right₀ _ (by positivity)]
  · cases h

theorem isPowerOfTen_table : ∀ i : Fin Float.exactlyRepresentablePowersOfTen.size,
    isPowerOfTen i Float.exactlyRepresentablePowersOfTen[i] = true := by
  decide +kernel

/-- The tabled powers of ten are exact. -/
theorem powers_hasValue {k : Nat} (hsize : k < Float.exactlyRepresentablePowersOfTen.size) :
    HasValue Float.exactlyRepresentablePowersOfTen[k] (10 ^ k) :=
  hasValue_of_isPowerOfTen (isPowerOfTen_table ⟨k, hsize⟩)

/-! ## 3. The three ways -/

/-- A short mantissa is multiplied or divided by an exact power of ten. -/
theorem short_roundsTo {m : Nat} {e : ℤ} (hm : 0 < m) (hshort : m < 2 ^ 53)
    (hsmall : e.natAbs ≤ 22) :
    ∃ v, RoundsTo ((m : ℚ) * 10 ^ e) v ∧
      Float.ofScientific m (decide (e < 0)) e.natAbs = Float.ofModel (Float.Model.pack v) := by
  have hnumber : HasValue m.toUInt64.toFloat m := hasValue_toFloat hm hshort
  have hpower := powers_hasValue (k := e.natAbs)
    (by simp [Float.exactlyRepresentablePowersOfTen]; omega)
  unfold Float.ofScientific
  rw [dif_pos ⟨hshort, hsmall⟩]
  by_cases hneg : e < 0
  · have hvalue : (m : ℚ) * 10 ^ e = m / 10 ^ e.natAbs := by
      have heq : e = -(e.natAbs : ℤ) := by omega
      rw [heq, zpow_neg, zpow_natCast, Int.natAbs_neg, Int.natAbs_natCast, div_eq_mul_inv]
    rw [hvalue]
    simp only [hneg, decide_true, if_true]
    exact hnumber.div hpower
  · have hvalue : (m : ℚ) * 10 ^ e = m * 10 ^ e.natAbs := by
      have heq : e = (e.natAbs : ℤ) := by omega
      rw [heq, zpow_natCast, Int.natAbs_natCast]
    rw [hvalue]
    simp only [hneg, decide_false]
    exact hnumber.mul hpower

/-- Any other mantissa is multiplied or divided by a power of ten with a mantissa as long as it
takes. -/
theorem long_roundsTo {m : Nat} {e : ℤ} (hm : 0 < m) (hhigh : e ≤ 2048)
    (hlow : -(2048 + (m.log2 : ℤ)) ≤ e) :
    RoundsTo ((m : ℚ) * 10 ^ e) (UnpackedFloat.ofScientific Format.binary64 m e) := by
  have hbits : (2 : ℤ) ^ Format.binary64.exponentBits = 2048 := by norm_num
  unfold UnpackedFloat.ofScientific
  rw [dif_neg hm.ne', if_neg (by rw [hbits]; omega), if_neg (by rw [hbits]; omega)]
  by_cases hneg : 0 ≤ e
  · rw [if_pos hneg]
    have hvalue : (m : ℚ) * 10 ^ e =
        ((m <<< Format.binary64.mantissaBits : Nat) : ℚ) *
            2 ^ (-(Format.binary64.mantissaBits : ℤ)) *
          (((10 ^ e.toNat : Nat) : ℚ) * 2 ^ (0 : ℤ)) := by
      have heq : e = (e.toNat : ℤ) := by omega
      rw [Nat.shiftLeft_eq, Nat.cast_mul, Nat.cast_pow, Nat.cast_ofNat, zpow_neg, zpow_natCast,
        mul_inv_cancel_right₀ (by positivity), zpow_zero, mul_one, Nat.cast_pow, Nat.cast_ofNat]
      rw [heq, zpow_natCast, Int.toNat_natCast]
    have hmantissa : Format.binary64.mantissaBits = 53 := rfl
    have hten : 0 < 10 ^ e.toNat := by positivity
    rw [hvalue]
    refine roundsTo_mul _ _ ?_
    rw [Nat.shiftLeft_eq, hmantissa]
    calc 2 ^ 52 ≤ m * 2 ^ 53 := by omega
      _ ≤ m * 2 ^ 53 * 10 ^ e.toNat := Nat.le_mul_of_pos_right _ hten
  · rw [if_neg hneg]
    have hvalue : (m : ℚ) * 10 ^ e =
        (m : ℚ) * 2 ^ (0 : ℤ) / (((10 ^ (-e).toNat : Nat) : ℚ) * 2 ^ (0 : ℤ)) := by
      have heq : e = -((-e).toNat : ℤ) := by omega
      rw [zpow_zero, mul_one, mul_one, Nat.cast_pow, Nat.cast_ofNat]
      rw [heq, zpow_neg, zpow_natCast, neg_neg, Int.toNat_natCast, div_eq_mul_inv]
    rw [hvalue]
    exact roundsTo_div _ _

/-- **Whichever way is taken, the exact value is rounded once.** -/
theorem ofScientific_roundsTo {m : Nat} {e : ℤ} (hm : 0 < m) (hhigh : e ≤ 2048)
    (hlow : -(2048 + (m.log2 : ℤ)) ≤ e) :
    ∃ v, RoundsTo ((m : ℚ) * 10 ^ e) v ∧
      Float.ofScientific m (decide (e < 0)) e.natAbs = Float.ofModel (Float.Model.pack v) := by
  by_cases hfast : m < 2 ^ 53 ∧ e.natAbs ≤ 22
  · exact short_roundsTo hm hfast.1 hfast.2
  · have hexponent : (if decide (e < 0) = true then Int.negOfNat e.natAbs
        else Int.ofNat e.natAbs) = e := by
      by_cases hneg : e < 0
      · simp only [hneg, decide_true, if_true, Int.negOfNat_eq, Int.ofNat_eq_natCast]
        omega
      · simp only [hneg, decide_false, Bool.false_eq_true, if_false, Int.ofNat_eq_natCast]
        omega
    unfold Float.ofScientific
    rw [dif_neg hfast, hexponent]
    exact ⟨_, long_roundsTo hm hhigh hlow, rfl⟩

/-! ## 4. Decimals -/

/-- The powers of ten that bound the positive finite numbers. -/
theorem IsCanonical.log_bounds {m : Nat} {e : ℤ} (h : IsCanonical m e) (he : e ≤ 971) :
    -324 ≤ Int.log 10 ((m : ℚ) * 2 ^ e) ∧ Int.log 10 ((m : ℚ) * 2 ^ e) < 309 := by
  have hleast := h.least
  constructor
  · have hone : (1 : ℚ) ≤ m := by exact_mod_cast h.pos
    have hpowers : (2 : ℚ) ^ 1074 ≤ 10 ^ 324 := by
      exact_mod_cast (by decide +kernel : 2 ^ 1074 ≤ 10 ^ 324)
    rw [le_log_ten_iff h.value_pos]
    calc (10 : ℚ) ^ (-324 : ℤ) = (10 ^ 324)⁻¹ := rfl
      _ ≤ (2 ^ 1074)⁻¹ := inv_anti₀ (by positivity) hpowers
      _ = 2 ^ (-1074 : ℤ) := rfl
      _ ≤ 2 ^ e := zpow_le_zpow_right₀ (by norm_num) hleast
      _ ≤ m * 2 ^ e := le_mul_of_one_le_left (by positivity) hone
  · have hlt : (m : ℚ) < 2 ^ 53 := by exact_mod_cast h.lt
    have hpowers : (2 : ℚ) ^ 53 * 2 ^ 971 < 10 ^ 309 := by
      exact_mod_cast (by decide +kernel : 2 ^ 53 * 2 ^ 971 < 10 ^ 309)
    rw [log_ten_lt_iff h.value_pos]
    calc (m : ℚ) * 2 ^ e ≤ 2 ^ 53 * 2 ^ (971 : ℤ) := by
          gcongr
          norm_num
      _ < 10 ^ (309 : ℤ) := hpowers

/-- A positive natural number lies between the powers of ten that its digit count names. -/
theorem digitCount_bounds {n : Nat} (h : n ≠ 0) :
    0 < digitCount n ∧ 10 ^ (digitCount n - 1) ≤ n ∧ n < 10 ^ digitCount n := by
  have hcount : 0 < digitCount n := Nat.length_toDigits_pos
  have hupper : n < 10 ^ digitCount n :=
    (Nat.length_toDigits_le_iff (by norm_num) hcount).mp (Nat.le_refl _)
  refine ⟨hcount, ?_, hupper⟩
  rcases Nat.eq_or_lt_of_le hcount with hone | hmore
  · rw [← hone]
    exact Nat.one_le_iff_ne_zero.mpr h
  · by_contra hless
    have hshort : digitCount n ≤ digitCount n - 1 :=
      (Nat.length_toDigits_le_iff (by norm_num) (by omega)).mpr (by omega)
    omega

namespace Decimal

/-- The exact value of a decimal. -/
def value (d : Decimal) : ℚ := (d.digits : ℚ) * 10 ^ d.exponent

theorem value_eq_zero_iff {d : Decimal} : d.value = 0 ↔ d.digits = 0 := by
  have hpos : (0 : ℚ) < 10 ^ d.exponent := by positivity
  rw [value, mul_eq_zero, or_iff_left hpos.ne', Nat.cast_eq_zero]

theorem digits_ne_zero {d : Decimal} (h : d.value ≠ 0) : d.digits ≠ 0 :=
  value_eq_zero_iff.not.mp h

theorem value_pos {d : Decimal} (h : d.digits ≠ 0) : 0 < d.value := by
  have hdigits : (0 : ℚ) < d.digits := by exact_mod_cast Nat.pos_of_ne_zero h
  unfold value
  positivity

/-- The point of a positive decimal is the place of its first digit. -/
theorem log_value {d : Decimal} (h : d.digits ≠ 0) : Int.log 10 d.value + 1 = d.point := by
  obtain ⟨hcount, hlow, hhigh⟩ := digitCount_bounds h
  have hpos : (0 : ℚ) < 10 ^ d.exponent := by positivity
  have hlow' : (10 : ℚ) ^ (digitCount d.digits - 1) ≤ d.digits := by exact_mod_cast hlow
  have hhigh' : (d.digits : ℚ) < 10 ^ digitCount d.digits := by exact_mod_cast hhigh
  have hlog : Int.log 10 d.value = d.point - 1 := by
    refine log_eq_of_bounds (by norm_num) (value_pos h) ?_ ?_
    · calc ((10 : ℕ) : ℚ) ^ (d.point - 1) =
            10 ^ (digitCount d.digits - 1) * 10 ^ d.exponent := by
            rw [Nat.cast_ofNat]
            exact (pow_mul_zpow (by norm_num) (by unfold point; omega)).symm
        _ ≤ d.digits * 10 ^ d.exponent := by gcongr
    · calc d.value < 10 ^ digitCount d.digits * 10 ^ d.exponent := by
            unfold value
            gcongr
        _ = ((10 : ℕ) : ℚ) ^ (d.point - 1 + 1) := by
            rw [Nat.cast_ofNat]
            exact pow_mul_zpow (by norm_num) (by unfold point; omega)
  omega

/-- A positive decimal has its point in front of a place just when it lies below the power of
ten of that place. -/
theorem point_le_iff {d : Decimal} (h : 0 < d.value) {k : ℤ} : d.point ≤ k ↔ d.value < 10 ^ k := by
  have hpoint := log_value (digits_ne_zero h.ne')
  rw [← log_ten_lt_iff h]
  omega

/-- Decimals of one value have the same point. -/
theorem point_congr {d d' : Decimal} (h : d.value = d'.value) (hne : d.digits ≠ 0) :
    d.point = d'.point := by
  have hne' : d'.digits ≠ 0 := digits_ne_zero (h ▸ (value_pos hne).ne')
  rw [← log_value hne, ← log_value hne', h]

/-- A decimal of moderate size is rounded once. -/
theorem toFloat_roundsTo {d : Decimal} (hne : d.digits ≠ 0) (hlow : -330 ≤ d.point)
    (hhigh : d.point ≤ 310) :
    ∃ v, RoundsTo d.value v ∧ d.toFloat = Float.ofModel (Float.Model.pack v) := by
  obtain ⟨hcount, hten, -⟩ := digitCount_bounds hne
  have hlog : digitCount d.digits - 1 ≤ d.digits.log2 := by
    rw [Nat.le_log2 hne]
    calc 2 ^ (digitCount d.digits - 1) ≤ 10 ^ (digitCount d.digits - 1) :=
          Nat.pow_le_pow_left (by norm_num) _
      _ ≤ d.digits := hten
  unfold point at hlow hhigh
  have hfloat : d.toFloat =
      Float.ofScientific d.digits (decide (d.exponent < 0)) d.exponent.natAbs := by
    unfold toFloat point
    rw [if_neg (by omega), if_neg (by omega)]
  rw [hfloat]
  exact ofScientific_roundsTo (Nat.pos_of_ne_zero hne) (by omega) (by omega)

/-- **Decimals of one value are one number.** -/
theorem toFloat_congr {d d' : Decimal} (h : d.value = d'.value) : d.toFloat = d'.toFloat := by
  by_cases hzero : d.digits = 0
  · have hzero' : d'.digits = 0 := by rw [← value_eq_zero_iff, ← h, value_eq_zero_iff, hzero]
    unfold toFloat
    rw [if_pos (Or.inl hzero), if_pos (Or.inl hzero')]
  · have hzero' : d'.digits ≠ 0 := digits_ne_zero (h ▸ (value_pos hzero).ne')
    have hpoint := point_congr h hzero
    by_cases hlow : d.point < -330
    · unfold toFloat
      rw [if_pos (Or.inr hlow), if_pos (Or.inr (hpoint ▸ hlow))]
    · by_cases hhigh : 310 < d.point
      · unfold toFloat
        rw [if_neg (by simp [hzero, hlow]), if_pos hhigh,
          if_neg (by simp [hzero', ← hpoint, hlow]), if_pos (hpoint ▸ hhigh)]
      · obtain ⟨v, hv, hfloat⟩ := toFloat_roundsTo hzero (by omega) (by omega)
        obtain ⟨v', hv', hfloat'⟩ := toFloat_roundsTo hzero' (by omega) (by omega)
        rw [hfloat, hfloat', hv.unique (h ▸ hv')]

/-- A decimal is a number without a sign. -/
theorem toFloat_unsigned (d : Decimal) : Unsigned d.toFloat := by
  by_cases hlow : d.digits = 0 ∨ d.point < -330
  · unfold toFloat
    rw [if_pos hlow]
    exact .zero
  · by_cases hhigh : 310 < d.point
    · unfold toFloat
      rw [if_neg hlow, if_pos hhigh]
      exact .infinite
    · obtain ⟨v, hv, hfloat⟩ := toFloat_roundsTo (d := d) (by tauto) (by omega) (by omega)
      rw [hfloat]
      exact hv.unsigned

/-- **A value that is the value of a number is kept.** -/
theorem toFloat_of_value {d : Decimal} {m : Nat} {e : ℤ} (h : IsCanonical m e) (he : e ≤ 971)
    (hvalue : d.value = (m : ℚ) * 2 ^ e) : d.toFloat = ofParts m e h.pos := by
  have hpos : (0 : ℚ) < d.value := hvalue ▸ h.value_pos
  have hne : d.digits ≠ 0 := digits_ne_zero hpos.ne'
  obtain ⟨hlow, hhigh⟩ := h.log_bounds he
  rw [← hvalue] at hlow hhigh
  have hlog := log_value hne
  obtain ⟨v, hv, hfloat⟩ := toFloat_roundsTo hne (by omega) (by omega)
  rw [hvalue] at hv
  rw [hfloat, hv.unique h.roundsTo, ofParts]

end Decimal

end Fluxion.Numeral
