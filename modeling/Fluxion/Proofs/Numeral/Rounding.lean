/-
# Rounding depends on the value only

A number is rounded from a mantissa, an exponent and a note on what lies behind the mantissa:
nothing, less than half a unit, half a unit, or more.  Different mantissas and exponents describe
the same number, for example on the way through a product or through a quotient.  This file shows
that the result does not depend on the description (`round_congr`).

* `Represents em y`: the mantissa of `em` is `y` rounded down, and its two extra bits say where
  between the mantissa and the next one `y` lies.  A shift to the right halves `y` and keeps the
  relation, and `y` determines `em`.
* `Approximates x m e acc`: the description is one of the number `x`, and it is at least as fine
  as the format, so that rounding shifts to the right only.

The exponent to which rounding shifts follows from the size of `x` (`unit`).  So all descriptions
of `x` are shifted to one place, where they agree.
-/
import Mathlib

namespace Fluxion.Numeral

open Float.Model Float.Model.UnpackedFloat

/-! ## 1. Mantissas with two extra bits -/

/-- The mantissa and its extra bits stand for `y`. -/
def Represents (em : ExtendedMantissa) (y : ℚ) : Prop :=
  match em with
  | ⟨m, false, false⟩ => y = m
  | ⟨m, false, true⟩ => m < y ∧ y < m + 1 / 2
  | ⟨m, true, false⟩ => y = m + 1 / 2
  | ⟨m, true, true⟩ => m + 1 / 2 < y ∧ y < m + 1

/-- The mantissa is the number rounded down. -/
theorem Represents.bounds {em : ExtendedMantissa} {y : ℚ} (h : Represents em y) :
    (em.mantissa : ℚ) ≤ y ∧ y < em.mantissa + 1 := by
  rcases em with ⟨m, r, s⟩
  cases r <;> cases s <;> simp only [Represents] at h
  · constructor <;> linarith
  · constructor <;> linarith
  · constructor <;> linarith
  · constructor <;> linarith

/-- A number has one mantissa and one pair of extra bits. -/
theorem Represents.unique {em em' : ExtendedMantissa} {y : ℚ} (h : Represents em y)
    (h' : Represents em' y) : em = em' := by
  have hmantissa : em.mantissa = em'.mantissa := by
    have hb := h.bounds
    have hb' := h'.bounds
    have hle : (em.mantissa : ℚ) < em'.mantissa + 1 := by linarith
    have hge : (em'.mantissa : ℚ) < em.mantissa + 1 := by linarith
    have hle' : em.mantissa < em'.mantissa + 1 := by exact_mod_cast hle
    have hge' : em'.mantissa < em.mantissa + 1 := by exact_mod_cast hge
    omega
  rcases em with ⟨m, r, s⟩
  rcases em' with ⟨m', r', s'⟩
  obtain rfl : m = m' := hmantissa
  cases r <;> cases s <;> cases r' <;> cases s' <;> simp only [Represents] at h h' <;>
    first | rfl | (exfalso; linarith)

/-- A shift by one place halves the number. -/
theorem Represents.shiftRightOne {em : ExtendedMantissa} {y : ℚ} (h : Represents em y) :
    Represents em.shiftRightOne (y / 2) := by
  rcases em with ⟨m, r, s⟩
  have hsplit : (m : ℚ) = 2 * ((m / 2 : Nat) : ℚ) + ((m % 2 : Nat) : ℚ) := by
    exact_mod_cast (Nat.div_add_mod m 2).symm
  rcases Nat.mod_two_eq_zero_or_one m with hm | hm
  · rw [hm, Nat.cast_zero] at hsplit
    cases r <;> cases s <;> simp only [Represents] at h <;>
      simp [Represents, ExtendedMantissa.shiftRightOne, hm] <;>
      first | (constructor <;> linarith) | linarith
  · rw [hm, Nat.cast_one] at hsplit
    cases r <;> cases s <;> simp only [Represents] at h <;>
      simp [Represents, ExtendedMantissa.shiftRightOne, hm] <;>
      first | (constructor <;> linarith) | linarith

/-- A shift by `n` places divides the number by `2 ^ n`. -/
theorem Represents.shiftRight {em : ExtendedMantissa} {y : ℚ} (h : Represents em y) (n : Nat) :
    Represents (em >>> n) (y / 2 ^ n) := by
  have hrepeat : ∀ k : Nat,
      Represents (k.repeat ExtendedMantissa.shiftRightOne em) (y / 2 ^ k) := by
    intro k
    induction k with
    | zero => simpa [Nat.repeat] using h
    | succ k ih =>
      have hnext := ih.shiftRightOne
      rw [div_div, ← pow_succ] at hnext
      exact hnext
  exact hrepeat n

/-! ## 2. The unit of a number -/

/-- The exponent of the unit in which a positive number is rounded: fifty-three digits, but no
unit below `2 ^ (-1074)`. -/
def unit (x : ℚ) : ℤ := max (Int.log 2 x - 52) (-1074)

/-- Powers are multiplied by adding their exponents, natural or not. -/
theorem pow_mul_zpow {b : ℚ} (hb : b ≠ 0) {n : Nat} {k j : ℤ} (h : n + k = j) :
    b ^ n * b ^ k = b ^ j := by
  rw [← zpow_natCast, ← zpow_add₀ hb, h]

/-- Powers are divided by subtracting their exponents. -/
theorem pow_div_pow {b : ℚ} (hb : b ≠ 0) {n k : Nat} {j : ℤ} (h : (n : ℤ) - k = j) :
    b ^ n / b ^ k = b ^ j := by
  rw [← zpow_natCast, ← zpow_natCast, ← zpow_sub₀ hb, h]

/-- A power with an integer exponent is a quotient of powers with natural ones. -/
theorem zpow_eq_div {b : ℚ} (hb : b ≠ 0) (k : ℤ) : b ^ k = b ^ k.toNat / b ^ (-k).toNat := by
  rw [pow_div_pow hb (by omega : (k.toNat : ℤ) - (-k).toNat = k)]

/-- A logarithm rounded down is what its bounds say. -/
theorem log_eq_of_bounds {b : Nat} (hb : 1 < b) {x : ℚ} (hx : 0 < x) {k : ℤ}
    (hlow : (b : ℚ) ^ k ≤ x) (hhigh : x < (b : ℚ) ^ (k + 1)) : Int.log b x = k := by
  have hge : k ≤ Int.log b x := (Int.zpow_le_iff_le_log hb hx).mp hlow
  have hlt : Int.log b x < k + 1 := (Int.lt_zpow_iff_log_lt hb hx).mp hhigh
  omega

theorem le_log_ten_iff {x : ℚ} (hx : 0 < x) {k : ℤ} : k ≤ Int.log 10 x ↔ 10 ^ k ≤ x := by
  rw [← Int.zpow_le_iff_le_log (by norm_num) hx, Nat.cast_ofNat]

theorem log_ten_lt_iff {x : ℚ} (hx : 0 < x) {k : ℤ} : Int.log 10 x < k ↔ x < 10 ^ k := by
  rw [← Int.lt_zpow_iff_log_lt (by norm_num) hx, Nat.cast_ofNat]

/-- The number of binary digits of a number between `m` and `m + 1` is that of `m`. -/
theorem log_of_bounds {x : ℚ} {m : Nat} {e : ℤ} (hm : m ≠ 0) (hlow : (m : ℚ) ≤ x / 2 ^ e)
    (hhigh : x / 2 ^ e < m + 1) : Int.log 2 x = m.log2 + e := by
  have hpos : (0 : ℚ) < 2 ^ e := by positivity
  have hlow' : (m : ℚ) * 2 ^ e ≤ x := (le_div_iff₀ hpos).mp hlow
  have hhigh' : x < ((m : ℚ) + 1) * 2 ^ e := (div_lt_iff₀ hpos).mp hhigh
  have hmpos : (0 : ℚ) < m := by exact_mod_cast Nat.pos_of_ne_zero hm
  have hx : 0 < x := lt_of_lt_of_le (by positivity) hlow'
  have hself : 2 ^ m.log2 ≤ m := Nat.log2_self_le hm
  have hnext : m + 1 ≤ 2 ^ (m.log2 + 1) := Nat.lt_log2_self
  have hself' : (2 : ℚ) ^ m.log2 ≤ m := by exact_mod_cast hself
  have hnext' : (m : ℚ) + 1 ≤ 2 ^ (m.log2 + 1) := by exact_mod_cast hnext
  refine log_eq_of_bounds (by norm_num) hx ?_ ?_
  · calc ((2 : ℕ) : ℚ) ^ ((m.log2 : ℤ) + e) = 2 ^ m.log2 * 2 ^ e := by
          rw [Nat.cast_ofNat, pow_mul_zpow (by norm_num) rfl]
      _ ≤ m * 2 ^ e := by gcongr
      _ ≤ x := hlow'
  · calc x < ((m : ℚ) + 1) * 2 ^ e := hhigh'
      _ ≤ 2 ^ (m.log2 + 1) * 2 ^ e := by gcongr
      _ = ((2 : ℕ) : ℚ) ^ ((m.log2 : ℤ) + e + 1) := by
          rw [Nat.cast_ofNat]
          exact pow_mul_zpow (by norm_num) (by omega)

/-- A number below a power of two has its digits below it. -/
theorem log_lt_of_lt {x : ℚ} {e : ℤ} (hx : 0 < x) (h : x / 2 ^ e < 1) : Int.log 2 x < e := by
  have hpos : (0 : ℚ) < 2 ^ e := by positivity
  rw [← Int.lt_zpow_iff_log_lt (by norm_num) hx, Nat.cast_ofNat]
  exact (div_lt_one hpos).mp h

/-! ## 3. Descriptions of a number -/

/-- The mantissa, the exponent and the note on what lies behind the mantissa describe `x`, at
least as finely as `x` is rounded. -/
structure Approximates (x : ℚ) (m : Nat) (e : ℤ) (acc : Accuracy) : Prop where
  pos : 0 < x
  represents : Represents (.ofMantissaAndAccuracy m acc) (x / 2 ^ e)
  fine : e ≤ unit x

theorem mantissa_ofMantissaAndAccuracy (m : Nat) (acc : Accuracy) :
    (ExtendedMantissa.ofMantissaAndAccuracy m acc).mantissa = m := by
  rcases acc with _ | (_ | _ | _) <;> rfl

/-- The exponent that the format asks for is the unit of the number. -/
theorem Approximates.target {x : ℚ} {m : Nat} {e : ℤ} {acc : Accuracy}
    (h : Approximates x m e acc) :
    max e (Format.binary64.targetExponent (totalExponent m e)) = unit x := by
  obtain ⟨hlow, hhigh⟩ := h.represents.bounds
  rw [mantissa_ofMantissaAndAccuracy] at hlow hhigh
  have hfine := h.fine
  have hformat : Format.binary64.targetExponent (totalExponent m e) =
      max ((m.log2 : ℤ) + 1 + e - 53) (-1074) := by
    simp [Format.targetExponent, totalExponent, Format.mantissaBits, Format.minExponent]
  rw [hformat]
  unfold unit at hfine ⊢
  rcases Nat.eq_zero_or_pos m with rfl | hm
  · have hlog : Int.log 2 x < e := log_lt_of_lt h.pos (by simpa using hhigh)
    have hzero : Nat.log2 0 = 0 := rfl
    rw [hzero]
    push_cast
    omega
  · have hlog := log_of_bounds (by omega) hlow hhigh
    omega

/-- Where rounding shifts a description to. -/
theorem Approximates.shift {x : ℚ} {m : Nat} {e : ℤ} {acc : Accuracy}
    (h : Approximates x m e acc) :
    ∃ em, shiftToTargetExponent Format.binary64 m e acc = (em, unit x) ∧
      Represents em (x / 2 ^ unit x) := by
  have htarget := h.target
  have hexponent : e + ((Format.binary64.targetExponent (totalExponent m e) - e).toNat : ℤ) =
      unit x := by omega
  have hrepresents := h.represents.shiftRight
    (Format.binary64.targetExponent (totalExponent m e) - e).toNat
  have hunit : x / 2 ^ e / 2 ^ (Format.binary64.targetExponent (totalExponent m e) - e).toNat =
      x / 2 ^ unit x := by
    rw [div_div, ← hexponent, zpow_add₀ (by norm_num), zpow_natCast]
  rw [hunit] at hrepresents
  refine ⟨_, ?_, hrepresents⟩
  rw [shiftToTargetExponent, shiftToExponent, hexponent]

/-- **Rounding depends on the number only**, not on its description. -/
theorem round_congr {x : ℚ} {m m' : Nat} {e e' : ℤ} {acc acc' : Accuracy} (sign : Sign)
    (h : Approximates x m e acc) (h' : Approximates x m' e' acc') :
    roundWithAccuracy Format.binary64 sign m e acc =
      roundWithAccuracy Format.binary64 sign m' e' acc' := by
  obtain ⟨em, hshift, hem⟩ := h.shift
  obtain ⟨em', hshift', hem'⟩ := h'.shift
  obtain rfl : em = em' := hem.unique hem'
  unfold roundWithAccuracy
  rw [hshift, hshift']

/-- A mantissa with enough digits and nothing behind it describes its number. -/
theorem approximates_exact {m : Nat} (e : ℤ) (hm : 2 ^ 52 ≤ m) :
    Approximates ((m : ℚ) * 2 ^ e) m e .exact := by
  have hpos : (0 : ℚ) < 2 ^ e := by positivity
  have hmpos : 0 < m := by omega
  have hquotient : (m : ℚ) * 2 ^ e / 2 ^ e = m := mul_div_cancel_right₀ _ hpos.ne'
  have hlog : Int.log 2 ((m : ℚ) * 2 ^ e) = m.log2 + e :=
    log_of_bounds hmpos.ne' (by rw [hquotient]) (by rw [hquotient]; linarith)
  have hge : 52 ≤ m.log2 := (Nat.le_log2 hmpos.ne').mpr hm
  refine ⟨mul_pos (by exact_mod_cast hmpos) hpos, ?_, ?_⟩
  · rw [hquotient]
    exact rfl
  · unfold unit
    omega

/-- What lies behind the quotient of two mantissas, where a remainder `r` is left of `d`. -/
theorem represents_quotient {n d : Nat} (hd : 0 < d) :
    Represents (.ofMantissaAndAccuracy (n / d) (accuracyOfFraction (n % d) d)) ((n : ℚ) / d) := by
  have hdpos : (0 : ℚ) < d := by exact_mod_cast hd
  have hlt : ((n % d : Nat) : ℚ) < d := by exact_mod_cast Nat.mod_lt n hd
  have hsplit : (n : ℚ) / d = ((n / d : Nat) : ℚ) + ((n % d : Nat) : ℚ) / d := by
    have hnat : (n : ℚ) = d * ((n / d : Nat) : ℚ) + ((n % d : Nat) : ℚ) := by
      exact_mod_cast (Nat.div_add_mod n d).symm
    rw [div_eq_iff hdpos.ne', add_mul, div_mul_cancel₀ _ hdpos.ne', hnat]
    ring
  rw [hsplit]
  unfold accuracyOfFraction
  by_cases hzero : n % d = 0
  · rw [if_pos hzero, hzero]
    simp [Represents, ExtendedMantissa.ofMantissaAndAccuracy]
  · have hrpos : (0 : ℚ) < ((n % d : Nat) : ℚ) := by exact_mod_cast Nat.pos_of_ne_zero hzero
    have hfraction : (0 : ℚ) < ((n % d : Nat) : ℚ) / d := div_pos hrpos hdpos
    have hfraction' : ((n % d : Nat) : ℚ) / d < 1 := (div_lt_one hdpos).mpr hlt
    rw [if_neg hzero]
    rcases lt_trichotomy (2 * (n % d)) d with hless | heq | hmore
    · have hcompare : compare (2 * (n % d)) d = .lt := compare_lt_iff_lt.mpr hless
      have hhalf : ((n % d : Nat) : ℚ) / d < 1 / 2 := by
        rw [div_lt_div_iff₀ hdpos (by norm_num)]
        have hcast : (2 : ℚ) * ((n % d : Nat) : ℚ) < d := by exact_mod_cast hless
        linarith
      simp only [hcompare, Represents, ExtendedMantissa.ofMantissaAndAccuracy]
      constructor <;> linarith
    · have hcompare : compare (2 * (n % d)) d = .eq := compare_eq_iff_eq.mpr heq
      have hhalf : ((n % d : Nat) : ℚ) / d = 1 / 2 := by
        rw [div_eq_div_iff hdpos.ne' (by norm_num)]
        have hcast : (2 : ℚ) * ((n % d : Nat) : ℚ) = d := by exact_mod_cast heq
        linarith
      simp only [hcompare, Represents, ExtendedMantissa.ofMantissaAndAccuracy]
      linarith
    · have hcompare : compare (2 * (n % d)) d = .gt := compare_gt_iff_gt.mpr hmore
      have hhalf : 1 / 2 < ((n % d : Nat) : ℚ) / d := by
        rw [div_lt_div_iff₀ (by norm_num) hdpos]
        have hcast : (d : ℚ) < 2 * ((n % d : Nat) : ℚ) := by exact_mod_cast hmore
        linarith
      simp only [hcompare, Represents, ExtendedMantissa.ofMantissaAndAccuracy]
      constructor <;> linarith

/-- A quotient is described by the quotient of the mantissas, computed far enough. -/
theorem approximates_quotient {m₁ m₂ : Nat} (e₁ e₂ : ℤ) (h₁ : 0 < m₁) (h₂ : 0 < m₂) :
    Approximates (((m₁ : ℚ) * 2 ^ e₁) / ((m₂ : ℚ) * 2 ^ e₂))
      (divCore Format.binary64 m₁ e₁ m₂ e₂).1 (divCore Format.binary64 m₁ e₁ m₂ e₂).2.1
      (divCore Format.binary64 m₁ e₁ m₂ e₂).2.2 := by
  have hm₁ : (0 : ℚ) < m₁ := by exact_mod_cast h₁
  have hm₂ : (0 : ℚ) < m₂ := by exact_mod_cast h₂
  have hx : (0 : ℚ) < ((m₁ : ℚ) * 2 ^ e₁) / ((m₂ : ℚ) * 2 ^ e₂) := by positivity
  have hformat : Format.binary64.targetExponent (totalExponent m₁ e₁ - totalExponent m₂ e₂) =
      max ((m₁.log2 : ℤ) + 1 + e₁ - (m₂.log2 + 1 + e₂) - 53) (-1074) := by
    simp [Format.targetExponent, totalExponent, Format.mantissaBits, Format.minExponent]
  simp only [divCore]
  rw [hformat]
  generalize ht : min (e₁ - e₂)
    (max ((m₁.log2 : ℤ) + 1 + e₁ - (m₂.log2 + 1 + e₂) - 53) (-1074)) = t
  refine ⟨hx, ?_, ?_⟩
  · have hshift : ((e₁ - e₂ - t).toNat : ℤ) = e₁ - e₂ - t := by omega
    have hvalue : ((m₁ : ℚ) * 2 ^ e₁) / ((m₂ : ℚ) * 2 ^ e₂) / 2 ^ t =
        ((m₁ <<< (e₁ - e₂ - t).toNat : Nat) : ℚ) / m₂ := by
      have hpower : (2 : ℚ) ^ (e₁ - e₂ - t).toNat = 2 ^ e₁ / 2 ^ e₂ / 2 ^ t := by
        rw [← zpow_natCast, hshift, zpow_sub₀ (by norm_num), zpow_sub₀ (by norm_num)]
      rw [Nat.shiftLeft_eq, Nat.cast_mul, Nat.cast_pow, Nat.cast_ofNat, hpower]
      field_simp
    rw [hvalue]
    exact represents_quotient h₂
  · have hself : (2 : ℚ) ^ m₁.log2 ≤ m₁ := by exact_mod_cast Nat.log2_self_le h₁.ne'
    have hnext : (m₂ : ℚ) ≤ 2 ^ (m₂.log2 + 1) := by
      exact_mod_cast (Nat.lt_log2_self (n := m₂)).le
    have hlog : (m₁.log2 : ℤ) + e₁ - (m₂.log2 + 1 + e₂) ≤
        Int.log 2 (((m₁ : ℚ) * 2 ^ e₁) / ((m₂ : ℚ) * 2 ^ e₂)) := by
      rw [← Int.zpow_le_iff_le_log (by norm_num) hx, le_div_iff₀ (by positivity)]
      calc ((2 : ℕ) : ℚ) ^ ((m₁.log2 : ℤ) + e₁ - (m₂.log2 + 1 + e₂)) * (m₂ * 2 ^ e₂)
          ≤ (2 : ℚ) ^ ((m₁.log2 : ℤ) + e₁ - (m₂.log2 + 1 + e₂)) *
              (2 ^ (m₂.log2 + 1) * 2 ^ e₂) := by
            rw [Nat.cast_ofNat]
            gcongr
        _ = 2 ^ m₁.log2 * 2 ^ e₁ := by
            rw [pow_mul_zpow (by norm_num) rfl, pow_mul_zpow (by norm_num) rfl,
              ← zpow_add₀ (by norm_num)]
            congr 1
            omega
        _ ≤ m₁ * 2 ^ e₁ := by gcongr
    unfold unit
    omega

/-! ## 4. Canonical descriptions -/

/-- The mantissa has fifty-three digits, or fewer if the exponent is the least. -/
structure IsCanonical (m : Nat) (e : ℤ) : Prop where
  pos : 0 < m
  lt : m < 2 ^ 53
  least : -1074 ≤ e
  full : 2 ^ 52 ≤ m ∨ e = -1074

theorem IsCanonical.value_pos {m : Nat} {e : ℤ} (h : IsCanonical m e) :
    (0 : ℚ) < m * 2 ^ e := by
  have hm : (0 : ℚ) < m := by exact_mod_cast h.pos
  positivity

theorem IsCanonical.log2_le {m : Nat} {e : ℤ} (h : IsCanonical m e) : m.log2 ≤ 52 := by
  have hlog : m.log2 < 53 := (Nat.log2_lt h.pos.ne').mpr h.lt
  omega

/-- A canonical description is as fine as rounding needs it, and no finer. -/
theorem IsCanonical.unit_eq {m : Nat} {e : ℤ} (h : IsCanonical m e) :
    unit ((m : ℚ) * 2 ^ e) = e := by
  have hpos : (0 : ℚ) < 2 ^ e := by positivity
  have hquotient : (m : ℚ) * 2 ^ e / 2 ^ e = m := mul_div_cancel_right₀ _ hpos.ne'
  have hlog : Int.log 2 ((m : ℚ) * 2 ^ e) = m.log2 + e :=
    log_of_bounds h.pos.ne' (by rw [hquotient]) (by rw [hquotient]; linarith)
  have hle := h.log2_le
  have hleast := h.least
  unfold unit
  rw [hlog]
  rcases h.full with hfull | hfull
  · have hge : 52 ≤ m.log2 := (Nat.le_log2 h.pos.ne').mpr hfull
    omega
  · omega

theorem IsCanonical.approximates {m : Nat} {e : ℤ} (h : IsCanonical m e) :
    Approximates ((m : ℚ) * 2 ^ e) m e .exact := by
  have hpos : (0 : ℚ) < 2 ^ e := by positivity
  refine ⟨h.value_pos, ?_, h.unit_eq.ge⟩
  rw [mul_div_cancel_right₀ _ hpos.ne']
  exact rfl

/-- A mantissa that fits stays where it is. -/
theorem shift_of_fits {m : Nat} {e : ℤ} (hm : m < 2 ^ 53) (he : -1074 ≤ e) :
    shiftToTargetExponent Format.binary64 m e .exact = (⟨m, false, false⟩, e) := by
  have hlog : m.log2 ≤ 52 := by
    rcases Nat.eq_zero_or_pos m with rfl | hpos
    · exact Nat.zero_le 52
    · have hlt : m.log2 < 53 := (Nat.log2_lt hpos.ne').mpr hm
      omega
  have hformat : Format.binary64.targetExponent (totalExponent m e) =
      max ((m.log2 : ℤ) + 1 + e - 53) (-1074) := by
    simp [Format.targetExponent, totalExponent, Format.mantissaBits, Format.minExponent]
  have hnone : (Format.binary64.targetExponent (totalExponent m e) - e).toNat = 0 := by omega
  rw [shiftToTargetExponent, shiftToExponent, hnone]
  simp [HShiftRight.hShiftRight, Nat.repeat, ExtendedMantissa.ofMantissaAndAccuracy]

/-- A mantissa that has just become too long is shifted by one place. -/
theorem shift_of_overflow {e : ℤ} (he : -1074 ≤ e) :
    shiftToTargetExponent Format.binary64 (2 ^ 53) e .exact =
      (⟨2 ^ 52, false, false⟩, e + 1) := by
  have hformat : Format.binary64.targetExponent (totalExponent (2 ^ 53) e) = e + 1 := by
    simp only [Format.targetExponent, totalExponent, Nat.log2_two_pow, Format.mantissaBits,
      Format.minExponent]
    norm_num
    omega
  have hone : (e + 1 - e).toNat = 1 := by omega
  rw [shiftToTargetExponent, hformat, shiftToExponent, hone]
  simp [HShiftRight.hShiftRight, Nat.repeat, ExtendedMantissa.ofMantissaAndAccuracy,
    ExtendedMantissa.shiftRightOne]

/-- A canonical description is not rounded. -/
theorem round_of_isCanonical {m : Nat} {e : ℤ} (sign : Sign) (h : IsCanonical m e) :
    roundWithAccuracy Format.binary64 sign m e .exact = .finite sign m e h.pos := by
  have hshift := shift_of_fits h.lt h.least
  have hrounded : (ExtendedMantissa.mk m false false).roundedMantissa = m := rfl
  unfold roundWithAccuracy
  simp only [hshift, hrounded, h.pos.ne', dite_false]

theorem Represents.rounded_bounds {em : ExtendedMantissa} {y : ℚ} (h : Represents em y) :
    em.mantissa ≤ em.roundedMantissa ∧ em.roundedMantissa ≤ em.mantissa + 1 := by
  rcases em with ⟨m, r, s⟩
  cases r <;> cases s <;>
    simp [ExtendedMantissa.roundedMantissa, ExtendedMantissa.accuracy,
      Accuracy.roundToNearestEven]
  omega

/-- A number has at most fifty-three binary digits in front of the point when it is measured in
its unit, and just as many unless the unit is the least one. -/
theorem unit_bounds {x : ℚ} (hx : 0 < x) :
    x / 2 ^ unit x < 2 ^ 53 ∧ (2 ^ 52 ≤ x / 2 ^ unit x ∨ unit x = -1074) := by
  have hpos : (0 : ℚ) < 2 ^ unit x := by positivity
  constructor
  · have hle : Int.log 2 x + 1 ≤ 53 + unit x := by unfold unit; omega
    have hlog : x < 2 ^ (Int.log 2 x + 1) := by
      exact_mod_cast Int.lt_zpow_succ_log_self (b := 2) (by norm_num) x
    rw [div_lt_iff₀ hpos]
    calc x < 2 ^ (Int.log 2 x + 1) := hlog
      _ ≤ 2 ^ (53 + unit x) := zpow_le_zpow_right₀ (by norm_num) hle
      _ = 2 ^ 53 * 2 ^ unit x := (pow_mul_zpow (by norm_num) rfl).symm
  · rcases eq_or_lt_of_le (show -1074 ≤ unit x from le_max_right _ _) with heq | hlt
    · exact Or.inr heq.symm
    · left
      have hunit : 52 + unit x = Int.log 2 x := by
        unfold unit at hlt ⊢
        omega
      have hself : (2 : ℚ) ^ Int.log 2 x ≤ x := by
        exact_mod_cast Int.zpow_log_le_self (b := 2) (by norm_num) hx
      rw [le_div_iff₀ hpos, pow_mul_zpow (by norm_num) hunit]
      exact hself

/-- The mantissa is rounded to a nearest natural number. -/
theorem Represents.rounded_near {em : ExtendedMantissa} {y : ℚ} (h : Represents em y) :
    |(em.roundedMantissa : ℚ) - y| ≤ 1 / 2 := by
  rw [abs_le]
  rcases em with ⟨m, r, s⟩
  have hparity : (0 : ℚ) ≤ (m % 2 : Nat) ∧ ((m % 2 : Nat) : ℚ) ≤ 1 :=
    ⟨by positivity, by exact_mod_cast Nat.le_of_lt_succ (Nat.mod_lt m two_pos)⟩
  cases r <;> cases s <;>
    simp only [Represents, ExtendedMantissa.roundedMantissa, ExtendedMantissa.accuracy,
      Accuracy.roundToNearestEven, Nat.cast_add, Nat.cast_one] at h ⊢ <;>
    constructor <;> linarith

/-- **What is rounded is zero or canonical**, and it is a nearest multiple of the unit. -/
theorem round_form {x : ℚ} {m : Nat} {e : ℤ} {acc : Accuracy} (sign : Sign)
    (h : Approximates x m e acc) :
    ∃ n : Nat, |(n : ℚ) - x / 2 ^ unit x| ≤ 1 / 2 ∧
      ((n = 0 ∧ roundWithAccuracy Format.binary64 sign m e acc = .zero sign) ∨
        ∃ (m' : Nat) (e' : ℤ) (h' : IsCanonical m' e'),
          (m' : ℚ) * 2 ^ e' = n * 2 ^ unit x ∧
          roundWithAccuracy Format.binary64 sign m e acc = .finite sign m' e' h'.pos) := by
  obtain ⟨em, hshift, hem⟩ := h.shift
  obtain ⟨hlow, hhigh⟩ := hem.bounds
  obtain ⟨hrounded, hrounded'⟩ := hem.rounded_bounds
  obtain ⟨hless, hlong⟩ := unit_bounds h.pos
  have hleast : -1074 ≤ unit x := le_max_right _ _
  have hfits : em.mantissa < 2 ^ 53 := by exact_mod_cast hlow.trans_lt hless
  have hfull : 2 ^ 52 ≤ em.mantissa ∨ unit x = -1074 := by
    refine hlong.imp_left fun hge => ?_
    have hnext : 2 ^ 52 < em.mantissa + 1 := by exact_mod_cast hge.trans_lt hhigh
    omega
  refine ⟨em.roundedMantissa, hem.rounded_near, ?_⟩
  unfold roundWithAccuracy
  rw [hshift]
  rcases Nat.lt_or_ge em.roundedMantissa (2 ^ 53) with hlt | hge
  · have hshift' := shift_of_fits hlt hleast
    simp only [hshift']
    by_cases hzero : em.roundedMantissa = 0
    · left
      simp [hzero]
    · right
      refine ⟨em.roundedMantissa, unit x, ⟨by omega, hlt, hleast, by omega⟩, rfl, ?_⟩
      simp [hzero]
  · have heq : em.roundedMantissa = 2 ^ 53 := by omega
    have hshift' := shift_of_overflow hleast
    right
    refine ⟨2 ^ 52, unit x + 1, ⟨by norm_num, by norm_num, by omega, Or.inl (Nat.le_refl _)⟩,
      ?_, ?_⟩
    · rw [heq, zpow_add_one₀ (by norm_num)]
      push_cast
      ring
    · simp only [heq, hshift']
      rfl

end Fluxion.Numeral
