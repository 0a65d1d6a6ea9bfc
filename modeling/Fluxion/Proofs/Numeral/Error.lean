/-
# The error of a product and of a quotient

A size is a finite number that is not negative (`IsSize`).  The exact product of two sizes, and
their exact quotient, are rounded to a nearest multiple of a unit.  So the result is off by at most
half a unit, which is at most `slack`: a small part of the exact result, and half of the least
positive number, which counts where the exact result is tiny.

The result is finite only if it does not grow too large.  Rounding does not go past a number that
is exact (`RoundsTo.size`), so it is enough that some size is as large as the exact result: the
first factor of a product, say, where the second is at most one.
-/
import Fluxion.Proofs.Numeral.Scientific
import Fluxion.Proofs.Numeral.Zero
import Fluxion.Proofs.Real.Value

namespace Fluxion.Numeral

open Float.Model Float.Model.UnpackedFloat

/-! ## 1. Sizes -/

/-- The number stands for `q`, which is not negative. -/
def IsSize (v : Float) (q : ℚ) : Prop := realOf? v = some (q : ℝ) ∧ 0 ≤ q

/-- The parts are those of a size. -/
inductive HasSize : UnpackedFloat → ℚ → Prop where
  | zero (s : Sign) : HasSize (.zero s) 0
  | finite {m : Nat} {e : ℤ} (h : IsCanonical m e) :
      e ≤ 971 → HasSize (.finite .positive m e h.pos) (m * 2 ^ e)

theorem isNaN_of_realOf? {v : Float} {x : ℝ} (h : realOf? v = some x) : v.isNaN = false := by
  unfold realOf? at h
  unfold Float.isNaN Float.Model.isNaN
  generalize v.toModel.unpack = u at h
  cases u with
  | notANumber => cases h
  | infinity s | zero s | finite s m e hm => rfl

/-- A size is what its parts make it. -/
theorem isSize_iff {v : Float} {q : ℚ} : IsSize v q ↔ HasSize v.toModel.unpack q := by
  constructor
  · rintro ⟨hreal, hq⟩
    obtain ⟨hcanonical, -⟩ := ofModel_pack_unpack (isNaN_of_realOf? hreal)
    unfold realOf? at hreal
    generalize v.toModel.unpack = u at hreal hcanonical
    cases u with
    | notANumber | infinity s => cases hreal
    | zero s =>
      obtain rfl : q = 0 := by exact_mod_cast (Option.some.inj hreal).symm
      exact .zero s
    | finite s m e hm =>
      obtain ⟨hcan, he⟩ := hcanonical
      have hvalue : (s.apply m * 2 ^ e : ℚ) = q := by exact_mod_cast Option.some.inj hreal
      cases s with
      | positive =>
        obtain rfl : (m * 2 ^ e : ℚ) = q := by simpa [Sign.apply] using hvalue
        exact .finite hcan he
      | negative =>
        have hneg : -(m * 2 ^ e : ℚ) = q := by simpa [Sign.apply] using hvalue
        have hpos := hcan.value_pos
        linarith
  · intro h
    unfold IsSize realOf?
    generalize v.toModel.unpack = u at h
    cases h with
    | zero s => simp
    | finite hcan he =>
      refine ⟨?_, hcan.value_pos.le⟩
      simp [Sign.apply]

theorem HasSize.unpack_packed {u : UnpackedFloat} {q : ℚ} (h : HasSize u q) :
    (packed u).toModel.unpack = u := by
  cases h with
  | zero s => cases s <;> rfl
  | finite hcan he => exact unpack_ofParts hcan he

theorem HasSize.isSize {u : UnpackedFloat} {q : ℚ} (h : HasSize u q) : IsSize (packed u) q := by
  rw [isSize_iff, h.unpack_packed]
  exact h

theorem IsSize.beq_zero_iff {v : Float} {q : ℚ} (h : IsSize v q) : (v == 0.0) = true ↔ q = 0 := by
  rw [Numeral.beq_zero_iff]
  have hparts := isSize_iff.mp h
  generalize v.toModel.unpack = u at hparts
  cases hparts with
  | zero s => simp
  | finite hcan he => simp [hcan.value_pos.ne']

/-- A number with a greater exponent is greater. -/
theorem IsCanonical.lt_of_exponent_lt {m m' : Nat} {e e' : ℤ} (h : IsCanonical m e)
    (h' : IsCanonical m' e') (hlt : e < e') : (m : ℚ) * 2 ^ e < m' * 2 ^ e' := by
  have hm : (m : ℚ) < 2 ^ 53 := by exact_mod_cast h.lt
  have hm' : (2 : ℚ) ^ 52 ≤ m' := by
    have hleast := h.least
    exact_mod_cast h'.full.resolve_right (by omega)
  calc (m : ℚ) * 2 ^ e < 2 ^ 53 * 2 ^ e := by gcongr
    _ = 2 ^ 52 * 2 ^ (e + 1) := by
        rw [zpow_add_one₀ (by norm_num)]
        ring
    _ ≤ m' * 2 ^ e' := by
        gcongr
        · norm_num
        · omega

/-- Sizes are compared as the numbers that they stand for. -/
theorem IsSize.lt_iff {v w : Float} {p q : ℚ} (hv : IsSize v p) (hw : IsSize w q) :
    v < w ↔ p < q := by
  have hunpacked : v < w ↔ v.toModel.unpack.lt w.toModel.unpack = true := decide_eq_true_iff
  rw [hunpacked]
  have hv := isSize_iff.mp hv
  have hw := isSize_iff.mp hw
  generalize v.toModel.unpack = a at hv
  generalize w.toModel.unpack = b at hw
  cases hv with
  | zero s =>
    cases hw with
    | zero t => simp [UnpackedFloat.lt, UnpackedFloat.compare]
    | finite hcan he => simpa [UnpackedFloat.lt, UnpackedFloat.compare] using hcan.value_pos
  | @finite m e hcan he =>
    cases hw with
    | zero t => simpa [UnpackedFloat.lt, UnpackedFloat.compare] using hcan.value_pos.le
    | @finite m' e' hcan' he' =>
      simp only [UnpackedFloat.lt, UnpackedFloat.compare]
      rcases lt_trichotomy e e' with hlt | rfl | hgt
      · have hcompare : compare e e' = .lt := compare_lt_iff_lt.mpr hlt
        simpa [hcompare] using hcan.lt_of_exponent_lt hcan' hlt
      · have hpos : (0 : ℚ) < 2 ^ e := by positivity
        rw [mul_lt_mul_iff_of_pos_right hpos]
        simp [compare_lt_iff_lt]
      · have hcompare : compare e e' = .gt := compare_gt_iff_gt.mpr hgt
        simpa [hcompare] using (hcan'.lt_of_exponent_lt hcan hgt).le

/-! ## 2. One rounding -/

/-- How far from `x` the number may be that `x` is rounded to. -/
def slack (x : ℚ) : ℚ := x * 2 ^ (-53 : ℤ) + 2 ^ (-1075 : ℤ)

theorem slack_nonneg {x : ℚ} (hx : 0 ≤ x) : 0 ≤ slack x := by
  unfold slack
  positivity

theorem half_zpow (k : ℤ) : (2 : ℚ) ^ k / 2 = 2 ^ (k - 1) := by
  rw [zpow_sub_one₀ two_ne_zero, div_eq_mul_inv]

/-- Half a unit of a number is within the slack. -/
theorem half_unit_le {x : ℚ} (hx : 0 < x) : 2 ^ unit x / 2 ≤ slack x := by
  unfold unit slack
  rcases le_total (Int.log 2 x - 52) (-1074) with hle | hge
  · rw [max_eq_right hle]
    calc (2 : ℚ) ^ (-1074 : ℤ) / 2 = 2 ^ (-1075 : ℤ) := half_zpow (-1074)
      _ ≤ _ := le_add_of_nonneg_left (by positivity)
  · have hself : (2 : ℚ) ^ Int.log 2 x ≤ x := by
      exact_mod_cast Int.zpow_log_le_self (b := 2) (by norm_num) hx
    rw [max_eq_left hge]
    calc (2 : ℚ) ^ (Int.log 2 x - 52) / 2 = 2 ^ Int.log 2 x * 2 ^ (-53 : ℤ) := by
          rw [half_zpow, ← zpow_add₀ two_ne_zero]
          congr 1
          omega
      _ ≤ x * 2 ^ (-53 : ℤ) := by gcongr
      _ ≤ _ := le_add_of_nonneg_right (by positivity)

theorem unit_mono {x y : ℚ} (hx : 0 < x) (h : x ≤ y) : unit x ≤ unit y := by
  have hlog := Int.log_mono_right (b := 2) hx h
  unfold unit
  omega

/-- What is nearest does not lie behind a natural number that the value does not pass. -/
theorem le_of_near {n k : Nat} {y : ℚ} (hnear : |(n : ℚ) - y| ≤ 1 / 2) (hle : y ≤ k) : n ≤ k := by
  have hless : (n : ℚ) < k + 1 := by linarith [(abs_le.mp hnear).2]
  exact Nat.lt_succ_iff.mp (by exact_mod_cast hless)

/-- **Rounding gives a size near the exact value**, and does not go past an exact one. -/
theorem RoundsTo.size {x : ℚ} {v : UnpackedFloat} (h : RoundsTo x v) {m : Nat} {e : ℤ}
    (hcan : IsCanonical m e) (he : e ≤ 971) (hle : x ≤ m * 2 ^ e) :
    ∃ z, HasSize v z ∧ z ≤ m * 2 ^ e ∧ |z - x| ≤ slack x := by
  obtain ⟨m₀, e₀, acc, happrox, rfl⟩ := h
  obtain ⟨n, hnear, hform⟩ := round_form .positive happrox
  have hpos : (0 : ℚ) < 2 ^ unit x := by positivity
  have hunit : unit x ≤ e := (unit_mono happrox.pos hle).trans_eq hcan.unit_eq
  -- The bound is a multiple of the unit as well.
  have hmultiple : (m : ℚ) * 2 ^ e = (m * 2 ^ (e - unit x).toNat : Nat) * 2 ^ unit x := by
    have hexponent : ((e - unit x).toNat : ℤ) + unit x = e := by omega
    push_cast
    rw [mul_assoc, pow_mul_zpow two_ne_zero hexponent]
  have hbound : n ≤ m * 2 ^ (e - unit x).toNat := by
    refine le_of_near hnear ?_
    rwa [div_le_iff₀ hpos, ← hmultiple]
  have hvalue : (n : ℚ) * 2 ^ unit x ≤ m * 2 ^ e := by
    rw [hmultiple]
    gcongr
  refine ⟨n * 2 ^ unit x, ?_, hvalue, ?_⟩
  · rcases hform with ⟨rfl, hzero⟩ | ⟨m', e', hcan', hvalue', hfinite⟩
    · rw [hzero, Nat.cast_zero, zero_mul]
      exact .zero _
    · have hexponent : e' ≤ e := by
        rw [← hcan'.unit_eq, ← hcan.unit_eq]
        exact unit_mono hcan'.value_pos (hvalue'.trans_le hvalue)
      rw [hfinite, ← hvalue']
      exact .finite hcan' (hexponent.trans he)
  · have hscaled : (n : ℚ) * 2 ^ unit x - x = (n - x / 2 ^ unit x) * 2 ^ unit x := by
      rw [sub_mul, div_mul_cancel₀ _ hpos.ne']
    calc |(n : ℚ) * 2 ^ unit x - x| = |(n : ℚ) - x / 2 ^ unit x| * 2 ^ unit x := by
          rw [hscaled, abs_mul, abs_of_pos hpos]
      _ ≤ 1 / 2 * 2 ^ unit x := by gcongr
      _ = 2 ^ unit x / 2 := by ring
      _ ≤ slack x := half_unit_le happrox.pos

/-! ## 3. Products and quotients -/

/-- A product of two sizes rounds the product of their values, however short their mantissas. -/
theorem IsCanonical.roundsTo_mul {m₁ m₂ : Nat} {e₁ e₂ : ℤ} (h₁ : IsCanonical m₁ e₁)
    (h₂ : IsCanonical m₂ e₂) :
    RoundsTo (((m₁ : ℚ) * 2 ^ e₁) * ((m₂ : ℚ) * 2 ^ e₂))
      (UnpackedFloat.mul Format.binary64 (.finite .positive m₁ e₁ h₁.pos)
        (.finite .positive m₂ e₂ h₂.pos)) := by
  by_cases hlong : 2 ^ 52 ≤ m₁ * m₂
  · exact Numeral.roundsTo_mul h₁.pos h₂.pos hlong
  · have hvalue : ((m₁ : ℚ) * 2 ^ e₁) * ((m₂ : ℚ) * 2 ^ e₂) =
        ((m₁ * m₂ : Nat) : ℚ) * 2 ^ (e₁ + e₂) := by
      rw [zpow_add₀ (by norm_num), Nat.cast_mul]
      ring
    -- Two short mantissas have the least exponent, and their product a much lesser one.
    have hleast : e₁ = -1074 :=
      h₁.full.resolve_left fun hfull => hlong (hfull.trans (Nat.le_mul_of_pos_right m₁ h₂.pos))
    have hleast' : e₂ = -1074 :=
      h₂.full.resolve_left fun hfull => hlong (hfull.trans (Nat.le_mul_of_pos_left m₂ h₁.pos))
    have hpos : (0 : ℚ) < 2 ^ (e₁ + e₂) := by positivity
    refine ⟨m₁ * m₂, e₁ + e₂, .exact, ⟨mul_pos h₁.value_pos h₂.value_pos, ?_, ?_⟩, rfl⟩
    · rw [hvalue, mul_div_cancel_right₀ _ hpos.ne']
      exact rfl
    · unfold unit
      omega

section

variable {v w bound : Float} {p q b : ℚ}

/-- A value that is rounded and not above a size is rounded to a size. -/
theorem RoundsTo.isSize {x : ℚ} {u : UnpackedFloat} (h : RoundsTo x u) (hbound : IsSize bound b)
    (hle : x ≤ b) : ∃ z, IsSize (packed u) z ∧ z ≤ b ∧ |z - x| ≤ slack x := by
  have hpos : 0 < x := by
    obtain ⟨_, _, _, happrox, _⟩ := h
    exact happrox.pos
  have hparts := isSize_iff.mp hbound
  generalize bound.toModel.unpack = c at hparts
  cases hparts with
  | zero s => exact absurd hle (not_le.mpr hpos)
  | finite hcan he =>
    obtain ⟨z, hz, hzb, hnear⟩ := h.size hcan he hle
    exact ⟨z, hz.isSize, hzb, hnear⟩

/-- **The product of two sizes** is near the exact product. -/
theorem IsSize.mul (hv : IsSize v p) (hw : IsSize w q) (hbound : IsSize bound b)
    (hle : p * q ≤ b) : ∃ z, IsSize (v * w) z ∧ z ≤ b ∧ |z - p * q| ≤ slack (p * q) := by
  have hproduct : v * w = packed (v.toModel.unpack.mul Format.binary64 w.toModel.unpack) := rfl
  have zero (s : Sign) (hnone : p * q = 0) :
      ∃ z, IsSize (packed (.zero s)) z ∧ z ≤ b ∧ |z - p * q| ≤ slack (p * q) :=
    ⟨0, (HasSize.zero s).isSize, hbound.2, by simpa [hnone] using slack_nonneg le_rfl⟩
  rw [hproduct]
  have hv := isSize_iff.mp hv
  have hw := isSize_iff.mp hw
  generalize v.toModel.unpack = a at hv
  generalize w.toModel.unpack = c at hw
  cases hv with
  | zero s => cases hw <;> exact zero _ (zero_mul _)
  | finite hcan he =>
    cases hw with
    | zero t => exact zero _ (mul_zero _)
    | finite hcan' he' => exact (hcan.roundsTo_mul hcan').isSize hbound hle

/-- **The quotient of two sizes** is near the exact quotient. -/
theorem IsSize.div (hv : IsSize v p) (hw : IsSize w q) (hq : 0 < q) (hbound : IsSize bound b)
    (hle : p / q ≤ b) : ∃ z, IsSize (v / w) z ∧ z ≤ b ∧ |z - p / q| ≤ slack (p / q) := by
  have hquotient : v / w = packed (v.toModel.unpack.div Format.binary64 w.toModel.unpack) := rfl
  rw [hquotient]
  have hv := isSize_iff.mp hv
  have hw := isSize_iff.mp hw
  generalize v.toModel.unpack = a at hv
  generalize w.toModel.unpack = c at hw
  cases hw with
  | zero t => exact absurd hq (lt_irrefl 0)
  | finite hcan' he' =>
    cases hv with
    | zero s =>
      exact ⟨0, (HasSize.zero _).isSize, hbound.2, by simpa using slack_nonneg le_rfl⟩
    | finite hcan he => exact (roundsTo_div hcan.pos hcan'.pos).isSize hbound hle

end

end Fluxion.Numeral
