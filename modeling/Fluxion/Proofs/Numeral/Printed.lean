/-
# Which numbers are written as plain numerals

A number that is written without an exponent is written as a plain numeral, and the numeral reads
back as the number (`numberText_of_isPositional`).  These are the integral numbers and the finite
ones from `0.0001` (`IsPositional`).  Every other number without a sign is infinite, or so small
that it is written with a negative exponent (`numberText_of_not_isPositional`).

The layout is chosen by the point of the shortest decimal.  That decimal lies between the same
powers of ten as the number, so its point is that of the number, unless it is the upper power
itself.  At both ends of the positional range this power is the value of a number that lies on the
other side (`0.0001` and `1e16`), so the exception does not occur there.
-/
import Fluxion.Numeral.Format
import Fluxion.Proofs.Numeral.Nearby
import Fluxion.Proofs.Numeral.Plain
import Mathlib.Data.Nat.Cast.Field

namespace Fluxion.Numeral

/-! ## 1. Runs of digits -/

theorem natOfDigits_eq (ds : List Char) : natOfDigits ds = Nat.ofDigitChars 10 ds 0 := by
  rw [natOfDigits, Nat.ofDigitChars_eq_foldl]

theorem natOfDigits_toDigits (n : Nat) : natOfDigits (Nat.toDigits 10 n) = n := by
  rw [natOfDigits_eq, Nat.ofDigitChars_ten_toDigits]

/-- Zeros in front of a run of digits do not count. -/
theorem natOfDigits_zeros_append (k : Nat) (ds : List Char) :
    natOfDigits (List.replicate k '0' ++ ds) = natOfDigits ds := by
  simp [natOfDigits_eq, Nat.ofDigitChars_append]

/-- Zeros behind a run of digits multiply it by a power of ten. -/
theorem natOfDigits_append_zeros (ds : List Char) (k : Nat) :
    natOfDigits (ds ++ List.replicate k '0') = natOfDigits ds * 10 ^ k := by
  rw [natOfDigits_eq, Nat.ofDigitChars_append, Nat.ofDigitChars_replicate_zero, natOfDigits_eq,
    Nat.mul_comm]

theorem allDigits_toDigits (n : Nat) : AllDigits (Nat.toDigits 10 n) := fun _ hc =>
  Nat.isDigit_of_mem_toDigits (by decide) (by decide) hc

theorem allDigits_zeros (k : Nat) : AllDigits (List.replicate k '0') := by
  intro c hc
  obtain rfl := List.eq_of_mem_replicate hc
  decide

/-! ## 2. Positional texts -/

/-- The text is a plain numeral that reads back as `v`. -/
def IsNumeralOf (v : Float) (cs : List Char) : Prop :=
  IsPlain cs ∧ readFloat (String.ofList cs) = some v

theorem Decimal.exponent_eq (d : Decimal) :
    d.exponent = d.point - (Nat.toDigits 10 d.digits).length := by
  rw [point, digitCount]
  omega

theorem isNumeralOf_plain (whole : List Char) (fraction? : Option (List Char))
    (hne : whole ≠ []) (hwhole : AllDigits whole)
    (hfraction : ∀ fraction ∈ fraction?, AllDigits fraction)
    {d : Decimal} (hvalue : (plainDecimal whole fraction?).value = d.value) :
    IsNumeralOf d.toFloat (plainNumeral whole fraction?) := by
  refine ⟨⟨whole, fraction?, rfl, hne, hwhole, hfraction⟩, ?_⟩
  rw [readFloat_plain hne hwhole hfraction, Decimal.toFloat_congr hvalue]

/-- Where the point stands in front of all digits. -/
theorem leadingZeros_isNumeralOf {d : Decimal} (hpoint : d.point ≤ 0) :
    IsNumeralOf d.toFloat
      ('0' :: '.' :: (List.replicate (-d.point).toNat '0' ++ Nat.toDigits 10 d.digits)) := by
  refine isNumeralOf_plain ['0'] (some _) (by simp) (by simp [AllDigits]) ?_ ?_
  · rintro fraction ⟨⟩
    exact (allDigits_zeros _).append (allDigits_toDigits d.digits)
  · have hzeros : ['0'] ++ (List.replicate (-d.point).toNat '0' ++ Nat.toDigits 10 d.digits) =
        List.replicate ((-d.point).toNat + 1) '0' ++ Nat.toDigits 10 d.digits := by
      rw [List.replicate_succ]
      rfl
    have hlength : -(((List.replicate (-d.point).toNat '0' ++
        Nat.toDigits 10 d.digits).length : Nat) : ℤ) = d.exponent := by
      rw [List.length_append, List.length_replicate, d.exponent_eq]
      omega
    simp only [plainDecimal, Option.getD_some, hzeros, natOfDigits_zeros_append,
      natOfDigits_toDigits, hlength]

/-- Where it stands behind all digits. -/
theorem trailingZeros_isNumeralOf {d : Decimal} {k : Nat} (hk : d.exponent = k) :
    IsNumeralOf d.toFloat
      (Nat.toDigits 10 d.digits ++ List.replicate k '0' ++ ['.', '0']) := by
  refine isNumeralOf_plain (_ ++ _) (some ['0']) (by simp [Nat.toDigits_ne_nil])
    ((allDigits_toDigits d.digits).append (allDigits_zeros k)) (by simp [AllDigits]) ?_
  have hzeros : Nat.toDigits 10 d.digits ++ List.replicate k '0' ++ ['0'] =
      Nat.toDigits 10 d.digits ++ List.replicate (k + 1) '0' := by
    rw [List.append_assoc, List.replicate_succ']
  simp only [plainDecimal, Option.getD_some, hzeros, natOfDigits_append_zeros,
    natOfDigits_toDigits, Decimal.value]
  rw [hk, zpow_natCast]
  push_cast
  rw [pow_succ, List.length_singleton, Nat.cast_one, zpow_neg_one]
  field_simp

/-- Where it stands among the digits. -/
theorem pointAmong_isNumeralOf {d : Decimal} (hpos : 0 < d.point)
    (hless : d.point.toNat < (Nat.toDigits 10 d.digits).length) :
    IsNumeralOf d.toFloat ((Nat.toDigits 10 d.digits).take d.point.toNat ++
      '.' :: (Nat.toDigits 10 d.digits).drop d.point.toNat) := by
  have hdigits : AllDigits (Nat.toDigits 10 d.digits) := allDigits_toDigits d.digits
  refine isNumeralOf_plain (List.take _ _) (some _) ?_ ?_ ?_ ?_
  · simp only [ne_eq, List.take_eq_nil_iff, Nat.toDigits_ne_nil, or_false]
    omega
  · exact fun c hc => hdigits c (List.mem_of_mem_take hc)
  · rintro fraction ⟨⟩
    exact fun c hc => hdigits c (List.mem_of_mem_drop hc)
  · have hlength : -(((List.drop d.point.toNat (Nat.toDigits 10 d.digits)).length : Nat) : ℤ) =
        d.exponent := by
      rw [List.length_drop, d.exponent_eq]
      omega
    simp only [plainDecimal, Option.getD_some, List.take_append_drop, natOfDigits_toDigits,
      hlength]

/-- **A decimal in positional notation reads back as its number.** -/
theorem positional_isNumeralOf (d : Decimal) :
    IsNumeralOf d.toFloat (positional (Nat.toDigits 10 d.digits) d.point) := by
  unfold positional
  split
  · next hpoint => exact leadingZeros_isNumeralOf hpoint
  · next hpoint =>
    dsimp only
    split
    · next hlong =>
      refine trailingZeros_isNumeralOf ?_
      rw [d.exponent_eq]
      omega
    · next hshort => exact pointAmong_isNumeralOf (by omega) (by omega)

/-- An integral number is written with the digits of the natural number that it is. -/
theorem toDigits_isNumeralOf (n : Nat) :
    IsNumeralOf (Decimal.mk n 0).toFloat (Nat.toDigits 10 n) := by
  refine isNumeralOf_plain (Nat.toDigits 10 n) none Nat.toDigits_ne_nil (allDigits_toDigits n)
    (by simp) ?_
  simp only [plainDecimal, Option.getD_none, List.append_nil, natOfDigits_toDigits,
    List.length_nil, Nat.cast_zero, neg_zero]

/-! ## 3. Texts with an exponent -/

/-- The text is a plain numeral with a negative exponent. -/
def HasNegativeExponent (cs : List Char) : Prop :=
  ∃ front ds, IsPlain front ∧ ds ≠ [] ∧ AllDigits ds ∧ cs = front ++ 'e' :: '-' :: ds

theorem scientific_hasNegativeExponent (width n : Nat) {e : ℤ} (he : e < 0) :
    HasNegativeExponent (scientific width (Nat.toDigits 10 n) e) := by
  have hdigits : AllDigits (Nat.toDigits 10 n) := allDigits_toDigits n
  have hexponent : ∃ ds, ds ≠ [] ∧ AllDigits ds ∧ exponentText width e = 'e' :: '-' :: ds := by
    refine ⟨_, ?_, ?_, by rw [exponentText, if_pos he]⟩
    · simp [Nat.toDigits_ne_nil]
    · exact (allDigits_zeros _).append (allDigits_toDigits _)
  obtain ⟨ds, hne, hds, htext⟩ := hexponent
  unfold scientific
  split
  · next hnil => exact absurd hnil Nat.toDigits_ne_nil
  · next d hone =>
    rw [hone] at hdigits
    exact ⟨[d], ds, ⟨[d], none, rfl, by simp, hdigits, by simp⟩, hne, hds, by rw [htext]; rfl⟩
  · next d more _ hmany =>
    rw [hmany] at hdigits
    have hfirst : AllDigits [d] := fun c hc => hdigits c (by
      rw [List.mem_singleton.mp hc]
      exact List.mem_cons_self)
    have hmore : AllDigits more := fun c hc => hdigits c (List.mem_cons_of_mem d hc)
    refine ⟨d :: '.' :: more, ds, ⟨[d], some more, rfl, by simp, hfirst, ?_⟩, hne, hds, ?_⟩
    · rintro fraction ⟨⟩
      exact hmore
    · rw [htext]
      simp

/-- Numbers from `0.0001` are laid out in positional notation. -/
theorem Decimal.layout_positional {d : Decimal} (hlow : -4 < d.point) (hhigh : d.point ≤ 16) :
    d.layout .standard = positional (Nat.toDigits 10 d.digits) d.point := by
  have hleast : Layout.standard.leastPositional = -4 := rfl
  have hgreatest : Layout.standard.leastScientific = 16 := rfl
  rw [Decimal.layout, if_pos ⟨by omega, by omega⟩]

theorem Decimal.layout_scientific {d : Decimal} (hhigh : d.point ≤ -4) :
    d.layout .standard = scientific 2 (Nat.toDigits 10 d.digits) (d.point - 1) := by
  have hleast : Layout.standard.leastPositional = -4 := rfl
  have hwidth : Layout.standard.exponentDigits = 2 := rfl
  rw [Decimal.layout, if_neg (by omega), hwidth]

/-! ## 4. The two ends of the positional range -/

/-- The number is finite, and it is integral or no less than `0.0001`. -/
def IsPositional (v : Float) : Prop :=
  v.isFinite = true ∧ ((integral? v).isSome = true ∨ (0.0001 : Float) ≤ v)

section

variable {m : Nat} {e : ℤ}

theorem isCanonical_tenThousandth : IsCanonical 7378697629483821 (-66) :=
  ⟨by norm_num, by norm_num, by norm_num, Or.inl (by norm_num)⟩

theorem tenThousandth_eq : (0.0001 : Float) = ofParts _ (-66) isCanonical_tenThousandth.pos := by
  decide +kernel

/-- The number `0.0001` is a little more than its name says, and the number before it is less. -/
theorem tenThousandth_le_iff (h : IsCanonical m e) (he : e ≤ 971) :
    (0.0001 : Float) ≤ ofParts m e h.pos ↔ (10 : ℚ) ^ (-4 : ℤ) ≤ m * 2 ^ e := by
  have hpower : (0 : ℚ) < 2 ^ e := by positivity
  rw [tenThousandth_eq, ofParts_le_iff isCanonical_tenThousandth (by norm_num) h he]
  constructor
  · rintro (hlarger | ⟨rfl, hle⟩)
    · have hfull : 2 ^ 52 ≤ m := h.full.resolve_right (by omega)
      have hmantissa : (2 : ℚ) ^ 52 ≤ m := by exact_mod_cast hfull
      calc (10 : ℚ) ^ (-4 : ℤ) ≤ 2 ^ 52 * 2 ^ (-65 : ℤ) := by norm_num
        _ ≤ 2 ^ 52 * 2 ^ e := by
            gcongr
            · norm_num
            · omega
        _ ≤ m * 2 ^ e := by gcongr
    · have hmantissa : (7378697629483821 : ℚ) ≤ m := by exact_mod_cast hle
      calc (10 : ℚ) ^ (-4 : ℤ) ≤ 7378697629483821 * 2 ^ (-66 : ℤ) := by norm_num
        _ ≤ m * 2 ^ (-66 : ℤ) := by gcongr
  · intro hle
    by_contra hnot
    refine absurd hle (not_le.mpr ?_)
    rcases lt_or_eq_of_le (show e ≤ -66 by omega) with hsmaller | rfl
    · have hmantissa : (m : ℚ) < 2 ^ 53 := by exact_mod_cast h.lt
      calc (m : ℚ) * 2 ^ e < 2 ^ 53 * 2 ^ e := by gcongr
        _ ≤ 2 ^ 53 * 2 ^ (-67 : ℤ) := by
            gcongr
            · norm_num
            · omega
        _ ≤ 10 ^ (-4 : ℤ) := by norm_num
    · have hmantissa : (m : ℚ) ≤ 7378697629483820 := by
        exact_mod_cast (by omega : m ≤ 7378697629483820)
      calc (m : ℚ) * 2 ^ (-66 : ℤ) ≤ 7378697629483820 * 2 ^ (-66 : ℤ) := by gcongr
        _ < 10 ^ (-4 : ℤ) := by norm_num

/-- An integral number is a natural number. -/
theorem value_of_integral {n : Nat} (h : IsCanonical m e) (he : e ≤ 971)
    (hn : integral? (ofParts m e h.pos) = some n) : (n : ℚ) = m * 2 ^ e := by
  rw [integral?, if_pos (isFinite_ofParts h he), magnitude_ofParts h he, Magnitude.toNat?] at hn
  split at hn
  · next hzero =>
    have hdvd := Nat.dvd_of_mod_eq_zero hzero
    have hden : ((Magnitude.mk m e).ratio.2 : ℚ) ≠ 0 := by
      exact_mod_cast (Magnitude.ratio_den_pos _).ne'
    rw [← Option.some.inj hn, Nat.cast_div hdvd hden, ← Magnitude.value_ratio, Ratio.value]
  · cases hn

/-- A number that is not integral has digits behind the point. -/
theorem exponent_neg_of_not_integral (h : IsCanonical m e) (he : e ≤ 971)
    (hnot : integral? (ofParts m e h.pos) = none) : e < 0 := by
  by_contra hge
  rw [integral?, if_pos (isFinite_ofParts h he), magnitude_ofParts h he, Magnitude.toNat?] at hnot
  have hden : (Magnitude.mk m e).ratio.2 = 1 := by
    simp only [Magnitude.ratio, Nat.pow_eq]
    rw [Int.toNat_of_nonpos (by omega), pow_zero]
  rw [hden, if_pos (Nat.mod_one _)] at hnot
  cases hnot

/-- A number below a power of ten has its shortest decimal below it too, unless the power belongs
to another number. -/
theorem shortest_point_le {k : ℤ} (h : IsCanonical m e) (he : e ≤ 971)
    (hlt : (m : ℚ) * 2 ^ e < 10 ^ k) (hne : ofParts m e h.pos ≠ (Decimal.mk 1 k).toFloat) :
    (shortest (ofParts m e h.pos)).point ≤ k := by
  obtain ⟨hfloat, hnear⟩ := shortest_spec h he
  have hlog : Int.log 10 ((m : ℚ) * 2 ^ e) < k := (log_ten_lt_iff h.value_pos).mpr hlt
  have hle : (shortest (ofParts m e h.pos)).value ≤ 10 ^ k :=
    hnear.high.trans (zpow_le_zpow_right₀ (by norm_num) (by omega))
  have hpower : (shortest (ofParts m e h.pos)).value ≠ 10 ^ k := by
    intro hvalue
    have hone : (Decimal.mk 1 k).value = 10 ^ k := by simp [Decimal.value]
    refine hne ?_
    rw [← hfloat]
    exact Decimal.toFloat_congr (hvalue.trans hone.symm)
  exact (Decimal.point_le_iff hnear.value_pos).mpr (lt_of_le_of_ne hle hpower)

/-- A number from a power of ten on has its shortest decimal from there on too. -/
theorem lt_shortest_point {k : ℤ} (h : IsCanonical m e) (he : e ≤ 971)
    (hle : (10 : ℚ) ^ k ≤ m * 2 ^ e) : k < (shortest (ofParts m e h.pos)).point := by
  obtain ⟨-, hnear⟩ := shortest_spec h he
  have hlog : k ≤ Int.log 10 ((m : ℚ) * 2 ^ e) := (le_log_ten_iff h.value_pos).mpr hle
  have hvalue : (10 : ℚ) ^ k ≤ (shortest (ofParts m e h.pos)).value :=
    (zpow_le_zpow_right₀ (by norm_num) hlog).trans hnear.low
  exact not_le.mp ((Decimal.point_le_iff hnear.value_pos).not.mpr (not_lt.mpr hvalue))

/-! ## 5. The text of a number -/

/-- A number that is not integral is written as its shortest decimal. -/
theorem numberText_of_not_integral (h : IsCanonical m e) (he : e ≤ 971)
    (hnot : integral? (ofParts m e h.pos) = none) :
    numberText (ofParts m e h.pos) =
      String.ofList ((shortest (ofParts m e h.pos)).layout .standard) := by
  have hzero : (ofParts m e h.pos == 0.0) = false := by
    have hmodel : (ofParts m e h.pos == 0.0) =
        (ofParts m e h.pos).toModel.unpack.beq (0.0 : Float).toModel.unpack := rfl
    rw [hmodel, unpack_ofParts h he, unpack_zero]
    rfl
  have hinf := isInf_ofParts h he
  have hnan := isNaN_ofParts h he
  have hsign := isNegative_ofParts h he
  rw [numberText, hnot]
  simp only [decimalText, magnitudeText, hzero, hinf, hnan, hsign, Bool.false_eq_true, if_false]

theorem ofParts_ne_of_not_integral (h : IsCanonical m e)
    (hnot : integral? (ofParts m e h.pos) = none) :
    ofParts m e h.pos ≠ (Decimal.mk 1 16).toFloat := by
  intro heq
  have hintegral : (integral? (Decimal.mk 1 16).toFloat).isSome = true := by decide +kernel
  rw [← heq, hnot] at hintegral
  cases hintegral

/-- An integral number is written as a plain numeral. -/
theorem numberText_of_integral {n : Nat} (h : IsCanonical m e) (he : e ≤ 971)
    (hn : integral? (ofParts m e h.pos) = some n) :
    ∃ cs, numberText (ofParts m e h.pos) = String.ofList cs ∧
      IsNumeralOf (ofParts m e h.pos) cs := by
  have hfloat : (Decimal.mk n 0).toFloat = ofParts m e h.pos := by
    refine Decimal.toFloat_of_value h he ?_
    rw [← value_of_integral h he hn]
    simp [Decimal.value]
  refine ⟨Nat.toDigits 10 n, ?_, hfloat ▸ toDigits_isNumeralOf n⟩
  simp [numberText, hn, integralText, isNegative_ofParts h he]

/-- So is a number that is not integral, from `0.0001` on. -/
theorem numberText_of_large (h : IsCanonical m e) (he : e ≤ 971)
    (hnot : integral? (ofParts m e h.pos) = none) (hlarge : (10 : ℚ) ^ (-4 : ℤ) ≤ m * 2 ^ e) :
    ∃ cs, numberText (ofParts m e h.pos) = String.ofList cs ∧
      IsNumeralOf (ofParts m e h.pos) cs := by
  have hlow := lt_shortest_point h he hlarge
  have hhigh : (shortest (ofParts m e h.pos)).point ≤ 16 := by
    refine shortest_point_le h he ?_ (ofParts_ne_of_not_integral h hnot)
    have hexponent := exponent_neg_of_not_integral h he hnot
    have hmantissa : (m : ℚ) < 2 ^ 53 := by exact_mod_cast h.lt
    calc (m : ℚ) * 2 ^ e ≤ m * 2 ^ (0 : ℤ) := by
          gcongr
          norm_num
      _ < 10 ^ (16 : ℤ) := by
          rw [zpow_zero, mul_one]
          exact hmantissa.trans (by norm_num)
  refine ⟨_, numberText_of_not_integral h he hnot, ?_⟩
  have hread := positional_isNumeralOf (shortest (ofParts m e h.pos))
  rwa [(shortest_spec h he).1, ← Decimal.layout_positional hlow hhigh] at hread

/-- A smaller number is written in scientific notation. -/
theorem numberText_eq_scientific (h : IsCanonical m e) (he : e ≤ 971)
    (hnot : integral? (ofParts m e h.pos) = none)
    (hsmall : ¬ (0.0001 : Float) ≤ ofParts m e h.pos) :
    (shortest (ofParts m e h.pos)).point ≤ -4 ∧
      numberText (ofParts m e h.pos) = String.ofList
        (scientific 2 (Nat.toDigits 10 (shortest (ofParts m e h.pos)).digits)
          ((shortest (ofParts m e h.pos)).point - 1)) := by
  have hless : (m : ℚ) * 2 ^ e < 10 ^ (-4 : ℤ) :=
    not_le.mp ((tenThousandth_le_iff h he).not.mp hsmall)
  have hhigh : (shortest (ofParts m e h.pos)).point ≤ -4 := by
    refine shortest_point_le h he hless ?_
    intro heq
    rw [heq] at hsmall
    exact hsmall (by decide +kernel)
  exact ⟨hhigh, by rw [numberText_of_not_integral h he hnot, Decimal.layout_scientific hhigh]⟩

/-- So it is written with a negative exponent. -/
theorem numberText_of_small (h : IsCanonical m e) (he : e ≤ 971)
    (hnot : integral? (ofParts m e h.pos) = none)
    (hsmall : ¬ (0.0001 : Float) ≤ ofParts m e h.pos) :
    ∃ cs, numberText (ofParts m e h.pos) = String.ofList cs ∧ HasNegativeExponent cs := by
  obtain ⟨hhigh, htext⟩ := numberText_eq_scientific h he hnot hsmall
  exact ⟨_, htext, scientific_hasNegativeExponent _ _ (by omega)⟩

end

/-- **A number without an exponent is written as a plain numeral, which reads back.** -/
theorem numberText_of_isPositional {v : Float} (hv : Unsigned v) (h : IsPositional v) :
    ∃ cs, numberText v = String.ofList cs ∧ IsNumeralOf v cs := by
  cases hv with
  | zero =>
    refine ⟨['0'], by decide +kernel, ⟨['0'], none, rfl, by simp, ?_, by simp⟩, ?_⟩
    · simp [AllDigits]
    · decide +kernel
  | infinite =>
    have hnot : infinity.isFinite = false := by decide +kernel
    exact absurd h.1 (by simp [hnot])
  | @finite m e hcanonical he =>
    cases hintegral : integral? (ofParts m e hcanonical.pos) with
    | some n => exact numberText_of_integral hcanonical he hintegral
    | none =>
      have hlarge : (0.0001 : Float) ≤ ofParts m e hcanonical.pos :=
        h.2.resolve_left (by simp [hintegral])
      exact numberText_of_large hcanonical he hintegral
        ((tenThousandth_le_iff hcanonical he).mp hlarge)

/-- Every other number without a sign is infinite, or finite and small but not integral. -/
theorem eq_of_not_isPositional {v : Float} (hv : Unsigned v) (h : ¬ IsPositional v) :
    v = infinity ∨ ∃ (m : Nat) (e : ℤ) (hcanonical : IsCanonical m e), e ≤ 971 ∧
      v = ofParts m e hcanonical.pos ∧ integral? v = none ∧ ¬ (0.0001 : Float) ≤ v := by
  cases hv with
  | zero =>
    have hzero : (0.0 : Float).isFinite = true ∧ (integral? 0.0).isSome = true := by
      decide +kernel
    exact absurd ⟨hzero.1, Or.inl hzero.2⟩ h
  | infinite => exact Or.inl rfl
  | @finite m e hcanonical he =>
    have hfinite := isFinite_ofParts hcanonical he
    refine Or.inr ⟨m, e, hcanonical, he, rfl, ?_, fun hle => h ⟨hfinite, Or.inr hle⟩⟩
    cases hintegral : integral? (ofParts m e hcanonical.pos) with
    | none => rfl
    | some n => exact absurd ⟨hfinite, Or.inl (by rw [hintegral]; rfl)⟩ h

/-- **Every other number without a sign is infinite or is written with a negative exponent.** -/
theorem numberText_of_not_isPositional {v : Float} (hv : Unsigned v) (h : ¬ IsPositional v) :
    numberText v = "inf" ∨ ∃ cs, numberText v = String.ofList cs ∧ HasNegativeExponent cs := by
  rcases eq_of_not_isPositional hv h with rfl | ⟨m, e, hcanonical, he, rfl, hnot, hsmall⟩
  · exact Or.inl (by decide +kernel)
  · exact Or.inr (numberText_of_small hcanonical he hnot hsmall)

end Fluxion.Numeral
