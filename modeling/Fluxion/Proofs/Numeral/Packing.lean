/-
# Numbers and their bits

A positive finite number is a canonical mantissa and exponent (`IsCanonical`), packed into
sixty-four bits.  `ofParts` packs them.  As long as the exponent fits, nothing is lost: unpacking
gives the same parts (`unpack_ofParts`), and the model's own reading of the bits does so too
(`magnitude_ofParts`).  An exponent that does not fit makes the number infinite.
-/
import Fluxion.Numeral.Decimal
import Fluxion.Proofs.Numeral.Rounding

namespace Fluxion.Numeral

open Float.Model Float.Model.UnpackedFloat

/-! ## 1. Packed fields -/

/-- The bits of a number, from its three fields. -/
theorem toNat_packComponents (s : Sign) (b f : Nat) (hb : b < 2 ^ 11) (hf : f < 2 ^ 52) :
    (packComponents Format.binary64 s (BitVec.ofNat 11 b) (BitVec.ofNat 52 f)).toNat =
      s.toBitVec.toNat * 2 ^ 63 + b * 2 ^ 52 + f := by
  have hfront : (s.toBitVec ++ BitVec.ofNat 11 b).toNat = s.toBitVec.toNat * 2 ^ 11 + b := by
    rw [BitVec.toNat_append, BitVec.toNat_ofNat, Nat.mod_eq_of_lt hb,
      ← Nat.shiftLeft_add_eq_or_of_lt hb, Nat.shiftLeft_eq]
  unfold packComponents
  rw [BitVec.toNat_append, hfront, BitVec.toNat_ofNat, Nat.mod_eq_of_lt hf,
    ← Nat.shiftLeft_add_eq_or_of_lt hf, Nat.shiftLeft_eq]
  omega

@[simp] theorem unpackSign_packComponents (s : Sign) (b : BitVec 11) (f : BitVec 52) :
    unpackSign (packComponents Format.binary64 s b f) = s.toBitVec := by
  apply BitVec.eq_of_getLsbD_eq
  intro i hi
  obtain rfl : i = 0 := by omega
  have hfront : (s.toBitVec ++ b).getLsbD 11 = s.toBitVec.getLsbD 0 := by
    rw [BitVec.getLsbD_append]
    simp
  have hall : (s.toBitVec ++ b ++ f).getLsbD 63 = s.toBitVec.getLsbD 0 := by
    rw [BitVec.getLsbD_append]
    exact hfront
  simp [unpackSign, packComponents, hall]

@[simp] theorem ofBitVec_toBitVec (s : Sign) : Sign.ofBitVec s.toBitVec = s := by
  cases s <;> rfl

/-! ## 2. Numbers from their parts -/

/-- The number with the given mantissa and exponent. -/
def ofParts (m : Nat) (e : ℤ) (h : 0 < m) : Float :=
  Float.ofModel (Float.Model.pack (.finite .positive m e h))

/-- The field that holds an exponent: zero where the mantissa is short. -/
def exponentField (m : Nat) (e : ℤ) : Nat :=
  if 2 ^ 52 ≤ m then (e + 1075).toNat else 0

/-- The packed parts, behind a sign. -/
theorem pack_eq (s : Sign) {m : Nat} {e : ℤ} (h : IsCanonical m e) (he : e ≤ 971) :
    UnpackedFloat.pack Format.binary64 (.finite s m e h.pos) =
      packComponents Format.binary64 s (BitVec.ofNat 11 (exponentField m e))
        (BitVec.ofNat 52 m) := by
  have hleast := h.least
  have hfits : ¬ 2 ^ 11 ≤ (e + 1023 + 52).toNat + 1 := by omega
  have hbias : Format.binary64.exponentBias = 1023 := by decide
  have hbits : Format.binary64.mantissaBits = 53 := rfl
  unfold UnpackedFloat.pack exponentField
  simp only [hbias, hbits]
  rw [if_neg (by exact_mod_cast hfits)]
  by_cases hfull : 2 ^ 52 ≤ m
  · have hlog : m.log2 + 1 = 53 := by
      have hge : 52 ≤ m.log2 := (Nat.le_log2 h.pos.ne').mpr hfull
      have hle := h.log2_le
      omega
    rw [if_pos hlog, if_pos hfull]
    have hsum : (e + (1023 : Nat) + (52 : Nat)).toNat = (e + 1075).toNat := by omega
    rw [hsum]
  · have hlog : ¬ m.log2 + 1 = 53 := by
      have hlt : m.log2 < 52 := (Nat.log2_lt h.pos.ne').mpr (by omega)
      omega
    rw [if_neg hlog, if_neg hfull]

theorem exponentField_lt {m : Nat} {e : ℤ} (he : e ≤ 971) : exponentField m e < 2047 := by
  unfold exponentField
  split <;> omega

/-- Packing a sign and a canonical mantissa and exponent loses nothing. -/
theorem unpack_pack (s : Sign) {m : Nat} {e : ℤ} (h : IsCanonical m e) (he : e ≤ 971) :
    UnpackedFloat.unpack Format.binary64
      (UnpackedFloat.pack Format.binary64 (.finite s m e h.pos)) = .finite s m e h.pos := by
  have hleast := h.least
  have hlt := h.lt
  have hfield := exponentField_lt (m := m) he
  have hfieldNat : (BitVec.ofNat 11 (exponentField m e)).toNat = exponentField m e := by
    rw [BitVec.toNat_ofNat, Nat.mod_eq_of_lt (by omega)]
  have hbias : Format.binary64.exponentBias = 1023 := by decide
  have hnotMax : BitVec.ofNat 11 (exponentField m e) ≠ -1#11 := by
    intro heq
    have hnat := congrArg BitVec.toNat heq
    rw [hfieldNat] at hnat
    have hmax : (-1#11).toNat = 2047 := by decide
    omega
  rw [pack_eq s h he]
  unfold UnpackedFloat.unpack
  simp only [unpackMantissa_packComponents, unpackExponent_packComponents]
  by_cases hfull : 2 ^ 52 ≤ m
  · have hfieldEq : exponentField m e = (e + 1075).toNat := if_pos hfull
    have hnotZero : BitVec.ofNat 11 (exponentField m e) ≠ 0#11 := by
      intro heq
      have hnat := congrArg BitVec.toNat heq
      rw [hfieldNat] at hnat
      have hzero : (0#11).toNat = 0 := by decide
      omega
    have hlow : (BitVec.ofNat 52 m).toNat = m % 2 ^ 52 := BitVec.toNat_ofNat m 52
    have hone : (1#1).toNat = 1 := by decide
    have hmantissa : (1#1 ++ BitVec.ofNat 52 m).toNat = m := by
      rw [BitVec.toNat_append, ← Nat.shiftLeft_add_eq_or_of_lt (BitVec.isLt _), hlow, hone,
        Nat.shiftLeft_eq]
      omega
    rw [if_neg hnotMax, if_neg hnotZero]
    simp only [unpackSign_packComponents, ofBitVec_toBitVec, hfieldNat, hbias, hmantissa]
    congr 1
    push_cast
    omega
  · have hfieldEq : exponentField m e = 0 := if_neg hfull
    have hmantissa : (BitVec.ofNat 52 m).toNat = m := by
      rw [BitVec.toNat_ofNat, Nat.mod_eq_of_lt (by omega)]
    have hnotZero : BitVec.ofNat 52 m ≠ 0#52 := by
      intro heq
      have hnat := congrArg BitVec.toNat heq
      rw [hmantissa] at hnat
      have hpos := h.pos
      have hzero : (0#52).toNat = 0 := by decide
      omega
    have heq : e = -1074 := h.full.resolve_left hfull
    rw [if_neg hnotMax, if_pos (by rw [hfieldEq]), dif_neg hnotZero]
    rw [hfieldEq] at hfieldNat
    simp only [unpackSign_packComponents, ofBitVec_toBitVec, hbias, hmantissa, hfieldEq,
      hfieldNat]
    congr 1
    push_cast
    omega

theorem unpack_ofParts {m : Nat} {e : ℤ} (h : IsCanonical m e) (he : e ≤ 971) :
    (ofParts m e h.pos).toModel.unpack = .finite .positive m e h.pos :=
  unpack_pack .positive h he

/-- The bits of a number with a sign. -/
theorem toNat_pack (s : Sign) {m : Nat} {e : ℤ} (h : IsCanonical m e) (he : e ≤ 971) :
    (UnpackedFloat.pack Format.binary64 (.finite s m e h.pos)).toNat =
      s.toBitVec.toNat * 2 ^ 63 + exponentField m e * 2 ^ 52 + m % 2 ^ 52 := by
  have hfield := exponentField_lt (m := m) he
  have hlow : BitVec.ofNat 52 m = BitVec.ofNat 52 (m % 2 ^ 52) := by
    apply BitVec.eq_of_toNat_eq
    simp
  rw [pack_eq s h he, hlow]
  exact toNat_packComponents _ _ _ (by omega) (Nat.mod_lt _ (by norm_num))

/-- The bits of the number. -/
theorem toBits_ofParts {m : Nat} {e : ℤ} (h : IsCanonical m e) (he : e ≤ 971) :
    (ofParts m e h.pos).toBits.toNat = exponentField m e * 2 ^ 52 + m % 2 ^ 52 := by
  have hbits : (ofParts m e h.pos).toBits.toNat =
      (UnpackedFloat.pack Format.binary64 (.finite .positive m e h.pos)).toNat := rfl
  have hsign : Sign.positive.toBitVec.toNat = 0 := rfl
  rw [hbits, toNat_pack .positive h he, hsign, Nat.zero_mul, Nat.zero_add]

theorem isNegative_ofParts {m : Nat} {e : ℤ} (h : IsCanonical m e) (he : e ≤ 971) :
    isNegative (ofParts m e h.pos) = false := by
  have hfield := exponentField_lt (m := m) he
  have hlow : m % 2 ^ 52 < 2 ^ 52 := Nat.mod_lt _ (by norm_num)
  unfold isNegative
  rw [toBits_ofParts h he]
  simp only [ge_iff_le, Nat.pow_eq, decide_eq_false_iff_not]
  omega

/-- The parts of a number are read off its bits. -/
theorem magnitude_ofParts {m : Nat} {e : ℤ} (h : IsCanonical m e) (he : e ≤ 971) :
    magnitude (ofParts m e h.pos) = ⟨m, e⟩ := by
  have hfield := exponentField_lt (m := m) he
  have hlt := h.lt
  have hleast := h.least
  have hlow : m % 2 ^ 52 < 2 ^ 52 := Nat.mod_lt _ (by norm_num)
  have hfraction : (exponentField m e * 2 ^ 52 + m % 2 ^ 52) % 2 ^ 52 = m % 2 ^ 52 := by omega
  have hexponent : (exponentField m e * 2 ^ 52 + m % 2 ^ 52) / 2 ^ 52 % 2 ^ 11 =
      exponentField m e := by omega
  unfold magnitude
  simp only [toBits_ofParts h he, Nat.pow_eq, hfraction, hexponent]
  by_cases hfull : 2 ^ 52 ≤ m
  · have hfieldEq : exponentField m e = (e + 1075).toNat := if_pos hfull
    have hnotZero : exponentField m e ≠ 0 := by omega
    rw [if_neg hnotZero, Magnitude.mk.injEq]
    constructor
    · omega
    · omega
  · have hfieldEq : exponentField m e = 0 := if_neg hfull
    have heq : e = -1074 := h.full.resolve_left hfull
    rw [if_pos hfieldEq, Magnitude.mk.injEq]
    constructor
    · exact Nat.mod_eq_of_lt (by omega)
    · exact heq.symm

theorem isFinite_ofParts {m : Nat} {e : ℤ} (h : IsCanonical m e) (he : e ≤ 971) :
    (ofParts m e h.pos).isFinite = true := by
  unfold Float.isFinite Float.Model.isFinite
  rw [unpack_ofParts h he]
  rfl

theorem isInf_ofParts {m : Nat} {e : ℤ} (h : IsCanonical m e) (he : e ≤ 971) :
    (ofParts m e h.pos).isInf = false := by
  unfold Float.isInf Float.Model.isInf
  rw [unpack_ofParts h he]
  rfl

theorem isNaN_ofParts {m : Nat} {e : ℤ} (h : IsCanonical m e) (he : e ≤ 971) :
    (ofParts m e h.pos).isNaN = false := by
  unfold Float.isNaN Float.Model.isNaN
  rw [unpack_ofParts h he]
  rfl

theorem abs_ofParts {m : Nat} {e : ℤ} (h : IsCanonical m e) (he : e ≤ 971) :
    (ofParts m e h.pos).abs = ofParts m e h.pos := by
  unfold Float.abs Float.Model.abs
  rw [unpack_ofParts h he]
  rfl

/-- A number whose exponent does not fit is infinite. -/
theorem ofParts_of_overflow {m : Nat} {e : ℤ} (h : 0 < m) (he : 972 ≤ e) :
    ofParts m e h = infinity := by
  have hpacked : UnpackedFloat.pack Format.binary64 (.finite .positive m e h) =
      packedInfinity Format.binary64 .positive := by
    have hbias : Format.binary64.exponentBias = 1023 := by decide
    have hfits : 2 ^ 11 ≤ (e + 1023 + 52).toNat + 1 := by omega
    unfold UnpackedFloat.pack
    simp only [hbias]
    rw [if_pos (by exact_mod_cast hfits)]
  have hmodel : Float.Model.pack (.finite .positive m e h) =
      Float.Model.pack (.infinity .positive) := by
    unfold Float.Model.pack
    congr 1
    exact congrArg UInt64.ofBitVec hpacked
  rw [ofParts, hmodel]
  decide +kernel

/-! ## 3. Numbers without a sign -/

/-- The numbers without a sign: zero, infinity, and the positive finite numbers. -/
inductive Unsigned : Float → Prop where
  | zero : Unsigned 0.0
  | infinite : Unsigned infinity
  | finite {m : Nat} {e : ℤ} (h : IsCanonical m e) : e ≤ 971 → Unsigned (ofParts m e h.pos)

theorem Unsigned.isNegative_eq_false {v : Float} (h : Unsigned v) : isNegative v = false := by
  cases h with
  | zero | infinite => decide +kernel
  | finite h he => exact isNegative_ofParts h he

theorem Unsigned.isNaN_eq_false {v : Float} (h : Unsigned v) : v.isNaN = false := by
  cases h with
  | zero | infinite => decide +kernel
  | finite h he => exact isNaN_ofParts h he

theorem unpack_zero : (0.0 : Float).toModel.unpack = .zero .positive := by rfl

theorem unpack_infinity : infinity.toModel.unpack = .infinity .positive := by rfl

theorem compare_parts_eq_iff {m m' : Nat} {e e' : ℤ} :
    (compare e e').then (compare m m') = .eq ↔ e = e' ∧ m = m' := by
  simp [Ordering.then_eq_eq]

/-- **Numbers without a sign compare equal just when they are one number.** -/
theorem Unsigned.beq_iff {v w : Float} (hv : Unsigned v) (hw : Unsigned w) :
    (v == w) = true ↔ v = w := by
  have hmodel : (v == w) = v.toModel.unpack.beq w.toModel.unpack := rfl
  rw [hmodel, UnpackedFloat.beq]
  constructor
  · intro hequal
    cases hv with
    | zero =>
      cases hw with
      | zero => rfl
      | infinite => cases hequal
      | finite h he =>
        rw [unpack_zero, unpack_ofParts h he] at hequal
        cases hequal
    | infinite =>
      cases hw with
      | zero => cases hequal
      | infinite => rfl
      | finite h he =>
        rw [unpack_infinity, unpack_ofParts h he] at hequal
        cases hequal
    | @finite m e h he =>
      rw [unpack_ofParts h he] at hequal
      cases hw with
      | zero => cases hequal
      | infinite => cases hequal
      | @finite m' e' h' he' =>
        rw [unpack_ofParts h' he'] at hequal
        have hcompare : (compare e e').then (compare m m') = .eq := by
          simpa [UnpackedFloat.compare] using hequal
        obtain ⟨rfl, rfl⟩ := compare_parts_eq_iff.mp hcompare
        rfl
  · rintro rfl
    cases hv with
    | zero => rfl
    | infinite => rfl
    | finite h he =>
      rw [unpack_ofParts h he]
      simp [UnpackedFloat.compare]

/-- Positive finite numbers are compared by their exponents first. -/
theorem ofParts_le_iff {m m' : Nat} {e e' : ℤ} (h : IsCanonical m e) (he : e ≤ 971)
    (h' : IsCanonical m' e') (he' : e' ≤ 971) :
    ofParts m e h.pos ≤ ofParts m' e' h'.pos ↔ e < e' ∨ (e = e' ∧ m ≤ m') := by
  have hunpacked : ofParts m e h.pos ≤ ofParts m' e' h'.pos ↔
      (ofParts m e h.pos).toModel.unpack.le (ofParts m' e' h'.pos).toModel.unpack = true :=
    decide_eq_true_iff
  rw [hunpacked, unpack_ofParts h he, unpack_ofParts h' he']
  simp only [UnpackedFloat.le, UnpackedFloat.compare, Option.any_some]
  rcases lt_trichotomy e e' with hlt | rfl | hgt
  · have hcompare : compare e e' = .lt := compare_lt_iff_lt.mpr hlt
    simp [hcompare, hlt]
  · have hisLE : (compare m m').isLE = true ↔ m ≤ m' := Nat.isLE_compare
    simp [hisLE]
  · have hcompare : compare e e' = .gt := compare_gt_iff_gt.mpr hgt
    simp [hcompare]
    omega

end Fluxion.Numeral
