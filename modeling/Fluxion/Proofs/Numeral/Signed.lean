/-
# Numbers with a sign

Every floating-point number that is a number at all has no sign, or is the negation of one without
(`unsigned_or_negated`): its bits are a sign and two fields, and the fields determine a number
without a sign (`pack_unpack`).

Negation changes the sign and nothing else (`unpack_neg`).
-/
import Fluxion.Numeral.Format
import Fluxion.Proofs.Numeral.Packing

namespace Fluxion.Numeral

open Float.Model Float.Model.UnpackedFloat

/-! ## 1. Unpacking and packing -/

theorem toBitVec_ofBitVec (b : BitVec 1) : (Sign.ofBitVec b).toBitVec = b := by
  revert b
  decide

section

variable (b : BitVec 64)

/-- The fields of a number. -/
abbrev signField : BitVec 1 := @unpackSign Format.binary64 b

abbrev powerField : BitVec 11 := @unpackExponent Format.binary64 b

abbrev fractionField : BitVec 52 := @unpackMantissa Format.binary64 b

/-- The bits of a number are its three fields. -/
theorem packComponents_fields :
    packComponents Format.binary64 (Sign.ofBitVec (signField b)) (powerField b)
      (fractionField b) = b := by
  have hlt : b.toNat < 2 ^ 64 := b.isLt
  have hfraction : (fractionField b).toNat = b.toNat % 2 ^ 52 := by
    simp [unpackMantissa, BitVec.extractLsb]
  have hpower : (powerField b).toNat = b.toNat / 2 ^ 52 % 2 ^ 11 := by
    simp [unpackExponent, BitVec.extractLsb, Nat.shiftRight_eq_div_pow]
  have hsign : (signField b).toNat = b.toNat / 2 ^ 63 := by
    simp only [unpackSign, BitVec.extractLsb, BitVec.toNat_cast, BitVec.extractLsb'_toNat,
      Nat.shiftRight_eq_div_pow]
    omega
  apply BitVec.eq_of_toNat_eq
  rw [packComponents, toBitVec_ofBitVec, BitVec.toNat_append, BitVec.toNat_append,
    ← Nat.shiftLeft_add_eq_or_of_lt (BitVec.isLt _),
    ← Nat.shiftLeft_add_eq_or_of_lt (BitVec.isLt _), Nat.shiftLeft_eq, Nat.shiftLeft_eq,
    hfraction, hpower, hsign]
  change (b.toNat / 2 ^ 63 * 2 ^ 11 + b.toNat / 2 ^ 52 % 2 ^ 11) * 2 ^ 52 + b.toNat % 2 ^ 52 =
    b.toNat
  omega

/-- A finite number has a canonical mantissa and exponent. -/
def Canonical : UnpackedFloat → Prop
  | .finite _ m e _ => IsCanonical m e ∧ e ≤ 971
  | _ => True

/-- The parts of a finite number are packed into its fields. -/
theorem pack_of_fields {m : Nat} {e : ℤ} (h : IsCanonical m e) (he : e ≤ 971)
    (hpower : exponentField m e = (powerField b).toNat)
    (hfraction : m % 2 ^ 52 = (fractionField b).toNat) :
    UnpackedFloat.pack Format.binary64 (.finite (Sign.ofBitVec (signField b)) m e h.pos) = b := by
  have hlow : BitVec.ofNat 52 m = fractionField b := by
    apply BitVec.eq_of_toNat_eq
    rw [BitVec.toNat_ofNat, hfraction]
  rw [pack_eq _ h he, hpower, hlow, BitVec.ofNat_toNat, BitVec.setWidth_eq]
  exact packComponents_fields b

/-- **The bits of a number are read as canonical parts, and packing these gives the bits back.** -/
theorem pack_unpack (hnumber : UnpackedFloat.unpack Format.binary64 b ≠ .notANumber) :
    Canonical (UnpackedFloat.unpack Format.binary64 b) ∧
      UnpackedFloat.pack Format.binary64 (UnpackedFloat.unpack Format.binary64 b) = b := by
  have hbias : Format.binary64.exponentBias = 1023 := by decide
  have hfraction : (fractionField b).toNat < 2 ^ 52 := (fractionField b).isLt
  have hpower : (powerField b).toNat < 2 ^ 11 := (powerField b).isLt
  have hfields := packComponents_fields b
  unfold UnpackedFloat.unpack at hnumber ⊢
  simp only [hbias] at hnumber ⊢
  by_cases hones : powerField b = -1#11
  · by_cases hzero : fractionField b = 0#52
    · rw [if_pos hones, if_pos hzero]
      rw [hones, hzero] at hfields
      exact ⟨trivial, hfields⟩
    · rw [if_pos hones, if_neg hzero] at hnumber
      exact absurd rfl hnumber
  have hmax : (powerField b).toNat ≠ 2047 := fun h => hones (BitVec.eq_of_toNat_eq h)
  rw [if_neg hones]
  by_cases hnone : powerField b = 0#11
  · have hleast : (powerField b).toNat = 0 := by rw [hnone]; rfl
    rw [if_pos hnone]
    by_cases hzero : fractionField b = 0#52
    · rw [dif_pos hzero]
      rw [hnone, hzero] at hfields
      exact ⟨trivial, hfields⟩
    · have hpos : 0 < (fractionField b).toNat :=
        Nat.pos_of_ne_zero fun h => hzero (BitVec.eq_of_toNat_eq h)
      have hcanonical : IsCanonical (fractionField b).toNat
          (((powerField b).toNat : ℤ) - ((1023 : Nat) + (52 : Nat)) + 1) :=
        ⟨hpos, by omega, by omega, Or.inr (by omega)⟩
      have hle : ((powerField b).toNat : ℤ) - ((1023 : Nat) + (52 : Nat)) + 1 ≤ 971 := by omega
      have hpacked : exponentField (fractionField b).toNat
          (((powerField b).toNat : ℤ) - ((1023 : Nat) + (52 : Nat)) + 1) =
            (powerField b).toNat := by
        rw [exponentField, if_neg (by omega), hleast]
      rw [dif_neg hzero]
      exact ⟨⟨hcanonical, hle⟩, pack_of_fields b hcanonical hle hpacked
        (Nat.mod_eq_of_lt hfraction)⟩
  · have hmore : (powerField b).toNat ≠ 0 := fun h => hnone (BitVec.eq_of_toNat_eq h)
    have hmantissa : (1#1 ++ fractionField b).toNat = 2 ^ 52 + (fractionField b).toNat := by
      rw [BitVec.toNat_append, ← Nat.shiftLeft_add_eq_or_of_lt (BitVec.isLt _), Nat.shiftLeft_eq]
      rfl
    have hcanonical : IsCanonical (1#1 ++ fractionField b).toNat
        (((powerField b).toNat : ℤ) - ((1023 : Nat) + (52 : Nat))) :=
      ⟨by omega, by omega, by omega, Or.inl (by omega)⟩
    have hle : ((powerField b).toNat : ℤ) - ((1023 : Nat) + (52 : Nat)) ≤ 971 := by omega
    have hpacked : exponentField (1#1 ++ fractionField b).toNat
        (((powerField b).toNat : ℤ) - ((1023 : Nat) + (52 : Nat))) = (powerField b).toNat := by
      rw [exponentField, if_pos (by omega)]
      omega
    rw [if_neg hnone]
    exact ⟨⟨hcanonical, hle⟩, pack_of_fields b hcanonical hle hpacked (by omega)⟩

end

/-! ## 2. Every number -/

/-- A number is what its parts are packed into. -/
theorem ofModel_pack_unpack {v : Float} (h : v.isNaN = false) :
    Canonical v.toModel.unpack ∧ Float.ofModel (Float.Model.pack v.toModel.unpack) = v := by
  have hnumber : v.toModel.unpack ≠ .notANumber := by
    intro hnot
    have htrue : v.isNaN = true := by
      unfold Float.isNaN Float.Model.isNaN
      rw [hnot]
      rfl
    rw [htrue] at h
    cases h
  obtain ⟨⟨bits, hvalid⟩⟩ := v
  obtain ⟨hcanonical, hpack⟩ := pack_unpack bits.toBitVec hnumber
  refine ⟨hcanonical, ?_⟩
  congr 1
  unfold Float.Model.pack
  congr 1
  exact congrArg UInt64.ofBitVec hpack

/-- The negation of a number, from its parts. -/
theorem neg_eq (v : Float) :
    -v = Float.ofModel (Float.Model.pack v.toModel.unpack.neg) := rfl

/-- Negation negates the parts. -/
theorem unpack_neg {v : Float} (h : v.isNaN = false) :
    (-v).toModel.unpack = v.toModel.unpack.neg := by
  obtain ⟨hcanonical, -⟩ := ofModel_pack_unpack h
  rw [neg_eq]
  generalize v.toModel.unpack = u at hcanonical ⊢
  cases u with
  | notANumber => rfl
  | infinity s | zero s => cases s <;> rfl
  | finite s m e hm => exact unpack_pack (-s) hcanonical.1 hcanonical.2

/-- **A number has no sign, or is the negation of one without a sign.** -/
theorem unsigned_or_negated {v : Float} (h : v.isNaN = false) :
    Unsigned v ∨ ∃ w, Unsigned w ∧ v = -w := by
  obtain ⟨hcanonical, hpack⟩ := ofModel_pack_unpack h
  generalize v.toModel.unpack = u at hcanonical hpack
  subst hpack
  cases u with
  | notANumber => exact absurd h (by decide +kernel)
  | infinity s =>
    cases s with
    | positive =>
      have hinfinity : Float.ofModel (Float.Model.pack (.infinity .positive)) = infinity := by
        decide +kernel
      exact Or.inl (hinfinity ▸ .infinite)
    | negative => exact Or.inr ⟨infinity, .infinite, by decide +kernel⟩
  | zero s =>
    cases s with
    | positive =>
      have hzero : Float.ofModel (Float.Model.pack (.zero .positive)) = 0.0 := by decide +kernel
      exact Or.inl (hzero ▸ .zero)
    | negative => exact Or.inr ⟨0.0, .zero, by decide +kernel⟩
  | finite s m e hm =>
    obtain ⟨hcan, he⟩ := hcanonical
    cases s with
    | positive => exact Or.inl (.finite hcan he)
    | negative =>
      refine Or.inr ⟨ofParts m e hcan.pos, .finite hcan he, ?_⟩
      rw [neg_eq, unpack_ofParts hcan he]
      rfl

/-! ## 3. Negation -/

/-- A positive number is a number. -/
theorem isNaN_of_pos {v : Float} (h : 0.0 < v) : v.isNaN = false := by
  have hunpacked : 0.0 < v ↔ (0.0 : Float).toModel.unpack.lt v.toModel.unpack = true :=
    decide_eq_true_iff
  have hlt := hunpacked.mp h
  unfold Float.isNaN Float.Model.isNaN
  generalize v.toModel.unpack = u at hlt
  cases u with
  | notANumber => cases hlt
  | infinity s | zero s | finite s m e hm => rfl

section

variable {m : Nat} {e : ℤ}

theorem unpack_neg_ofParts (h : IsCanonical m e) (he : e ≤ 971) :
    (-(ofParts m e h.pos)).toModel.unpack = .finite .negative m e h.pos := by
  rw [unpack_neg (isNaN_ofParts h he), unpack_ofParts h he]
  rfl

theorem toBits_neg_ofParts (h : IsCanonical m e) (he : e ≤ 971) :
    (-(ofParts m e h.pos)).toBits.toNat = 2 ^ 63 + (ofParts m e h.pos).toBits.toNat := by
  have hbits : (-(ofParts m e h.pos)).toBits.toNat =
      (UnpackedFloat.pack Format.binary64 (.finite .negative m e h.pos)).toNat := by
    rw [neg_eq, unpack_ofParts h he]
    rfl
  have hsign : Sign.negative.toBitVec.toNat = 1 := rfl
  rw [hbits, toNat_pack .negative h he, toBits_ofParts h he, hsign, Nat.one_mul, Nat.add_assoc]

theorem isNegative_neg_ofParts (h : IsCanonical m e) (he : e ≤ 971) :
    isNegative (-(ofParts m e h.pos)) = true := by
  unfold isNegative
  rw [toBits_neg_ofParts h he]
  simp

/-- The magnitude does not depend on the sign. -/
theorem magnitude_neg_ofParts (h : IsCanonical m e) (he : e ≤ 971) :
    magnitude (-(ofParts m e h.pos)) = magnitude (ofParts m e h.pos) := by
  unfold magnitude
  simp only [toBits_neg_ofParts h he, Nat.pow_eq]
  have hfraction : ∀ b : Nat, (2 ^ 63 + b) % 2 ^ 52 = b % 2 ^ 52 := by omega
  have hpower : ∀ b : Nat, (2 ^ 63 + b) / 2 ^ 52 % 2 ^ 11 = b / 2 ^ 52 % 2 ^ 11 := by omega
  rw [hfraction, hpower]

theorem isFinite_neg_ofParts (h : IsCanonical m e) (he : e ≤ 971) :
    (-(ofParts m e h.pos)).isFinite = true := by
  unfold Float.isFinite Float.Model.isFinite
  rw [unpack_neg_ofParts h he]
  rfl

theorem isInf_neg_ofParts (h : IsCanonical m e) (he : e ≤ 971) :
    (-(ofParts m e h.pos)).isInf = false := by
  unfold Float.isInf Float.Model.isInf
  rw [unpack_neg_ofParts h he]
  rfl

theorem isNaN_neg_ofParts (h : IsCanonical m e) (he : e ≤ 971) :
    (-(ofParts m e h.pos)).isNaN = false := by
  unfold Float.isNaN Float.Model.isNaN
  rw [unpack_neg_ofParts h he]
  rfl

theorem abs_neg_ofParts (h : IsCanonical m e) (he : e ≤ 971) :
    (-(ofParts m e h.pos)).abs = ofParts m e h.pos := by
  unfold Float.abs Float.Model.abs
  rw [unpack_neg_ofParts h he]
  rfl

theorem beq_zero_neg_ofParts (h : IsCanonical m e) (he : e ≤ 971) :
    (-(ofParts m e h.pos) == 0.0) = false := by
  have hmodel : (-(ofParts m e h.pos) == 0.0) =
      (-(ofParts m e h.pos)).toModel.unpack.beq (0.0 : Float).toModel.unpack := rfl
  rw [hmodel, unpack_neg_ofParts h he, unpack_zero]
  rfl

theorem zero_lt_ofParts (h : IsCanonical m e) (he : e ≤ 971) : 0.0 < ofParts m e h.pos := by
  have hunpacked : 0.0 < ofParts m e h.pos ↔
      (0.0 : Float).toModel.unpack.lt (ofParts m e h.pos).toModel.unpack = true :=
    decide_eq_true_iff
  rw [hunpacked, unpack_zero, unpack_ofParts h he]
  rfl

end

end Fluxion.Numeral
