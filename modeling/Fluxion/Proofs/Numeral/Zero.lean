/-
# Zeros

There are two zeros, and they are equal as numbers (`beq_zero_iff`).  Sums and differences of zeros
are zeros.  Products with a zero and quotients of a zero are zeros too, or no numbers: the other
side may be infinite or no number, and a zero may be divided by a zero.
-/
import Fluxion.Proofs.Numeral.Signed

namespace Fluxion.Numeral

open Float.Model Float.Model.UnpackedFloat

/-! ## 1. The two zeros -/

/-- A number is equal to zero if it is one of the zeros. -/
theorem beq_zero_iff {z : Float} : (z == 0.0) = true ↔ ∃ s, z.toModel.unpack = .zero s := by
  have hunpacked : (z == 0.0) = z.toModel.unpack.beq (.zero .positive) := rfl
  rw [hunpacked]
  generalize z.toModel.unpack = u
  constructor
  · intro h
    cases u with
    | zero s => exact ⟨s, rfl⟩
    | notANumber => cases h
    | infinity s => cases s <;> cases h
    | finite s m e hm => cases s <;> cases h
  · rintro ⟨s, rfl⟩
    cases s <;> rfl

/-- A number is less than zero if it has a sign and is not a zero. -/
theorem lt_zero_iff {v : Float} :
    v < 0.0 ↔ v.toModel.unpack = .infinity .negative ∨
      ∃ m e hm, v.toModel.unpack = .finite .negative m e hm := by
  have hunpacked : v < 0.0 ↔ v.toModel.unpack.lt (.zero .positive) = true := decide_eq_true_iff
  rw [hunpacked]
  generalize v.toModel.unpack = u
  constructor
  · intro h
    cases u with
    | notANumber => cases h
    | zero s => cases s <;> cases h
    | infinity s =>
      cases s with
      | positive => cases h
      | negative => exact Or.inl rfl
    | finite s m e hm =>
      cases s with
      | positive => cases h
      | negative => exact Or.inr ⟨m, e, hm, rfl⟩
  · rintro (rfl | ⟨m, e, hm, rfl⟩) <;> rfl

/-- Both zeros compare alike. -/
theorem lt_iff_of_beq_zero {v z : Float} (hz : (z == 0.0) = true) : v < z ↔ v < 0.0 := by
  obtain ⟨s, hs⟩ := beq_zero_iff.mp hz
  have hunpacked (w : Float) : v < w ↔ v.toModel.unpack.lt w.toModel.unpack = true :=
    decide_eq_true_iff
  rw [hunpacked, hunpacked, hs, unpack_zero]
  generalize v.toModel.unpack = u
  cases u with
  | notANumber | zero t => cases s <;> rfl
  | infinity t | finite t m e hm => cases s <;> cases t <;> rfl

/-- The number with the given parts. -/
def packed (u : UnpackedFloat) : Float := .ofModel (.pack u)

theorem packed_zero (s : Sign) : (packed (.zero s) == 0.0) = true := by
  cases s <;> decide +kernel

/-- The parts are those of a zero or of no number at all. -/
def ZeroOrNone (u : UnpackedFloat) : Prop := (∃ s, u = .zero s) ∨ u = .notANumber

theorem ZeroOrNone.beq_zero {u : UnpackedFloat} (h : ZeroOrNone u)
    (hfinite : (packed u).isFinite = true) : (packed u == 0.0) = true := by
  rcases h with ⟨s, rfl⟩ | rfl
  · exact packed_zero s
  · have hnone : (packed .notANumber).isFinite = false := by decide +kernel
    rw [hnone] at hfinite
    cases hfinite

/-! ## 2. Arithmetic with zeros -/

section

variable (spec : Format) (s t : Sign) (u : UnpackedFloat)

theorem zeroOrNone_mul_zero : ZeroOrNone (u.mul spec (.zero t)) := by
  cases u with
  | zero s | finite s m e hm => exact Or.inl ⟨s * t, rfl⟩
  | notANumber | infinity s => exact Or.inr rfl

theorem zeroOrNone_zero_mul : ZeroOrNone ((UnpackedFloat.zero s).mul spec u) := by
  cases u with
  | zero t | finite t m e hm => exact Or.inl ⟨s * t, rfl⟩
  | notANumber | infinity t => exact Or.inr rfl

theorem zeroOrNone_zero_div : ZeroOrNone ((UnpackedFloat.zero s).div spec u) := by
  cases u with
  | infinity t | finite t m e hm => exact Or.inl ⟨s / t, rfl⟩
  | notANumber | zero t => exact Or.inr rfl

end

section

variable {a y z : Float}

theorem add_beq_zero (hy : (y == 0.0) = true) (hz : (z == 0.0) = true) :
    (y + z == 0.0) = true := by
  obtain ⟨s, hs⟩ := beq_zero_iff.mp hy
  obtain ⟨t, ht⟩ := beq_zero_iff.mp hz
  have hsum : y + z = packed (y.toModel.unpack.add Format.binary64 z.toModel.unpack) := rfl
  rw [hsum, hs, ht]
  cases s <;> cases t <;> exact packed_zero _

theorem sub_beq_zero (hy : (y == 0.0) = true) (hz : (z == 0.0) = true) :
    (y - z == 0.0) = true := by
  obtain ⟨s, hs⟩ := beq_zero_iff.mp hy
  obtain ⟨t, ht⟩ := beq_zero_iff.mp hz
  have hdifference : y - z = packed (y.toModel.unpack.sub Format.binary64 z.toModel.unpack) := rfl
  rw [hdifference, hs, ht]
  cases s <;> cases t <;> exact packed_zero _

/-- A product with a zero is a zero if it is finite. -/
theorem mul_beq_zero_right (hz : (z == 0.0) = true) (hfinite : (a * z).isFinite = true) :
    (a * z == 0.0) = true := by
  obtain ⟨t, ht⟩ := beq_zero_iff.mp hz
  have hproduct : a * z = packed (a.toModel.unpack.mul Format.binary64 (.zero t)) := by
    rw [← ht]
    rfl
  rw [hproduct] at hfinite ⊢
  exact (zeroOrNone_mul_zero _ t _).beq_zero hfinite

theorem mul_beq_zero_left (hz : (z == 0.0) = true) (hfinite : (z * a).isFinite = true) :
    (z * a == 0.0) = true := by
  obtain ⟨s, hs⟩ := beq_zero_iff.mp hz
  have hproduct : z * a = packed ((UnpackedFloat.zero s).mul Format.binary64 a.toModel.unpack) := by
    rw [← hs]
    rfl
  rw [hproduct] at hfinite ⊢
  exact (zeroOrNone_zero_mul _ s _).beq_zero hfinite

/-- A quotient of a zero is a zero if it is finite. -/
theorem div_beq_zero (hz : (z == 0.0) = true) (hfinite : (z / a).isFinite = true) :
    (z / a == 0.0) = true := by
  obtain ⟨s, hs⟩ := beq_zero_iff.mp hz
  have hquotient :
      z / a = packed ((UnpackedFloat.zero s).div Format.binary64 a.toModel.unpack) := by
    rw [← hs]
    rfl
  rw [hquotient] at hfinite ⊢
  exact (zeroOrNone_zero_div _ s _).beq_zero hfinite

/-- A zero is not equal to one. -/
theorem beq_one_of_beq_zero (hz : (z == 0.0) = true) : (z == 1.0) = false := by
  obtain ⟨s, hs⟩ := beq_zero_iff.mp hz
  have hunpacked : (z == 1.0) = z.toModel.unpack.beq (1.0 : Float).toModel.unpack := rfl
  rw [hunpacked, hs]
  cases s <;> decide +kernel

end

end Fluxion.Numeral
