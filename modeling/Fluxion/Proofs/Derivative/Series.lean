/-
# A field with a derivation

A derivation of a domain extends to its field of fractions.  The extension goes through the dual
numbers: a derivation `d` is the same as the ring homomorphism `r ↦ r + d r · ε`, and a
homomorphism that maps every denominator to a unit extends to fractions.

Applied to power series, this gives a field in which the variable has derivative one and the
exponential series is its own derivative.
-/
import Mathlib.Algebra.DualNumber
import Mathlib.RingTheory.Derivation.Basic
import Mathlib.RingTheory.Localization.FractionRing
import Mathlib.RingTheory.PowerSeries.Exp

namespace Fluxion

/-! ## 1. Derivations of fractions -/

section

variable {A R K : Type} [CommRing A] [CommRing R] [Algebra A R] [Field K] [Algebra R K]

variable (K) in
/-- An element and its derivative, as a dual number over the fractions. -/
def dual (d : Derivation A R R) : R →+* TrivSqZeroExt K K where
  toFun r := TrivSqZeroExt.inl (algebraMap R K r) + TrivSqZeroExt.inr (algebraMap R K (d r))
  map_zero' := by simp
  map_one' := by simp
  map_add' r s := by
    ext
    · simp
    · simp only [map_add, TrivSqZeroExt.snd_add, TrivSqZeroExt.snd_inl, TrivSqZeroExt.snd_inr]
      ring
  map_mul' r s := by
    ext
    · simp
    · simp only [Derivation.leibniz, map_add, map_mul, smul_eq_mul, TrivSqZeroExt.snd_add,
        TrivSqZeroExt.snd_mul, TrivSqZeroExt.fst_add, TrivSqZeroExt.fst_inl,
        TrivSqZeroExt.fst_inr, TrivSqZeroExt.snd_inl, TrivSqZeroExt.snd_inr,
        MulOpposite.smul_eq_mul_unop, MulOpposite.unop_op]
      ring

theorem fst_dual (d : Derivation A R R) (r : R) : (dual K d r).fst = algebraMap R K r :=
  add_zero _

theorem snd_dual (d : Derivation A R R) (r : R) :
    (dual K d r).snd = algebraMap R K (d r) :=
  zero_add _

variable [IsFractionRing R K]

theorem isUnit_dual (d : Derivation A R R) (r : nonZeroDivisors R) : IsUnit (dual K d r) := by
  rw [TrivSqZeroExt.isUnit_iff_isUnit_fst, fst_dual]
  exact IsLocalization.map_units K r

/-- A fraction and its derivative, as a dual number. -/
noncomputable def dualFraction (d : Derivation A R R) : K →+* TrivSqZeroExt K K :=
  IsLocalization.lift (isUnit_dual d)

theorem dualFraction_algebraMap (d : Derivation A R R) (r : R) :
    dualFraction d (algebraMap R K r) = dual K d r :=
  IsLocalization.lift_eq (isUnit_dual d) r

theorem fst_dualFraction (d : Derivation A R R) (u : K) : (dualFraction d u).fst = u := by
  have hid : ((TrivSqZeroExt.fstHom K K K).toRingHom.comp (dualFraction d)) = RingHom.id K := by
    refine IsLocalization.ringHom_ext (nonZeroDivisors R) ?_
    ext r
    exact (congrArg TrivSqZeroExt.fst (dualFraction_algebraMap d r)).trans (fst_dual d r)
  exact congrArg (fun φ : K →+* K => φ u) hid

/-- The derivation of the fractions that extends `d`. -/
noncomputable def fractionDerivation (d : Derivation A R R) : Derivation ℤ K K :=
  Derivation.mk'
    (AddMonoidHom.toIntLinearMap
      { toFun := fun u => (dualFraction d u).snd
        map_zero' := by simp
        map_add' := fun u v => by simp })
    (by
      intro u v
      simp [fst_dualFraction, mul_comm])

theorem fractionDerivation_algebraMap (d : Derivation A R R) (r : R) :
    fractionDerivation d (algebraMap R K r) = algebraMap R K (d r) := by
  have hsnd : fractionDerivation d (algebraMap R K r) =
      (dualFraction d (algebraMap R K r)).snd := rfl
  rw [hsnd, dualFraction_algebraMap, snd_dual]

end

/-! ## 2. Power series -/

open PowerSeries

/-- The field of fractions of power series. -/
def Series : Type := FractionRing ℚ⟦X⟧

namespace Series

noncomputable instance : Field Series := inferInstanceAs (Field (FractionRing ℚ⟦X⟧))

noncomputable instance : Algebra ℚ⟦X⟧ Series :=
  inferInstanceAs (Algebra ℚ⟦X⟧ (FractionRing ℚ⟦X⟧))

instance : IsFractionRing ℚ⟦X⟧ Series :=
  inferInstanceAs (IsFractionRing ℚ⟦X⟧ (FractionRing ℚ⟦X⟧))

/-- The derivative of fractions of power series. -/
noncomputable def delta : Derivation ℤ Series Series :=
  fractionDerivation (derivative ℚ)

theorem delta_algebraMap (f : ℚ⟦X⟧) :
    delta (algebraMap ℚ⟦X⟧ Series f) = algebraMap ℚ⟦X⟧ Series (derivative ℚ f) :=
  fractionDerivation_algebraMap _ f

/-- The variable. -/
noncomputable def x : Series := algebraMap ℚ⟦X⟧ Series X

/-- The exponential series. -/
noncomputable def exp : Series := algebraMap ℚ⟦X⟧ Series (PowerSeries.exp ℚ)

theorem delta_x : delta x = 1 := by
  rw [x, delta_algebraMap, derivative_X, map_one]

theorem delta_exp : delta exp = exp := by
  rw [exp, delta_algebraMap, derivative_exp]

theorem x_ne_zero : x ≠ 0 := by
  rw [x, Ne, FaithfulSMul.algebraMap_eq_zero_iff]
  exact X_ne_zero

theorem exp_ne_zero : exp ≠ 0 := by
  rw [exp, Ne, FaithfulSMul.algebraMap_eq_zero_iff]
  intro h
  have hcoeff := congrArg (constantCoeff (R := ℚ)) h
  simp at hcoeff

end Series

end Fluxion
