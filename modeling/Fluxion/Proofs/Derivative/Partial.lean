/-
# Partial derivatives

Without a variable to differentiate by, every variable is one.  Then the derivative is the sum of
the partial derivatives, one for each variable that occurs (`derivative_eq_sum_partials`).

No law of differentiation is needed for this.  Each rule is linear in the derivatives of the
operands, and its coefficients come from the operands themselves (`exists_linear_rule`), so they
are the same by whatever variable one differentiates.  That is all that the sum asks for; powers
and functions may be read in any way, and so may the inverse of zero.

The two operands of an operator have different variables in general.  The induction therefore sums
over any set that holds all variables of an expression (`IsTotal`): a variable that does not occur
adds nothing.
-/
import Fluxion.Derivative
import Fluxion.Proofs.Derivative.Value
import Mathlib.Algebra.BigOperators.Ring.Finset
import Mathlib.Tactic.Ring

namespace Fluxion

open Fluxion.Expr

/-! ## 1. Variables -/

namespace Expr

/-- The name of a variable. -/
def varName? : Expr → Option String
  | var x => some x
  | _ => none

/-- The variables that occur in an expression. -/
def varNames (e : Expr) : Finset String := (e.parts.filterMap varName?).toFinset

theorem varName?_eq_some {p : Expr} {x : String} : p.varName? = some x ↔ p = var x := by
  cases p <;> simp [varName?]

theorem mem_varNames {e : Expr} {x : String} : x ∈ e.varNames ↔ var x ∈ e.parts := by
  simp [varNames, varName?_eq_some]

theorem varNames_func (f : String) (a : Expr) : (func f [a]).varNames = a.varNames := by
  ext x
  simp [mem_varNames]

theorem varNames_bin (op : Op) (l r : Expr) :
    (bin op l r).varNames = l.varNames ∪ r.varNames := by
  ext x
  simp [mem_varNames]

end Expr

namespace Reading

universe u

variable {K : Type u} [Field K]

/-! ## 2. Values with any inverse of zero -/

open Classical in
/-- The inverse of a number, where zero has the inverse `z`. -/
noncomputable def inverse (z b : K) : K := if b = 0 then z else b⁻¹

/-- The value of an expression in which a division is a multiplication by the inverse, and zero
has the inverse `z`. -/
noncomputable def valueWith (z : K) (R : Reading K) : Expr → K
  | .num v => R.num v
  | .const c => R.const c
  | .var x => R.var x
  | .func f [a] => R.func f (R.valueWith z a)
  | .func _ _ => 0
  | .bin .add l r => R.valueWith z l + R.valueWith z r
  | .bin .sub l r => R.valueWith z l - R.valueWith z r
  | .bin .mul l r => R.valueWith z l * R.valueWith z r
  | .bin .div l r => R.valueWith z l * inverse z (R.valueWith z r)
  | .bin .pow l r => R.pow (R.valueWith z l) (R.valueWith z r)
  | .bin (.other _) _ _ => 0
  | .hole => 0

/-- In a field, zero is its own inverse. -/
theorem valueWith_zero (R : Reading K) (e : Expr) : R.valueWith 0 e = R.value e := by
  have hinverse (b : K) : inverse 0 b = b⁻¹ := by
    by_cases hb : b = 0
    · simp [inverse, hb]
    · simp [inverse, hb]
  induction e using Expr.induct with
  | num v | const c | var x | hole => rfl
  | func f args ih =>
    rcases args with _ | ⟨a, _ | ⟨b, args⟩⟩
    · rfl
    · rw [valueWith, value, ih a (by simp)]
    · rfl
  | bin op l r ihl ihr =>
    cases op with
    | add | sub | mul | pow => rw [valueWith, value, ihl, ihr]
    | div => rw [valueWith, value, ihl, ihr, hinverse, div_eq_mul_inv]
    | other s => rfl

/-! ## 3. Rules are linear -/

variable {R : Reading K} {z : K}

/-- **The rule of an operator is linear** in the derivatives of the operands.  Neither the rule nor
its coefficients depend on the variable. -/
theorem exists_linear_rule (z : K) (R : Reading K) {op : Op} (hop : op.isKnown = true)
    (l r : Expr) :
    ∃ (rule : Expr → Expr → Expr) (a b : K),
      (∀ wrt dl dr, l.derivative wrt = .ok dl → r.derivative wrt = .ok dr →
        (bin op l r).derivative wrt = .ok (rule dl dr)) ∧
      ∀ dl dr, R.valueWith z (rule dl dr) = a * R.valueWith z dl + b * R.valueWith z dr := by
  cases op with
  | add =>
    refine ⟨bin .add, 1, 1, fun wrt dl dr hl hr => by rw [Expr.derivative, hl, hr]; rfl, ?_⟩
    intro dl dr
    simp only [valueWith, one_mul]
  | sub =>
    refine ⟨bin .sub, 1, -1, fun wrt dl dr hl hr => by rw [Expr.derivative, hl, hr]; rfl, ?_⟩
    intro dl dr
    simp only [valueWith]
    ring
  | mul =>
    refine ⟨Derivative.product l r, R.valueWith z r, R.valueWith z l,
      fun wrt dl dr hl hr => by rw [Expr.derivative, hl, hr]; rfl, ?_⟩
    intro dl dr
    simp only [Derivative.product, valueWith]
    ring
  | div =>
    let square : K := inverse z (R.pow (R.valueWith z r) (R.num 2.0))
    refine ⟨Derivative.quotient l r, R.valueWith z r * square, -(R.valueWith z l * square),
      fun wrt dl dr hl hr => by rw [Expr.derivative, hl, hr]; rfl, ?_⟩
    intro dl dr
    simp only [Derivative.quotient, valueWith, square]
    ring
  | pow =>
    let power : K := R.pow (R.valueWith z l) (R.valueWith z r)
    refine ⟨Derivative.power l r,
      power * (R.valueWith z r * inverse z (R.valueWith z l)),
      power * R.func "ln" (R.valueWith z l),
      fun wrt dl dr hl hr => by rw [Expr.derivative, hl, hr]; rfl, ?_⟩
    intro dl dr
    simp only [Derivative.power, valueWith, power]
    ring
  | other s => cases hop

/-! ## 4. Sums of partial derivatives -/

/-- Of the expressions `d`, the one for no variable is worth as much as those for the variables
together, whatever set of names they are taken from, as long as it holds `names`. -/
def IsTotal (z : K) (R : Reading K) (names : Finset String) (d : Option String → Expr) : Prop :=
  ∀ S, names ⊆ S → R.valueWith z (d none) = ∑ x ∈ S, R.valueWith z (d (some x))

namespace IsTotal

variable {names left right : Finset String} {d dl dr : Option String → Expr}

theorem scale {a : K} (hl : IsTotal z R names dl)
    (h : ∀ wrt, R.valueWith z (d wrt) = a * R.valueWith z (dl wrt)) : IsTotal z R names d := by
  intro S hS
  simp only [h, hl S hS, Finset.mul_sum]

theorem linear {a b : K} (hl : IsTotal z R left dl) (hr : IsTotal z R right dr)
    (h : ∀ wrt, R.valueWith z (d wrt) = a * R.valueWith z (dl wrt) + b * R.valueWith z (dr wrt)) :
    IsTotal z R (left ∪ right) d := by
  intro S hS
  have hleft : left ⊆ S := Finset.union_subset_left hS
  have hright : right ⊆ S := Finset.union_subset_right hS
  simp only [h, hl S hleft, hr S hright, Finset.mul_sum, Finset.sum_add_distrib]

/-- By a name that is not among the variables there is nothing to add. -/
theorem eq_zero (h : IsTotal z R names d) {x : String} (hx : x ∉ names) :
    R.valueWith z (d (some x)) = 0 := by
  have hwithout := h names (Finset.Subset.refl _)
  have hwith := h (insert x names) (Finset.subset_insert x names)
  rw [Finset.sum_insert hx, hwithout] at hwith
  exact right_eq_add.mp hwith

end IsTotal

/-- The derivatives of an expression, by all variables and by each of them. -/
theorem exists_isTotal (hzero : R.num 0.0 = 0) (hone : R.num 1.0 = 1) {e : Expr}
    (he : e.Supported) :
    ∃ d : Option String → Expr,
      (∀ wrt, e.derivative wrt = .ok (d wrt)) ∧ IsTotal z R e.varNames d := by
  induction e using Expr.induct with
  | num v | const c =>
    refine ⟨fun _ => .num 0.0, fun _ => rfl, ?_⟩
    intro S _
    simp only [valueWith, hzero, Finset.sum_const_zero]
  | var x =>
    refine ⟨_, fun _ => rfl, ?_⟩
    intro S hS
    have hx : x ∈ S := hS (mem_varNames.mpr (mem_parts_self _))
    have hpartial (y : String) :
        R.num (if some y = none ∨ some y = some x then 1.0 else 0.0) = if y = x then 1 else 0 := by
      by_cases hy : y = x
      · simp [hy, hone]
      · simp [hy, hzero]
    simp only [valueWith, hpartial, true_or, if_true, hone, Finset.sum_ite_eq', hx]
  | func f args ih =>
    obtain ⟨a, rfl, ha⟩ := supported_func_iff.mp he
    obtain ⟨da, hda, htotal⟩ := ih a (by simp) ha
    refine ⟨fun wrt => .bin .mul (da wrt) (Derivative.outer f a), ?_, ?_⟩
    · intro wrt
      rw [Expr.derivative, hda wrt]
      rfl
    · rw [varNames_func]
      refine htotal.scale (a := R.valueWith z (Derivative.outer f a)) fun wrt => ?_
      rw [valueWith, mul_comm]
  | bin op l r ihl ihr =>
    obtain ⟨hop, hl, hr⟩ := supported_bin_iff.mp he
    obtain ⟨dl, hdl, hleft⟩ := ihl hl
    obtain ⟨dr, hdr, hright⟩ := ihr hr
    obtain ⟨rule, a, b, hrule, hvalue⟩ := exists_linear_rule z R hop l r
    refine ⟨fun wrt => rule (dl wrt) (dr wrt), ?_, ?_⟩
    · intro wrt
      exact hrule wrt _ _ (hdl wrt) (hdr wrt)
    · rw [varNames_bin]
      exact hleft.linear hright fun wrt => hvalue (dl wrt) (dr wrt)
  | hole => exact absurd (mem_parts_self _) he.complete

/-- **The derivative by every variable is the sum of the partial derivatives**, in any field and
with any inverse of zero, if the numbers zero and one are read as zero and one.  The partial
derivative by a variable that does not occur is zero. -/
theorem derivative_eq_sum_partials (R : Reading K) (z : K) (hzero : R.num 0.0 = 0)
    (hone : R.num 1.0 = 1) {e : Expr} (he : e.Supported) :
    ∃ d : Option String → Expr, (∀ wrt, e.derivative wrt = .ok (d wrt)) ∧
      R.valueWith z (d none) = ∑ x ∈ e.varNames, R.valueWith z (d (some x)) ∧
      ∀ x, x ∉ e.varNames → R.valueWith z (d (some x)) = 0 := by
  obtain ⟨d, hd, htotal⟩ := exists_isTotal (z := z) hzero hone he
  exact ⟨d, hd, htotal _ (Finset.Subset.refl _), fun x hx => htotal.eq_zero hx⟩

/-- The quotient of `x * y` and `f(y)` where `f(y)` is read as zero and zero has the inverse
seven. -/
theorem derivative_eq_sum_partials_quotient :
    let R : Reading ℚ :=
      { num := fun v => if v = 0.0 then 0 else if v = 1.0 then 1 else 5
        const := fun _ => 2
        var := fun _ => 3
        func := fun _ u => u - 3
        pow := fun u v => u * v }
    let e := bin .div (bin .mul (.var "x") (.var "y")) (.func "f" [.var "y"])
    (R.num 0.0 = 0 ∧ R.num 1.0 = 1 ∧ e.Supported) ∧
      ∃ d : Option String → Expr, (∀ wrt, e.derivative wrt = .ok (d wrt)) ∧
        R.valueWith 7 (d none) = R.valueWith 7 (d (some "x")) + R.valueWith 7 (d (some "y")) ∧
        R.valueWith 7 (d (some "w")) = 0 := by
  intro R e
  have hzero : R.num 0.0 = 0 := by simp [R]
  have hone : R.num 1.0 = 1 := by
    have hne : (1.0 : Float) ≠ 0.0 := by decide +kernel
    simp [R, hne]
  have he : e.Supported := by
    have hx : (Expr.var "x").Supported := supported_var "x"
    have hy : (Expr.var "y").Supported := supported_var "y"
    exact supported_bin_iff.mpr ⟨rfl, supported_bin_iff.mpr ⟨rfl, hx, hy⟩,
      supported_func_iff.mpr ⟨_, rfl, hy⟩⟩
  have hnames : e.varNames = {"x", "y"} := by
    ext x
    simp [e, mem_varNames]
  obtain ⟨d, hd, hsum, hother⟩ := derivative_eq_sum_partials R 7 hzero hone he
  rw [hnames, Finset.sum_pair (by decide)] at hsum
  exact ⟨⟨hzero, hone, he⟩, d, hd, hsum, hother "w" (by rw [hnames]; decide)⟩

end Reading

end Fluxion
