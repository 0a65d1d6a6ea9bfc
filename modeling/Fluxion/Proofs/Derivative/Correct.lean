/-
# The derivative is the derivative

Take a field with an operator `δ` that is additive and satisfies Leibniz' rule, and read an
expression in it.  If the reading obeys the laws that functions and powers have under `δ`
(`Reading.Obeys`), and nothing is divided by zero on the way (`Reading.Regular`), then the value
of the derivative is `δ` of the value (`derivative_correct`).

The laws are those of the single functions.  The rules for products, quotients, powers and the
tangent are consequences, one lemma each; the induction over the expression only puts them
together.  Every law is asked only where the expression needs it.
-/
import Fluxion.Derivative
import Fluxion.Proofs.Derivative.Series
import Fluxion.Proofs.Derivative.Value
import Mathlib.Tactic.FieldSimp
import Mathlib.Tactic.LinearCombination
import Mathlib.Tactic.Ring

namespace Fluxion

namespace Reading

universe u

variable {K : Type u} [Field K]

/-! ## 1. The laws -/

/-- The names of the functions with a rule of their own. -/
def ruled : List String := [negation, "sin", "cos", "tan", "ln"]

/-- The reading `R` of the parts of `e` obeys the laws of differentiation by `wrt`. -/
structure Obeys (R : Reading K) (δ : Derivation ℤ K K) (wrt : Option String) (e : Expr) :
    Prop where
  zero : R.num 0.0 = 0
  one : R.num 1.0 = 1
  minusOne : R.num (-1.0) = -1
  square : ∀ u, R.pow u (R.num 2.0) = u * u
  num : ∀ v, .num v ∈ e.parts → δ (R.num v) = 0
  const : ∀ c, .const c ∈ e.parts → δ (R.const c) = 0
  var : ∀ x, .var x ∈ e.parts → δ (R.var x) = if wrt = none ∨ wrt = some x then 1 else 0
  neg : ∀ a, .func negation [a] ∈ e.parts → R.func negation (R.value a) = -R.value a
  sin : ∀ a, .func "sin" [a] ∈ e.parts ∨ .func "tan" [a] ∈ e.parts →
    δ (R.func "sin" (R.value a)) = R.func "cos" (R.value a) * δ (R.value a)
  cos : ∀ a, .func "cos" [a] ∈ e.parts ∨ .func "tan" [a] ∈ e.parts →
    δ (R.func "cos" (R.value a)) = -R.func "sin" (R.value a) * δ (R.value a)
  circle : ∀ a, .func "tan" [a] ∈ e.parts →
    R.func "sin" (R.value a) ^ 2 + R.func "cos" (R.value a) ^ 2 = 1
  tan : ∀ a, .func "tan" [a] ∈ e.parts →
    R.func "tan" (R.value a) = R.func "sin" (R.value a) / R.func "cos" (R.value a)
  sec : ∀ a, .func "tan" [a] ∈ e.parts →
    R.func "sec" (R.value a) = 1 / R.func "cos" (R.value a)
  ln : ∀ a, .func "ln" [a] ∈ e.parts ∨ (∃ r, .bin .pow a r ∈ e.parts) →
    δ (R.func "ln" (R.value a)) = δ (R.value a) / R.value a
  pow : ∀ l r, .bin .pow l r ∈ e.parts →
    δ (R.pow (R.value l) (R.value r)) =
      R.pow (R.value l) (R.value r) * δ (R.value r * R.func "ln" (R.value l))
  other : ∀ f a, .func f [a] ∈ e.parts → f ∉ ruled →
    δ (R.func f (R.value a)) = R.func (f ++ "'") (R.value a) * δ (R.value a)

/-- No divisor, base of a power, argument of a logarithm or cosine under a tangent is zero. -/
structure Regular (R : Reading K) (e : Expr) : Prop where
  divisor : ∀ l r, .bin .div l r ∈ e.parts → R.value r ≠ 0
  base : ∀ l r, .bin .pow l r ∈ e.parts → R.value l ≠ 0
  lnArgument : ∀ a, .func "ln" [a] ∈ e.parts → R.value a ≠ 0
  tanCosine : ∀ a, .func "tan" [a] ∈ e.parts → R.func "cos" (R.value a) ≠ 0

/-! ## 2. The rules -/

variable {R : Reading K} {δ : Derivation ℤ K K} {wrt : Option String} {e : Expr}

/-- The product rule. -/
theorem value_product {l r dl dr : Expr} (hl : R.value dl = δ (R.value l))
    (hr : R.value dr = δ (R.value r)) :
    R.value (Derivative.product l r dl dr) = δ (R.value l * R.value r) := by
  rw [Derivation.leibniz]
  simp only [Derivative.product, value, hl, hr, smul_eq_mul]

/-- The quotient rule. -/
theorem value_quotient (h : R.Obeys δ wrt e) {l r dl dr : Expr} (hne : R.value r ≠ 0)
    (hl : R.value dl = δ (R.value l)) (hr : R.value dr = δ (R.value r)) :
    R.value (Derivative.quotient l r dl dr) = δ (R.value l / R.value r) := by
  have hquotient : δ (R.value l / R.value r) =
      (R.value r)⁻¹ ^ 2 * (R.value r * δ (R.value l) - R.value l * δ (R.value r)) := by
    rw [Derivation.leibniz_div]
    simp only [smul_eq_mul]
  rw [hquotient]
  simp only [Derivative.quotient, value, hl, hr, h.square]
  field_simp

/-- The power rule. -/
theorem value_power (h : R.Obeys δ wrt e) {l r dl dr : Expr} (hmem : .bin .pow l r ∈ e.parts)
    (hl : R.value dl = δ (R.value l)) (hr : R.value dr = δ (R.value r)) :
    R.value (Derivative.power l r dl dr) = δ (R.pow (R.value l) (R.value r)) := by
  have hln : δ (R.func "ln" (R.value l)) = δ (R.value l) / R.value l :=
    h.ln l (Or.inr ⟨r, hmem⟩)
  rw [h.pow l r hmem, Derivation.leibniz, hln]
  simp only [Derivative.power, value, hl, hr, smul_eq_mul]
  ring

/-- The rule for the tangent. -/
theorem tan_rule (h : R.Obeys δ wrt e) {a : Expr} (hmem : .func "tan" [a] ∈ e.parts)
    (hne : R.func "cos" (R.value a) ≠ 0) :
    δ (R.func "tan" (R.value a)) =
      δ (R.value a) * (R.func "sec" (R.value a) * R.func "sec" (R.value a)) := by
  have hcircle := h.circle a hmem
  have hquotient : δ (R.func "sin" (R.value a) / R.func "cos" (R.value a)) =
      (R.func "cos" (R.value a))⁻¹ ^ 2 *
        (R.func "cos" (R.value a) * (R.func "cos" (R.value a) * δ (R.value a)) -
          R.func "sin" (R.value a) * (-R.func "sin" (R.value a) * δ (R.value a))) := by
    rw [Derivation.leibniz_div, h.sin a (Or.inr hmem), h.cos a (Or.inr hmem)]
    simp only [smul_eq_mul]
  rw [h.tan a hmem, h.sec a hmem, hquotient]
  field_simp
  linear_combination δ (R.value a) * hcircle

/-- The chain rule, with the derivative of each function at its argument. -/
theorem value_outer (h : R.Obeys δ wrt e) (hreg : R.Regular e) {f : String} {a : Expr}
    (hmem : .func f [a] ∈ e.parts) :
    δ (R.value a) * R.value (Derivative.outer f a) = δ (R.func f (R.value a)) := by
  unfold Derivative.outer
  split
  · next hf =>
    subst hf
    rw [value, h.minusOne, h.neg a hmem, map_neg]
    ring
  split
  · next hf =>
    subst hf
    rw [h.sin a (Or.inl hmem)]
    simp only [value]
    ring
  split
  · next hf =>
    subst hf
    rw [h.cos a (Or.inl hmem)]
    simp only [value, h.minusOne]
    ring
  split
  · next hf =>
    subst hf
    rw [tan_rule h hmem (hreg.tanCosine a hmem)]
    simp only [value, h.square]
  split
  · next hf =>
    subst hf
    rw [h.ln a (Or.inl hmem)]
    simp only [value, h.one]
    ring
  · next hneg hsin hcos htan hln =>
    have hunruled : f ∉ ruled := by simp [ruled, hneg, hsin, hcos, htan, hln]
    rw [h.other f a hmem hunruled]
    simp only [value]
    ring

/-! ## 3. The derivative -/

/-- **The derivative of a part of `e` exists, and its value is `δ` of the value.** -/
theorem derivative_part (h : R.Obeys δ wrt e) (hreg : R.Regular e) (hsup : e.Supported) :
    ∀ p : Expr, p ∈ e.parts →
      ∃ d, p.derivative wrt = .ok d ∧ R.value d = δ (R.value p) := by
  intro p
  induction p using Expr.induct with
  | num v =>
    intro hmem
    refine ⟨.num 0.0, rfl, ?_⟩
    rw [value, value, h.zero, h.num v hmem]
  | const c =>
    intro hmem
    refine ⟨.num 0.0, rfl, ?_⟩
    rw [value, value, h.zero, h.const c hmem]
  | var x =>
    intro hmem
    refine ⟨_, rfl, ?_⟩
    rw [value, value, h.var x hmem]
    by_cases hx : wrt = none ∨ wrt = some x
    · simp only [hx, if_true, h.one]
    · simp only [hx, if_false, h.zero]
  | func f args ih =>
    intro hmem
    obtain ⟨a, rfl⟩ : ∃ a, args = [a] := List.length_eq_one_iff.mp (hsup.unary f args hmem)
    have hinner : a ∈ e.parts := by
      refine Expr.mem_parts_trans ?_ hmem
      exact Expr.mem_parts_func.mpr (Or.inr ⟨a, by simp, Expr.mem_parts_self a⟩)
    obtain ⟨da, hda, hvalue⟩ := ih a (by simp) hinner
    refine ⟨.bin .mul da (Derivative.outer f a), ?_, ?_⟩
    · rw [Expr.derivative, hda]
      rfl
    · rw [value, value, hvalue]
      exact value_outer h hreg hmem
  | bin op l r ihl ihr =>
    intro hmem
    have hleft : l ∈ e.parts := by
      refine Expr.mem_parts_trans ?_ hmem
      exact Expr.mem_parts_bin.mpr (Or.inr (Or.inl (Expr.mem_parts_self l)))
    have hright : r ∈ e.parts := by
      refine Expr.mem_parts_trans ?_ hmem
      exact Expr.mem_parts_bin.mpr (Or.inr (Or.inr (Expr.mem_parts_self r)))
    obtain ⟨dl, hdl, hl⟩ := ihl hleft
    obtain ⟨dr, hdr, hr⟩ := ihr hright
    cases op with
    | add =>
      refine ⟨.bin .add dl dr, by rw [Expr.derivative, hdl, hdr]; rfl, ?_⟩
      simp only [value, hl, hr, map_add]
    | sub =>
      refine ⟨.bin .sub dl dr, by rw [Expr.derivative, hdl, hdr]; rfl, ?_⟩
      simp only [value, hl, hr, map_sub]
    | mul =>
      refine ⟨Derivative.product l r dl dr, by rw [Expr.derivative, hdl, hdr]; rfl, ?_⟩
      exact value_product hl hr
    | div =>
      refine ⟨Derivative.quotient l r dl dr, by rw [Expr.derivative, hdl, hdr]; rfl, ?_⟩
      exact value_quotient h (hreg.divisor l r hmem) hl hr
    | pow =>
      refine ⟨Derivative.power l r dl dr, by rw [Expr.derivative, hdl, hdr]; rfl, ?_⟩
      exact value_power h hmem hl hr
    | other s => cases hsup.known _ _ _ hmem
  | hole =>
    intro hmem
    exact absurd hmem hsup.complete

/-- **The derivative is the derivative.**  It exists, and its value is `δ` of the value of the
expression, whenever the reading obeys the laws of the single functions and nothing is divided by
zero. -/
theorem derivative_correct (R : Reading K) (δ : Derivation ℤ K K) (wrt : Option String) (e : Expr)
    (h : R.Obeys δ wrt e) (hreg : R.Regular e) (hsup : e.Supported) :
    ∃ d, e.derivative wrt = .ok d ∧ R.value d = δ (R.value e) :=
  derivative_part h hreg hsup e (Expr.mem_parts_self e)

end Reading

namespace Series

open Classical in
/-- Every variable is the variable of the series, every function but the logarithm is the
exponential series, and the logarithm is the variable again, as it should be for that series. -/
noncomputable def reading : Reading Series where
  num v := if v = 1.0 then 1 else if v = -1.0 then -1 else if v = 2.0 then 2 else 0
  const _ := 0
  var _ := x
  func f _ := if f = "ln" then x else exp
  pow u v := if v = 2 then u * u else 1

/-- The quotient of `exp(x) ^ 2` and `x`. -/
def quotient : Expr :=
  .bin .div (.bin .pow (.func "exp" [.var "x"]) (.num 2.0)) (.var "x")

theorem reading_num_two : reading.num 2.0 = 2 := by
  have h1 : (2.0 : Float) ≠ 1.0 := by decide +kernel
  have h2 : (2.0 : Float) ≠ -1.0 := by decide +kernel
  simp [reading, h1, h2]

theorem reading_obeys : reading.Obeys delta (some "x") quotient where
  zero := by
    have h1 : (0.0 : Float) ≠ 1.0 := by decide +kernel
    have h2 : (0.0 : Float) ≠ -1.0 := by decide +kernel
    have h3 : (0.0 : Float) ≠ 2.0 := by decide +kernel
    simp [reading, h1, h2, h3]
  one := by simp [reading]
  minusOne := by
    have h1 : (-1.0 : Float) ≠ 1.0 := by decide +kernel
    simp [reading, h1]
  square u := by
    rw [reading_num_two]
    simp [reading]
  num v hv := by
    obtain rfl : v = 2.0 := by simpa [quotient] using hv
    rw [reading_num_two]
    exact Derivation.map_natCast delta 2
  const c hc := by simp [quotient] at hc
  var y hy := by
    obtain rfl : y = "x" := by simpa [quotient] using hy
    simpa [reading] using delta_x
  neg a ha := by simp [quotient, negation] at ha
  sin a ha := by simp [quotient] at ha
  cos a ha := by simp [quotient] at ha
  circle a ha := by simp [quotient] at ha
  tan a ha := by simp [quotient] at ha
  sec a ha := by simp [quotient] at ha
  ln a ha := by
    obtain rfl : a = .func "exp" [.var "x"] := by simpa [quotient] using ha
    have hexp : delta exp / exp = 1 := by rw [delta_exp, div_self exp_ne_zero]
    simpa [reading, Reading.value, hexp] using delta_x
  pow l r hlr := by
    obtain ⟨rfl, rfl⟩ : l = .func "exp" [.var "x"] ∧ r = .num 2.0 := by simpa [quotient] using hlr
    have hbase : reading.value (.func "exp" [.var "x"]) = exp := by simp [Reading.value, reading]
    have hln : reading.func "ln" exp = x := by simp [reading]
    have hpow : reading.pow exp 2 = exp * exp := by simp [reading]
    have htwice : delta (2 * x) = 2 := by
      have htwo : delta (2 : Series) = 0 := Derivation.map_natCast delta 2
      rw [Derivation.leibniz, htwo, delta_x]
      simp
    rw [hbase, Reading.value, reading_num_two, hln, hpow, htwice, Derivation.leibniz, delta_exp]
    simp only [smul_eq_mul]
    ring
  other f a ha _ := by
    obtain ⟨rfl, rfl⟩ : f = "exp" ∧ a = .var "x" := by simpa [quotient] using ha
    simpa [reading, Reading.value, delta_x] using delta_exp

theorem reading_regular : reading.Regular quotient where
  divisor l r hlr := by
    obtain ⟨-, rfl⟩ : _ ∧ r = .var "x" := by simpa [quotient] using hlr
    exact x_ne_zero
  base l r hlr := by
    obtain ⟨rfl, -⟩ : l = .func "exp" [.var "x"] ∧ _ := by simpa [quotient] using hlr
    exact exp_ne_zero
  lnArgument a ha := by simp [quotient] at ha
  tanCosine a ha := by simp [quotient] at ha

theorem quotient_supported : quotient.Supported := by
  have hexp : (Expr.func "exp" [.var "x"]).Supported :=
    Expr.supported_func_iff.mpr ⟨_, rfl, Expr.supported_var "x"⟩
  have hsquare : (Expr.bin .pow (.func "exp" [.var "x"]) (.num 2.0)).Supported :=
    Expr.supported_bin_iff.mpr ⟨rfl, hexp, Expr.supported_num 2.0⟩
  exact Expr.supported_bin_iff.mpr ⟨rfl, hsquare, Expr.supported_var "x"⟩

/-- The derivative of the quotient, read in the fractions of power series. -/
theorem derivative_correct_exp_squared_div :
    (reading.Obeys delta (some "x") quotient ∧ reading.Regular quotient ∧ quotient.Supported) ∧
      ∃ d, quotient.derivative (some "x") = .ok d ∧
        reading.value d = delta (reading.value quotient) :=
  ⟨⟨reading_obeys, reading_regular, quotient_supported⟩,
    Reading.derivative_correct reading delta (some "x") quotient reading_obeys reading_regular
      quotient_supported⟩

end Series

end Fluxion
