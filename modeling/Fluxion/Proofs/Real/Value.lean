/-
# Expressions as partial functions of real numbers

An expression is read as a partial function of its variables.  Numbers stand for the reals that
their bits describe (`realOf?`), sums, differences and products are those of the reals, and a
quotient has no value where the divisor is zero.  What constants, functions and powers stand for
is part of the reading (`RealReading`); they may be partial as well.  An expression has a value
where all of its parts have one.

A reading is lawful if it agrees with the special values and with the powers that simplification
knows.  The laws bind it only where it gives a value at all, so a reading in which `0 ^ 0` has no
value is lawful too.  The usual reading (`usual`) is lawful.
-/
import Fluxion.Expr.Basic
import Mathlib

namespace Fluxion

/-! ## 1. Numbers -/

open Float.Model in
/-- The real number that a floating-point number stands for, unless it is infinite or no number. -/
noncomputable def realOf? (v : Float) : Option ℝ :=
  match v.toModel.unpack with
  | .finite s m e _ => some (s.apply m * 2 ^ e : ℚ)
  | .zero _ => some 0
  | .infinity _ | .notANumber => none

open Float.Model in
/-- **Numbers that compare equal stand for the same real number.** -/
theorem realOf?_of_beq {v w : Float} (h : (v == w) = true) : realOf? v = realOf? w := by
  have hcompare : v.toModel.unpack.compare w.toModel.unpack = some .eq := by
    have hbeq : (v == w) = v.toModel.unpack.beq w.toModel.unpack := rfl
    rw [hbeq, UnpackedFloat.beq, beq_iff_eq] at h
    exact h
  unfold realOf?
  generalize v.toModel.unpack = a at hcompare
  generalize w.toModel.unpack = b at hcompare
  cases a with
  | notANumber => simp [UnpackedFloat.compare] at hcompare
  | infinity s =>
    cases b with
    | infinity t | notANumber => rfl
    | zero t | finite t m e hm => cases s <;> simp [UnpackedFloat.compare] at hcompare
  | zero s =>
    cases b with
    | zero t => rfl
    | notANumber => simp [UnpackedFloat.compare] at hcompare
    | infinity t | finite t m e hm => cases t <;> simp [UnpackedFloat.compare] at hcompare
  | finite s m e hm =>
    cases b with
    | zero t | notANumber => cases s <;> simp [UnpackedFloat.compare] at hcompare
    | infinity t => cases s <;> cases t <;> simp [UnpackedFloat.compare] at hcompare
    | finite t n d hn =>
      cases s <;> cases t <;> simp [UnpackedFloat.compare] at hcompare
      all_goals
        obtain ⟨rfl, rfl⟩ := hcompare
        rfl

open Float.Model in
theorem realOf?_of_unpack {v : Float} {m : Nat} {e : ℤ} {h : 0 < m} {x : ℝ}
    (hunpack : v.toModel.unpack = .finite .positive m e h) (hx : (m : ℝ) * 2 ^ e = x) :
    realOf? v = some x := by
  simp only [realOf?, hunpack, UnpackedFloat.Sign.apply, Int.cast_natCast, Rat.cast_mul,
    Rat.cast_zpow, Rat.cast_natCast, Rat.cast_ofNat, hx]

theorem realOf?_zero : realOf? 0.0 = some 0 := rfl

theorem realOf?_one : realOf? 1.0 = some 1 :=
  realOf?_of_unpack (m := 2 ^ 52) (e := -52) rfl (by norm_num)

theorem realOf?_two : realOf? 2.0 = some 2 :=
  realOf?_of_unpack (m := 2 ^ 52) (e := -51) rfl (by norm_num)

theorem realOf?_three : realOf? 3.0 = some 3 :=
  realOf?_of_unpack (m := 3 * 2 ^ 51) (e := -51) rfl (by norm_num)

theorem realOf?_six : realOf? 6.0 = some 6 :=
  realOf?_of_unpack (m := 3 * 2 ^ 51) (e := -50) rfl (by norm_num)

/-! ## 2. Readings -/

/-- What the constants, the functions and the powers of an expression stand for. -/
structure RealReading where
  const : String → Option ℝ
  func : String → List ℝ → Option ℝ
  pow : ℝ → ℝ → Option ℝ

namespace RealReading

/-- The value of an operator; a quotient has none where the divisor is zero. -/
noncomputable def apply (R : RealReading) : Op → ℝ → ℝ → Option ℝ
  | .add, x, y => some (x + y)
  | .sub, x, y => some (x - y)
  | .mul, x, y => some (x * y)
  | .div, x, y => if y = 0 then none else some (x / y)
  | .pow, x, y => R.pow x y
  | .other _, _, _ => none

mutual
/-- The value of an expression where the variables have the values that `env` gives them. -/
noncomputable def value? (R : RealReading) (env : String → ℝ) : Expr → Option ℝ
  | .num v => realOf? v
  | .const c => R.const c
  | .var x => some (env x)
  | .func f args => (R.valueAll? env args).bind (R.func f)
  | .bin op l r => (R.value? env l).bind fun x => (R.value? env r).bind (R.apply op x)
  | .hole => none

/-- The values of several expressions, if all of them have one. -/
noncomputable def valueAll? (R : RealReading) (env : String → ℝ) : List Expr → Option (List ℝ)
  | [] => some []
  | e :: es => (R.value? env e).bind fun x => (R.valueAll? env es).map (x :: ·)
end

/-- The laws that simplification relies on: the constants `e` and `pi`, the sine at zero and at
`pi`, logarithms of positive numbers only, and the powers with exponent zero or one, or with base
one. -/
structure Lawful (R : RealReading) : Prop where
  e : R.const "e" = some (Real.exp 1)
  pi : R.const "pi" = some Real.pi
  sin_zero : ∀ y ∈ R.func "sin" [0], y = 0
  sin_pi : ∀ y ∈ R.func "sin" [Real.pi], y = 0
  ln : ∀ x, ∀ y ∈ R.func "ln" [x], 0 < x ∧ y = Real.log x
  pow_zero : ∀ x, ∀ y ∈ R.pow x 0, y = 1
  pow_one : ∀ x, ∀ y ∈ R.pow x 1, y = x
  one_pow : ∀ x, ∀ y ∈ R.pow 1 x, y = 1

variable {R : RealReading} {env : String → ℝ}

/-! ## 3. Values, node by node -/

theorem value?_bin_eq_some {op : Op} {l r : Expr} {z : ℝ} :
    R.value? env (.bin op l r) = some z ↔
      ∃ x y, R.value? env l = some x ∧ R.value? env r = some y ∧ R.apply op x y = some z := by
  simp only [value?, Option.bind_eq_some_iff]
  constructor
  · rintro ⟨x, hx, y, hy, hz⟩
    exact ⟨x, y, hx, hy, hz⟩
  · rintro ⟨x, y, hx, hy, hz⟩
    exact ⟨x, hx, y, hy, hz⟩

theorem value?_func_eq_some {f : String} {args : List Expr} {z : ℝ} :
    R.value? env (.func f args) = some z ↔
      ∃ xs, R.valueAll? env args = some xs ∧ R.func f xs = some z := by
  simp only [value?, Option.bind_eq_some_iff]

theorem valueAll?_cons_eq_some {e : Expr} {es : List Expr} {zs : List ℝ} :
    R.valueAll? env (e :: es) = some zs ↔
      ∃ x xs, R.value? env e = some x ∧ R.valueAll? env es = some xs ∧ zs = x :: xs := by
  simp only [valueAll?, Option.bind_eq_some_iff, Option.map_eq_some_iff]
  constructor
  · rintro ⟨x, hx, xs, hxs, rfl⟩
    exact ⟨x, xs, hx, hxs, rfl⟩
  · rintro ⟨x, xs, hx, hxs, rfl⟩
    exact ⟨x, hx, xs, hxs, rfl⟩

/-- An expression that the rules take for the number `v` is worth what `v` is. -/
theorem value?_of_isNumber {e : Expr} {v : Float} (h : e.isNumber v = true) :
    R.value? env e = realOf? v := by
  cases e with
  | num w => exact realOf?_of_beq h
  | const | var | func | bin | hole => cases h

theorem eq_zero_of_isNumber {e : Expr} {x : ℝ} (h : e.isNumber 0.0 = true)
    (hx : R.value? env e = some x) : x = 0 := by
  rw [value?_of_isNumber h, realOf?_zero, Option.some.injEq] at hx
  exact hx.symm

theorem eq_one_of_isNumber {e : Expr} {x : ℝ} (h : e.isNumber 1.0 = true)
    (hx : R.value? env e = some x) : x = 1 := by
  rw [value?_of_isNumber h, realOf?_one, Option.some.injEq] at hx
  exact hx.symm

/-! ## 4. The usual reading -/

open Classical in
/-- The usual value of a function at one argument. -/
noncomputable def usualFunction (f : String) (x : ℝ) : Option ℝ :=
  if f = negation then some (-x)
  else if f = "sin" then some (Real.sin x)
  else if f = "cos" then some (Real.cos x)
  else if f = "tan" then if Real.cos x = 0 then none else some (Real.tan x)
  else if f = "sec" then if Real.cos x = 0 then none else some (1 / Real.cos x)
  else if f = "ln" then if 0 < x then some (Real.log x) else none
  else if f = "exp" then some (Real.exp x)
  else none

open Classical in
/-- The usual reading.  A power has a value if the base is positive, if the base is zero and the
exponent is not negative, or if the exponent is an integer and the base is not zero. -/
noncomputable def usual : RealReading where
  const c := if c = "e" then some (Real.exp 1) else if c = "pi" then some Real.pi else none
  func f xs :=
    match xs with
    | [x] => usualFunction f x
    | _ => none
  pow x y :=
    if 0 < x ∨ (x = 0 ∧ 0 ≤ y) ∨ (x ≠ 0 ∧ ∃ n : ℤ, y = n) then some (x ^ y) else none

@[simp] theorem usual_const_e : usual.const "e" = some (Real.exp 1) := by simp [usual]

@[simp] theorem usual_const_pi : usual.const "pi" = some Real.pi := by simp [usual]

@[simp] theorem usual_sin (x : ℝ) : usual.func "sin" [x] = some (Real.sin x) := by
  simp [usual, usualFunction, negation]

@[simp] theorem usual_cos (x : ℝ) : usual.func "cos" [x] = some (Real.cos x) := by
  simp [usual, usualFunction, negation]

@[simp] theorem usual_ln (x : ℝ) :
    usual.func "ln" [x] = if 0 < x then some (Real.log x) else none := by
  simp [usual, usualFunction, negation]

theorem usual_pow_of_pos {x : ℝ} (h : 0 < x) (y : ℝ) : usual.pow x y = some (x ^ y) :=
  if_pos (Or.inl h)

theorem eq_of_mem_usual_pow {x y z : ℝ} (h : z ∈ usual.pow x y) : z = x ^ y := by
  simp only [usual, Option.mem_def] at h
  split at h
  · exact (Option.some.inj h).symm
  · cases h

theorem usual_lawful : usual.Lawful where
  e := usual_const_e
  pi := usual_const_pi
  sin_zero y hy := by simpa [eq_comm] using hy
  sin_pi y hy := by simpa [eq_comm] using hy
  ln x y hy := by
    rw [usual_ln, Option.mem_def] at hy
    split at hy
    · rename_i hpos
      exact ⟨hpos, (Option.some.inj hy).symm⟩
    · cases hy
  pow_zero x y hy := by rw [eq_of_mem_usual_pow hy, Real.rpow_zero]
  pow_one x y hy := by rw [eq_of_mem_usual_pow hy, Real.rpow_one]
  one_pow x y hy := by rw [eq_of_mem_usual_pow hy, Real.one_rpow]

end RealReading

end Fluxion
