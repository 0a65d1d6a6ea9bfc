/-
# Simplification keeps values

Where an expression has a value, its simplified form has the same one, under two conditions.  Every
fold has to be exact, for floating-point numbers are rounded; and the zero in `0 - r` must not be
dropped, for the sign is dropped with it.

Both are conditions on the nodes of the expression.  A simplification visits each node once with
operands that are simplified already, and the passes after that find nothing to do; so the folds
it makes are those of `Expr.folds`, and it drops a minus sign where `Expr.dropsMinus` says so.

An identity may forget an operand, and the operand may have no value where the result has one.  So
nothing is said of an expression without a value: where the whole has one, every part has one, and
each rule may rely on that.  The rule for `ln` at zero does no harm for the same reason, for no
logarithm has a value there.
-/
import Fluxion.Proofs.Real.Value
import Fluxion.Proofs.Reduction.Limits
import Fluxion.Proofs.Reduction.Redex

namespace Fluxion

open Fluxion.Expr Fluxion.Reduction

/-! ## 1. What a simplification does at the nodes -/

namespace Expr

/-- The fold at the root: the operator and the two numbers that its operands simplify to. -/
def fold? : Expr → Option (Op × Float × Float)
  | bin op l r =>
    match l.normal, r.normal with
    | .ok (num a), .ok (num b) => some (op, a, b)
    | _, _ => none
  | _ => none

/-- The folds that the simplification of an expression makes. -/
def folds (e : Expr) : List (Op × Float × Float) := e.parts.filterMap fold?

/-- The root is a difference that becomes its right operand, which is no number, because the left
one is zero. -/
def losesMinus : Expr → Bool
  | bin .sub l r =>
    match l.normal, r.normal with
    | .ok l', .ok r' => l'.isNumber 0.0 && !r'.isNum
    | _, _ => false
  | _ => false

/-- The simplification of an expression drops the zero in front of a minus sign, and the sign with
it. -/
def dropsMinus (e : Expr) : Bool := e.parts.any losesMinus

theorem mem_folds {e l r : Expr} {op : Op} {a b : Float} (hmem : bin op l r ∈ e.parts)
    (hl : l.normal = .ok (num a)) (hr : r.normal = .ok (num b)) : (op, a, b) ∈ e.folds :=
  List.mem_filterMap.mpr ⟨bin op l r, hmem, by simp only [fold?, hl, hr]⟩

/-- Where no minus sign is dropped, there is a number behind a zero and a minus sign. -/
theorem isNum_of_not_dropsMinus {e l r l' r' : Expr} (h : e.dropsMinus = false)
    (hmem : bin .sub l r ∈ e.parts) (hl : l.normal = .ok l') (hr : r.normal = .ok r')
    (hzero : l'.isNumber 0.0 = true) : r'.isNum = true := by
  have hroot : (bin .sub l r).losesMinus = false := by
    rw [← Bool.not_eq_true]
    exact List.any_eq_false.mp h _ hmem
  simpa [losesMinus, hl, hr, hzero] using hroot

end Expr

namespace RealReading

/-- The fold of two finite numbers is finite, and it is the value of the operator at them. -/
def Exact (R : RealReading) (op : Op) (a b : Float) : Prop :=
  ∃ c x y z, op.apply a b = .ok c ∧ realOf? a = some x ∧ realOf? b = some y ∧
    realOf? c = some z ∧ R.apply op x y = some z

variable {R : RealReading} {env : String → ℝ}

/-! ## 2. The rules -/

/-- **An identity keeps the value** of two operands, unless it drops the zero in front of a minus
sign. -/
theorem value?_identity (hR : R.Lawful) {op : Op} {l r w : Expr} {z : ℝ}
    (h : Identity op l r w) (hminus : op = .sub → l.isNumber 0.0 = false)
    (hz : R.value? env (.bin op l r) = some z) : R.value? env w = some z := by
  obtain ⟨x, y, hx, hy, hz⟩ := value?_bin_eq_some.mp hz
  have hzero : R.value? env (.num 0.0) = some 0 := realOf?_zero
  have hone : R.value? env (.num 1.0) = some 1 := realOf?_one
  cases h with
  | zeroAdd hl =>
    have hz : x + y = z := Option.some.inj hz
    rw [hy, ← hz, eq_zero_of_isNumber hl hx, zero_add]
  | addZero hr =>
    have hz : x + y = z := Option.some.inj hz
    rw [hx, ← hz, eq_zero_of_isNumber hr hy, add_zero]
  | zeroSub hl => simp [hminus rfl] at hl
  | subZero hr =>
    have hz : x - y = z := Option.some.inj hz
    rw [hx, ← hz, eq_zero_of_isNumber hr hy, sub_zero]
  | oneMul hl =>
    have hz : x * y = z := Option.some.inj hz
    rw [hy, ← hz, eq_one_of_isNumber hl hx, one_mul]
  | zeroMul hl =>
    have hz : x * y = z := Option.some.inj hz
    rw [hzero, ← hz, eq_zero_of_isNumber hl hx, zero_mul]
  | mulOne hr =>
    have hz : x * y = z := Option.some.inj hz
    rw [hx, ← hz, eq_one_of_isNumber hr hy, mul_one]
  | mulZero hr =>
    have hz : x * y = z := Option.some.inj hz
    rw [hzero, ← hz, eq_zero_of_isNumber hr hy, mul_zero]
  | zeroDiv hl =>
    obtain ⟨-, hz⟩ : y ≠ 0 ∧ x / y = z := by simpa [apply] using hz
    rw [hzero, ← hz, eq_zero_of_isNumber hl hx, zero_div]
  | divOne hr =>
    obtain ⟨-, hz⟩ : y ≠ 0 ∧ x / y = z := by simpa [apply] using hz
    rw [hx, ← hz, eq_one_of_isNumber hr hy, div_one]
  | onePow hl =>
    have hz : R.pow 1 y = some z := eq_one_of_isNumber hl hx ▸ hz
    rw [hone, hR.one_pow y z hz]
  | powZero hr =>
    have hz : R.pow x 0 = some z := eq_zero_of_isNumber hr hy ▸ hz
    rw [hone, hR.pow_zero x z hz]
  | powOne hr =>
    have hz : R.pow x 1 = some z := eq_one_of_isNumber hr hy ▸ hz
    rw [hx, hR.pow_one x z hz]

/-- **Folding and identities keep the value** of two operands. -/
theorem value?_joined? (hR : R.Lawful) {op : Op} {l r w : Expr} {z : ℝ}
    (h : joined? op l r = .ok (some w))
    (hexact : ∀ a b, l = .num a → r = .num b → R.Exact op a b)
    (hminus : op = .sub → l.isNumber 0.0 = true → r.isNum = true)
    (hz : R.value? env (.bin op l r) = some z) : R.value? env w = some z := by
  unfold joined? at h
  split at h
  · rename_i a b
    obtain ⟨c, x, y, z', hc, hx, hy, hz', hvalue⟩ := hexact a b rfl rfl
    obtain ⟨x', y', hx', hy', hz⟩ := value?_bin_eq_some.mp hz
    obtain rfl : x = x' := Option.some.inj (hx.symm.trans hx')
    obtain rfl : y = y' := Option.some.inj (hy.symm.trans hy')
    obtain rfl : .num c = w := by simpa [hc] using h
    exact hz'.trans (hvalue.symm.trans hz)
  · rename_i hnumbers
    have hid : identity? op l r = .ok (some w) := by
      split at h
      · rename_i hid
        rwa [Except.ok.inj h] at hid
      · simp at h
    refine value?_identity hR (identity_of_identity? hid) (fun hsub => ?_) hz
    rw [← Bool.not_eq_true]
    intro hl
    have hr : r.isNum = true := hminus hsub hl
    cases l with
    | const | var | func | bin | hole => cases hl
    | num a =>
      cases r with
      | num b => exact hnumbers a b rfl rfl
      | const | var | func | bin | hole => cases hr

/-- **The special values are values** of the functions. -/
theorem value?_specialValue? (hR : R.Lawful) {f : String} {args : List Expr} {v : Float} {z : ℝ}
    (h : specialValue? f args = .ok (some v)) (hz : R.value? env (.func f args) = some z) :
    realOf? v = some z := by
  obtain ⟨value, a, hrule, rfl, hvalue⟩ := specialValue?_eq_some h
  obtain ⟨xs, hxs, hz⟩ := value?_func_eq_some.mp hz
  obtain ⟨x, xs', hx, hxs', rfl⟩ := valueAll?_cons_eq_some.mp hxs
  obtain rfl : xs' = [] := by simpa [valueAll?, eq_comm] using hxs'
  unfold specialRule? at hrule
  split at hrule
  · rename_i hsin
    subst hsin
    obtain rfl : sineAt? = value := by simpa using hrule
    cases a with
    | num w =>
      obtain ⟨hw, rfl⟩ : (num w).isNumber 0.0 = true ∧ 0.0 = v := by
        simpa [sineAt?, isNumber] using hvalue
      obtain rfl : x = 0 := eq_zero_of_isNumber hw hx
      rw [realOf?_zero, hR.sin_zero z hz]
    | const c =>
      obtain ⟨rfl, rfl⟩ : c = "pi" ∧ 0.0 = v := by simpa [sineAt?, isNumber] using hvalue
      obtain rfl : Real.pi = x := Option.some.inj (hR.pi.symm.trans hx)
      rw [realOf?_zero, hR.sin_pi z hz]
    | var | func | bin | hole => cases hvalue
  split at hrule
  · rename_i hln
    subst hln
    obtain rfl : logarithmAt? = value := by simpa using hrule
    obtain ⟨hpos, rfl⟩ := hR.ln x z hz
    cases a with
    | num w =>
      obtain ⟨hw, -⟩ : (num w).isNumber 0.0 = true ∧ 0.0 = v := by
        simpa [logarithmAt?, isNumber] using hvalue
      exact absurd (eq_zero_of_isNumber hw hx) hpos.ne'
    | const c =>
      obtain ⟨rfl, rfl⟩ : c = "e" ∧ 1.0 = v := by simpa [logarithmAt?, isNumber] using hvalue
      obtain rfl : Real.exp 1 = x := Option.some.inj (hR.e.symm.trans hx)
      rw [realOf?_one, Real.log_exp]
    | var | func | bin | hole => cases hvalue
  · simp at hrule

/-! ## 3. Simplification -/

theorem valueAll?_normalAll {args us : List Expr} {zs : List ℝ}
    (h : ∀ a ∈ args, ∀ u z, a.normal = .ok u → R.value? env a = some z →
      R.value? env u = some z)
    (hus : normalAll args = .ok us) (hzs : R.valueAll? env args = some zs) :
    R.valueAll? env us = some zs := by
  induction args generalizing us zs with
  | nil =>
    obtain rfl : us = [] := by simpa [normalAll, eq_comm] using hus
    exact hzs
  | cons a as ih =>
    obtain ⟨u, us', hu, hus', rfl⟩ := normalAll_cons_eq_ok.mp hus
    obtain ⟨x, xs, hx, hxs, rfl⟩ := valueAll?_cons_eq_some.mp hzs
    have head : R.value? env u = some x := h a List.mem_cons_self u x hu hx
    have tail : R.valueAll? env us' = some xs :=
      ih (fun b hb => h b (List.mem_cons_of_mem a hb)) hus' hxs
    exact valueAll?_cons_eq_some.mpr ⟨x, xs, head, tail, rfl⟩

/-- **The normal form of a part of `e` has the value of the part.** -/
theorem value?_normal_part (hR : R.Lawful) {e : Expr}
    (hfolds : ∀ op a b, (op, a, b) ∈ e.folds → R.Exact op a b) (hminus : e.dropsMinus = false) :
    ∀ p : Expr, p ∈ e.parts → ∀ u z, p.normal = .ok u → R.value? env p = some z →
      R.value? env u = some z := by
  intro p
  induction p using Expr.induct with
  | num v | const c | var x =>
    intro _ u z hu hz
    obtain rfl := by simpa [normal] using hu
    exact hz
  | hole =>
    intro _ u z hu
    simp [normal] at hu
  | func f args ih =>
    intro hmem u z hu hz
    obtain ⟨args', hargs, hcall⟩ := normal_func_eq_ok.mp hu
    obtain ⟨xs, hxs, hvalue⟩ := value?_func_eq_some.mp hz
    have hinner : ∀ a ∈ args, a ∈ e.parts := fun a ha =>
      mem_parts_trans (mem_parts_func.mpr (Or.inr ⟨a, ha, mem_parts_self a⟩)) hmem
    have hxs' : R.valueAll? env args' = some xs :=
      valueAll?_normalAll (fun a ha => ih a ha (hinner a ha)) hargs hxs
    have hz' : R.value? env (.func f args') = some z := value?_func_eq_some.mpr ⟨xs, hxs', hvalue⟩
    rcases calledForm_eq_ok hcall with ⟨v, hspecial, rfl⟩ | ⟨-, rfl⟩
    · exact value?_specialValue? hR hspecial hz'
    · exact hz'
  | bin op l r ihl ihr =>
    intro hmem u z hu hz
    obtain ⟨l', r', hl, hr, hjoin⟩ := normal_bin_eq_ok.mp hu
    obtain ⟨x, y, hx, hy, hvalue⟩ := value?_bin_eq_some.mp hz
    have hleft : l ∈ e.parts :=
      mem_parts_trans (mem_parts_bin.mpr (Or.inr (Or.inl (mem_parts_self l)))) hmem
    have hright : r ∈ e.parts :=
      mem_parts_trans (mem_parts_bin.mpr (Or.inr (Or.inr (mem_parts_self r)))) hmem
    have hz' : R.value? env (.bin op l' r') = some z :=
      value?_bin_eq_some.mpr ⟨x, y, ihl hleft l' x hl hx, ihr hright r' y hr hy, hvalue⟩
    rcases joinedForm_eq_ok hjoin with ⟨hjoined, -⟩ | ⟨-, rfl⟩
    · refine value?_joined? hR hjoined ?_ ?_ hz'
      · rintro a b rfl rfl
        exact hfolds op a b (mem_folds hmem hl hr)
      · rintro rfl hzero
        exact isNum_of_not_dropsMinus hminus hmem hl hr hzero
    · exact hz'

/-- **Simplification keeps values.**  Where an expression has a value, the expression it
simplifies to has the same one, provided that every fold is exact and that no zero is dropped in
front of a minus sign. -/
theorem value?_reduce (hR : R.Lawful) {cap : Int} {passes : Option Int} {e u : Expr}
    {changed : Bool} (h : (e.reduce cap passes).answer = .ok (u, changed))
    (hfolds : ∀ op a b, (op, a, b) ∈ e.folds → R.Exact op a b) (hminus : e.dropsMinus = false)
    {z : ℝ} (hz : R.value? env e = some z) : R.value? env u = some z :=
  value?_normal_part hR hfolds hminus e (mem_parts_self e) u z (normal_of_answer h) hz

/-- In `(2 * 3 + 0 * x) / y ^ ln(e)` two folds are exact, a factor is forgotten and a power goes. -/
theorem value?_reduce_quotient :
    let e := bin .div
      (bin .add (bin .mul (num 2.0) (num 3.0)) (bin .mul (num 0.0) (var "x")))
      (bin .pow (var "y") (.func "ln" [.const "e"]))
    let u := bin .div (num 6.0) (var "y")
    let env : String → ℝ := fun _ => 2
    (usual.Lawful ∧ (e.reduce 1000 none).answer = .ok (u, true) ∧
      (∀ op a b, (op, a, b) ∈ e.folds → usual.Exact op a b) ∧ e.dropsMinus = false ∧
      usual.value? env e = some 3) ∧ usual.value? env u = some 3 := by
  intro e u env
  have hanswer : (e.reduce 1000 none).answer = .ok (u, true) :=
    (answer_eq_ok_iff (by decide) (by simp)).mpr ⟨rfl, by decide +kernel⟩
  have hfolds : e.folds = [(.add, 6.0, 0.0), (.mul, 2.0, 3.0)] := rfl
  have hexact : ∀ op a b, (op, a, b) ∈ e.folds → usual.Exact op a b := by
    intro op a b h
    rw [hfolds] at h
    obtain ⟨rfl, rfl, rfl⟩ | ⟨rfl, rfl, rfl⟩ :
        (op = .add ∧ a = 6.0 ∧ b = 0.0) ∨ (op = .mul ∧ a = 2.0 ∧ b = 3.0) := by simpa using h
    · exact ⟨6.0, 6, 0, 6, rfl, realOf?_six, realOf?_zero, realOf?_six, by simp [apply]⟩
    · exact ⟨6.0, 2, 3, 6, rfl, realOf?_two, realOf?_three, realOf?_six, by norm_num [apply]⟩
  have hminus : e.dropsMinus = false := by decide +kernel
  have hvalue : usual.value? env e = some 3 := by
    have hpow : usual.pow 2 1 = some 2 := by rw [usual_pow_of_pos two_pos, Real.rpow_one]
    have hln : usual.value? env (.func "ln" [.const "e"]) = some 1 := by
      simp [value?, valueAll?, Real.exp_pos]
    simp only [e, env, value?_bin_eq_some, hln]
    refine ⟨2 * 3 + 0 * 2, 2, ⟨_, _, ⟨2, 3, realOf?_two, realOf?_three, rfl⟩,
      ⟨0, 2, realOf?_zero, rfl, rfl⟩, rfl⟩, ⟨2, 1, rfl, rfl, hpow⟩, ?_⟩
    norm_num [apply]
  exact ⟨⟨usual_lawful, hanswer, hexact, hminus, hvalue⟩,
    value?_reduce usual_lawful hanswer hexact hminus hvalue⟩

end RealReading

end Fluxion
