/-
# The derivative of a constant

An expression in which a variable does not occur is constant in it.  Its derivative by that
variable is written out by the same rules as any other, with copies of the whole expression in it,
and it is for simplification to find that it is zero.

It does, as long as the numbers stay finite (`Vanishes`).  In every rule each term has a derivative
of an operand as a factor, and a factor that has become the number zero takes the other one with
it: by an identity if that is no number, and by a fold if it is one.  The fold may fail to give
zero, for zero times an infinity is no number, and neither is zero divided by zero; both are ruled
out if no fold gives an infinity or no number (`FoldsFinite`).  Then the numerator of a quotient is
a number, so nothing but a number is ever divided by zero.

Without that condition the derivative of a constant may be something else than a number, and a
division of it by the square of a number may be one by zero (`derivative_of_constant_stops`).
-/
import Fluxion.Proofs.Derivative.Repeated
import Fluxion.Proofs.Numeral.Zero
import Fluxion.Proofs.Real.Soundness

namespace Fluxion

open Fluxion.Numeral Reduction

namespace Expr

/-! ## 1. Folds that give finite numbers -/

/-- The number that the fold at the root gives. -/
def foldResult? (e : Expr) : Option Float :=
  e.fold?.bind fun (op, a, b) => (op.apply a b).toOption

mutual
/-- The numbers that the folds of a simplification give, up to the first error. -/
def folded : Expr → List Float
  | func _ args => foldedAll args
  | bin op l r =>
    l.folded ++ if l.normal.isOk then r.folded ++ (bin op l r).foldResult?.toList else []
  | _ => []

/-- The numbers that the folds in several simplifications give, up to the first error. -/
def foldedAll : List Expr → List Float
  | [] => []
  | e :: es => e.folded ++ if e.normal.isOk then foldedAll es else []
end

theorem mem_foldedAll {es us : List Expr} (h : normalAll es = .ok us) {z : Float} :
    z ∈ foldedAll es ↔ ∃ e ∈ es, z ∈ e.folded := by
  induction es generalizing us with
  | nil => simp [foldedAll]
  | cons e es ih =>
    obtain ⟨u, us', hu, hus', -⟩ := normalAll_cons_eq_ok.mp h
    simp [foldedAll, hu, Except.isOk, Except.toBool, ih hus']

/-- A simplification that succeeds makes the folds of all parts. -/
theorem mem_folded {e u : Expr} (h : e.normal = .ok u) {z : Float} :
    z ∈ e.folded ↔ ∃ p ∈ e.parts, p.foldResult? = some z := by
  induction e using induct generalizing u with
  | num v | const c | var x | hole => simp [folded, parts, foldResult?, fold?]
  | func f args ih =>
    obtain ⟨args', hargs, -⟩ := normal_func_eq_ok.mp h
    have heach (a : Expr) (ha : a ∈ args) :
        z ∈ a.folded ↔ ∃ p ∈ a.parts, p.foldResult? = some z := by
      obtain ⟨a', ha'⟩ := exists_normal_of_mem hargs ha
      exact ih a ha ha'
    rw [folded, mem_foldedAll hargs]
    constructor
    · rintro ⟨a, ha, hz⟩
      obtain ⟨p, hp, hresult⟩ := (heach a ha).mp hz
      exact ⟨p, mem_parts_func.mpr (Or.inr ⟨a, ha, hp⟩), hresult⟩
    · rintro ⟨p, hp, hresult⟩
      rcases mem_parts_func.mp hp with rfl | ⟨a, ha, hin⟩
      · cases hresult
      · exact ⟨a, ha, (heach a ha).mpr ⟨p, hin, hresult⟩⟩
  | bin op l r ihl ihr =>
    obtain ⟨l', r', hl, hr, -⟩ := normal_bin_eq_ok.mp h
    have hok : l.normal.isOk = true := by rw [hl]; rfl
    rw [folded, if_pos hok, List.mem_append, List.mem_append, ihl hl, ihr hr, Option.mem_toList]
    simp only [mem_parts_bin, or_and_right, exists_or, exists_eq_left]
    rw [← or_assoc, or_comm]

/-- No fold in the simplification of the expression gives an infinity, or no number. -/
def FoldsFinite (e : Expr) : Prop := ∀ z ∈ e.folded, z.isFinite = true

section

variable {op : Op} {l r l' : Expr} {a b z : Float}

theorem FoldsFinite.left (h : (bin op l r).FoldsFinite) : l.FoldsFinite :=
  fun z hz => h z (List.mem_append_left _ hz)

theorem FoldsFinite.right (h : (bin op l r).FoldsFinite) (hl : l.normal = .ok l') :
    r.FoldsFinite := by
  intro z hz
  refine h z (List.mem_append_right _ ?_)
  rw [hl]
  exact List.mem_append_left _ hz

theorem FoldsFinite.root (h : (bin op l r).FoldsFinite) (hl : l.normal = .ok (num a))
    (hr : r.normal = .ok (num b)) (hz : op.apply a b = .ok z) : z.isFinite = true := by
  refine h z (List.mem_append_right _ ?_)
  have hresult : (bin op l r).foldResult? = some z := by
    simp [foldResult?, fold?, hl, hr, hz, Except.toOption]
  rw [hl, hresult]
  exact List.mem_append_right _ (by simp)

/-- Two numbers are folded. -/
theorem normal_of_numbers (hl : l.normal = .ok (num a)) (hr : r.normal = .ok (num b))
    (hz : op.apply a b = .ok z) : (bin op l r).normal = .ok (num z) :=
  normal_bin_eq_ok.mpr ⟨_, _, hl, hr, by simp [joinedForm, joined?, hz]⟩

end

/-! ## 2. Expressions that simplify to zero -/

/-- The expression simplifies to the number zero, or some fold does not give a finite number. -/
def Vanishes (e : Expr) : Prop :=
  e.FoldsFinite → ∃ z, e.normal = .ok (num z) ∧ (z == 0.0) = true

/-- A simplification for which there is no way to fail succeeds. -/
theorem FailsOnlyIf.exists_normal {e : Expr} (h : e.FailsOnlyIf False) : ∃ u, e.normal = .ok u := by
  cases hnormal : e.normal with
  | ok u => exact ⟨u, rfl⟩
  | error x => exact absurd (h x hnormal).2 id

namespace Vanishes

variable {l r l' r' : Expr}

theorem of_zero : (num 0.0).Vanishes := fun _ => ⟨0.0, rfl, by decide +kernel⟩

theorem add (hl : l.Vanishes) (hr : r.Vanishes) : (bin .add l r).Vanishes := by
  intro hfinite
  obtain ⟨y, hy, hyzero⟩ := hl hfinite.left
  obtain ⟨z, hz, hzzero⟩ := hr (hfinite.right hy)
  exact ⟨y + z, normal_of_numbers hy hz rfl, add_beq_zero hyzero hzzero⟩

theorem sub (hl : l.Vanishes) (hr : r.Vanishes) : (bin .sub l r).Vanishes := by
  intro hfinite
  obtain ⟨y, hy, hyzero⟩ := hl hfinite.left
  obtain ⟨z, hz, hzzero⟩ := hr (hfinite.right hy)
  exact ⟨y - z, normal_of_numbers hy hz rfl, sub_beq_zero hyzero hzzero⟩

/-- Zero on the right of a product. -/
theorem mul_right (hl : l.normal = .ok l') (hr : r.Vanishes) : (bin .mul l r).Vanishes := by
  intro hfinite
  obtain ⟨z, hz, hzero⟩ := hr (hfinite.right hl)
  cases l' with
  | num a =>
    have hproduct : (a * z).isFinite = true := hfinite.root hl hz rfl
    exact ⟨a * z, normal_of_numbers hl hz rfl, mul_beq_zero_right hzero hproduct⟩
  | const | var | func | bin | hole =>
    refine ⟨0.0, normal_bin_eq_ok.mpr ⟨_, _, hl, hz, ?_⟩, by decide +kernel⟩
    simp [joinedForm, joined?, identity?, isNumber, hzero, beq_one_of_beq_zero hzero]

/-- Zero on the left of a product. -/
theorem mul_left (hl : l.Vanishes) (hr : r.normal = .ok r') : (bin .mul l r).Vanishes := by
  intro hfinite
  obtain ⟨z, hz, hzero⟩ := hl hfinite.left
  cases r' with
  | num a =>
    have hproduct : (z * a).isFinite = true := hfinite.root hz hr rfl
    exact ⟨z * a, normal_of_numbers hz hr rfl, mul_beq_zero_left hzero hproduct⟩
  | const | var | func | bin | hole =>
    refine ⟨0.0, normal_bin_eq_ok.mpr ⟨_, _, hz, hr, ?_⟩, by decide +kernel⟩
    simp [joinedForm, joined?, identity?, isNumber, hzero, beq_one_of_beq_zero hzero]

/-- Zero above a fraction bar. -/
theorem div (hl : l.Vanishes) (hr : r.normal = .ok r') : (bin .div l r).Vanishes := by
  intro hfinite
  obtain ⟨z, hz, hzero⟩ := hl hfinite.left
  cases r' with
  | num a =>
    have hquotient : (z / a).isFinite = true := hfinite.root hz hr rfl
    exact ⟨z / a, normal_of_numbers hz hr rfl, div_beq_zero hzero hquotient⟩
  | const | var | func | bin | hole =>
    refine ⟨0.0, normal_bin_eq_ok.mpr ⟨_, _, hz, hr, ?_⟩, by decide +kernel⟩
    simp [joinedForm, joined?, identity?, isNumber, hzero]

/-! ## 3. The rules -/

variable {dl dr : Expr}

theorem product (h : (bin .mul l r).Ready) (hl : dl.Vanishes) (hr : dr.Vanishes) :
    (Derivative.product l r dl dr).Vanishes :=
  (mul_right h.operands.1.normal hr).add (mul_right h.operands.2.normal hl)

theorem quotient (h : (bin .div l r).Ready) (hl : dl.Vanishes) (hr : dr.Vanishes) :
    (Derivative.quotient l r dl dr).Vanishes := by
  have hsquare : (bin .pow r (num 2.0)).FailsOnlyIf False :=
    .bin rfl (.of_normal h.operands.2.normal) (.of_normal rfl) nofun
  obtain ⟨square, hnormal⟩ := hsquare.exists_normal
  exact ((mul_right h.operands.2.normal hl).sub (mul_right h.operands.1.normal hr)).div hnormal

theorem power (h : (bin .pow l r).Ready) (hl : dl.Vanishes) (hr : dr.Vanishes) :
    (Derivative.power l r dl dr).Vanishes := by
  have hbase : l.FailsOnlyIf False := .of_normal h.operands.1.normal
  obtain ⟨logarithm, hlogarithm⟩ := (hbase.func (f := "ln")).exists_normal
  exact mul_right h.normal
    ((hr.mul_left hlogarithm).add ((mul_right h.operands.2.normal hl).div h.operands.1.normal))

theorem chain {f : String} {a da : Expr} (h : (func f [a]).Ready) (ha : da.Vanishes) :
    (bin .mul da (Derivative.outer f a)).Vanishes := by
  obtain ⟨outer, houter⟩ := (outer_fails h.arg f).exists_normal
  exact ha.mul_left houter

end Vanishes

/-- **The derivative of a constant vanishes**, by every rule. -/
theorem exists_vanishing_derivative {s : Expr} (hs : s.Ready) {x : String} (hx : var x ∉ s.parts) :
    ∃ d, s.derivative (some x) = .ok d ∧ d.Vanishes := by
  induction s using induct with
  | num v | const c => exact ⟨_, rfl, .of_zero⟩
  | var y =>
    have hne : x ≠ y := fun h => hx (by simp [h])
    refine ⟨num 0.0, by simp [Expr.derivative, hne], .of_zero⟩
  | hole => exact absurd (mem_parts_self hole) hs.supported.complete
  | func f args ih =>
    obtain ⟨a, rfl, -⟩ := supported_func_iff.mp hs.supported
    obtain ⟨da, hda, ha⟩ := ih a (by simp) hs.arg fun hmem => hx (by simp [hmem])
    exact ⟨_, by rw [Expr.derivative, hda]; rfl, ha.chain hs⟩
  | bin op l r ihl ihr =>
    obtain ⟨dl, hdl, hl⟩ := ihl hs.operands.1 fun hmem => hx (by simp [hmem])
    obtain ⟨dr, hdr, hr⟩ := ihr hs.operands.2 fun hmem => hx (by simp [hmem])
    cases op with
    | add => exact ⟨_, by rw [Expr.derivative, hdl, hdr]; rfl, hl.add hr⟩
    | sub => exact ⟨_, by rw [Expr.derivative, hdl, hdr]; rfl, hl.sub hr⟩
    | mul => exact ⟨_, by rw [Expr.derivative, hdl, hdr]; rfl, .product hs hl hr⟩
    | div => exact ⟨_, by rw [Expr.derivative, hdl, hdr]; rfl, .quotient hs hl hr⟩
    | pow => exact ⟨_, by rw [Expr.derivative, hdl, hdr]; rfl, .power hs hl hr⟩
    | other symbol => cases hs.supported.known _ _ _ (mem_parts_self _)

/-! ## 4. Differentiating a constant -/

/-- **The derivative of a constant.**  If a variable does not occur in a ready expression, the
derivative by it can be simplified unless a divisor vanishes.  If all folds give finite numbers,
it can be simplified in any case, and the result is zero. -/
theorem derivative_of_constant {cap : Int} (hcap : 2 ≤ cap) {s : Expr} (hs : s.Ready) {x : String}
    (hx : var x ∉ s.parts) :
    ∃ d, s.derivative (some x) = .ok d ∧
      (¬ s.HasVanishingDivisor → ∃ u changed, (d.reduce cap none).answer = .ok (u, changed)) ∧
      (d.FoldsFinite → ∃ z changed, (d.reduce cap none).answer = .ok (num z, changed) ∧
        (z == 0.0) = true) := by
  obtain ⟨d, hd, hvanishes⟩ := exists_vanishing_derivative hs hx
  refine ⟨d, hd, ?_, ?_⟩
  · intro hdivisor
    obtain ⟨d', hd', hanswer⟩ := answer_of_ready hcap hs (some x)
    obtain rfl : d = d' := Except.ok.inj (hd.symm.trans hd')
    rcases hanswer with ⟨u, changed, hok, -⟩ | ⟨-, hvanishing⟩
    · exact ⟨u, changed, hok⟩
    · exact absurd hvanishing hdivisor
  · intro hfinite
    obtain ⟨z, hz, hzero⟩ := hvanishes hfinite
    exact ⟨z, _, (reduce_settles hcap (by simp) d).answer_of_ok hz, hzero⟩

/-- The derivative of `sin(y) ^ 2` by `x`. -/
theorem derivative_of_constant_square :
    let s := bin .pow (func "sin" [var "y"]) (num 2.0)
    (2 : Int) ≤ 3 ∧ s.Ready ∧ var "x" ∉ s.parts ∧
      ∃ d, s.derivative (some "x") = .ok d ∧ d.FoldsFinite ∧
        ∃ z changed, (d.reduce 3 none).answer = .ok (num z, changed) ∧ (z == 0.0) = true := by
  intro s
  have hcap : (2 : Int) ≤ 3 := by decide
  have hready : s.Ready := by
    have hsine : (func "sin" [var "y"]).Supported :=
      supported_func_iff.mpr ⟨_, rfl, supported_var "y"⟩
    refine ⟨supported_bin_iff.mpr ⟨rfl, hsine, supported_num 2.0⟩, ?_⟩
    exact (isNormal_iff.mp (by decide +kernel)).2
  have hx : var "x" ∉ s.parts := by simp [s]
  obtain ⟨d, hd, -, hzero⟩ := derivative_of_constant hcap hready hx
  have hfinite : d.FoldsFinite := by
    let inner := bin .mul (num 0.0) (func "cos" [var "y"])
    obtain rfl : Derivative.power (func "sin" [var "y"]) (num 2.0) inner (num 0.0) = d :=
      Except.ok.inj hd
    exact List.all_eq_true.mp (by decide +kernel)
  exact ⟨hcap, hready, hx, d, hd, hfinite, hzero hfinite⟩

/-- The derivative of `0 ^ y / 1e-200` by `x` stops simplification.  Above the fraction bar `0 / 0`
is folded and gives no number, so no zero comes up that would end in a number, and below it the
square of `1e-200` is zero. -/
theorem derivative_of_constant_stops :
    let s := bin .div (bin .pow (num 0.0) (var "y")) (num 1e-200)
    s.Ready ∧ var "x" ∉ s.parts ∧
      ∃ d, s.derivative (some "x") = .ok d ∧
        (d.reduce 2 none).answer = .error (.evaluation .divisionByZero) := by
  intro s
  have hready : s.Ready := by
    have hpower : (bin .pow (num 0.0) (var "y")).Supported :=
      supported_bin_iff.mpr ⟨rfl, supported_num 0.0, supported_var "y"⟩
    refine ⟨supported_bin_iff.mpr ⟨rfl, hpower, supported_num 1e-200⟩, ?_⟩
    exact (isNormal_iff.mp (by decide +kernel)).2
  have hstops : (s.nextDerivative 2 (some "x")).isOk = false := by decide +kernel
  refine ⟨hready, by simp [s], ?_⟩
  obtain ⟨d, hd, ⟨u, changed, hok, -⟩ | ⟨hfails, -⟩⟩ :=
    answer_of_ready (Int.le_refl 2) hready (some "x")
  · have hnext : s.nextDerivative 2 (some "x") = .ok u := by simp [nextDerivative, hd, hok]
    rw [hnext] at hstops
    cases hstops
  · exact ⟨d, hd, hfails⟩

end Expr

end Fluxion
