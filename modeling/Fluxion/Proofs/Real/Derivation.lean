/-
# The last stage of a derivation

The last stage of a derivation is its derivative, simplified.  Where the derivative has a value,
the last stage has the same one, if the folds on the way are exact and no minus sign is dropped
(`value?_derivativeSimplified`).

The second condition cannot be left out.  A constant in front of a minus sign has the derivative
zero, and what simplification makes of `0 - r` is `r`.  So the derivative of `5 - sin(x)` ends as
`cos(x)`, which has the wrong sign (`derivation_loses_minus`).
-/
import Fluxion.Derivation
import Fluxion.Proofs.Grammar.Reading
import Fluxion.Proofs.Real.Soundness

namespace Fluxion

open Fluxion.Expr

namespace Derivation

/-! ## 1. Four stages -/

/-- The derivation went through all four stages, with the given expressions. -/
def Completes (d : Derivation) (input simplified derivative last : Expr) : Prop :=
  d.stages = [⟨.input, input⟩, ⟨.simplified, simplified⟩, ⟨.derivative, derivative⟩,
    ⟨.derivativeSimplified, last⟩]

/-- The last stage adds what the derivative simplifies to. -/
theorem answer_of_finish {settings : Settings} {e p d e' p' q u : Expr}
    (h : (finish settings [⟨.input, e⟩, ⟨.simplified, p⟩, ⟨.derivative, d⟩] d).Completes
      e' p' q u) :
    ∃ changed, (q.reduce settings.passLimit none).answer = .ok (u, changed) := by
  unfold Completes finish at h
  cases hanswer : (d.reduce settings.passLimit none).answer with
  | error x => simp [hanswer] at h
  | ok answer =>
    obtain ⟨u', changed⟩ := answer
    obtain ⟨-, -, rfl, rfl⟩ : e = e' ∧ p = p' ∧ d = q ∧ u' = u := by simpa [hanswer] using h
    exact ⟨changed, hanswer⟩

/-- **A derivation that goes through all stages** ends with what the derivative simplifies to. -/
theorem answer_of_completes {settings : Settings} {wrt : Option String} {s : String}
    {e p q u : Expr} (h : (ofText settings wrt s).Completes e p q u) :
    ∃ changed, (q.reduce settings.passLimit none).answer = .ok (u, changed) := by
  unfold ofText at h
  split at h
  · simp [Completes, failed] at h
  rename_i e' log hread
  unfold Expr.derivation at h
  split at h
  · simp [Completes, after, failed] at h
  cases hanswer : (e'.reduce settings.passLimit none).answer with
  | error x => simp [Completes, after, hanswer] at h
  | ok answer =>
    obtain ⟨p', changed⟩ := answer
    cases hderivative : p'.derivative wrt with
    | error x => simp [Completes, after, hanswer, hderivative] at h
    | ok d =>
      simp only [hanswer, hderivative] at h
      exact answer_of_finish h

/-- A text that is read goes through the four stages, if each of them succeeds. -/
theorem completes_of_normal {settings : Settings} {wrt : Option String} {s : String}
    {e p q u : Expr} (he : (Expr.ofText settings.nesting s).1 = .ok e)
    (hfits : e.exceeds settings.nesting = false) (hlimit : 2 ≤ settings.passLimit)
    (hp : e.normal = .ok p) (hq : p.derivative wrt = .ok q) (hu : q.normal = .ok u) :
    (ofText settings wrt s).Completes e p q u := by
  have hinput : (e.reduce settings.passLimit none).answer = .ok (p, !e.isNormal) :=
    (answer_eq_ok_iff hlimit (by simp)).mpr ⟨hp, rfl⟩
  have hlast : (q.reduce settings.passLimit none).answer = .ok (u, !q.isNormal) :=
    (answer_eq_ok_iff hlimit (by simp)).mpr ⟨hu, rfl⟩
  simp only [Completes, ofText]
  rcases hread : Expr.ofText settings.nesting s with ⟨result, log⟩
  obtain rfl : result = .ok e := by simpa [hread] using he
  simp [after, derivation, hfits, hinput, hq, finish, hlast]

/-! ## 2. Values -/

/-- **The last stage keeps the value of the derivative**, sign included, provided that every fold
of the last simplification is exact and that it drops no minus sign. -/
theorem value?_derivativeSimplified {R : RealReading} (hR : R.Lawful) {settings : Settings}
    {wrt : Option String} {s : String} {e p q u : Expr}
    (h : (ofText settings wrt s).Completes e p q u)
    (hfolds : ∀ op a b, (op, a, b) ∈ q.folds → R.Exact op a b) (hminus : q.dropsMinus = false)
    {env : String → ℝ} {z : ℝ} (hz : R.value? env q = some z) : R.value? env u = some z := by
  obtain ⟨changed, hanswer⟩ := answer_of_completes h
  exact RealReading.value?_normal_part hR hfolds hminus q (mem_parts_self q) u z
    (normal_of_answer hanswer) hz

/-- The tokens of `sin(x)`. -/
def sineTokens : List Token :=
  [⟨.func, "sin"⟩, ⟨.leftParen, "("⟩, ⟨.var, "x"⟩, ⟨.rightParen, ")"⟩]

theorem derives_sine : Grammar.Derives .factor sineTokens (.func "sin" [.var "x"]) := by
  have hvar : Grammar.Derives .term [⟨.var, "x"⟩] (.var "x") :=
    .ofFactor (.ofPower (.ofUnary (.ofPrimary (.var "x"))))
  have hcall : Grammar.Derives .primary
      (⟨.func, "sin"⟩ :: ⟨.leftParen, "("⟩ ::
        ([⟨.var, "x"⟩] ++ Grammar.Further.all [] ++ [⟨.rightParen, ")"⟩]))
      (.func "sin" [.var "x"]) := .call rfl rfl hvar (by simp) (by simp)
  exact .ofPower (.ofUnary (.ofPrimary hcall))

/-- A text is read within the limit on nesting, if it has no more tokens than that. -/
theorem ofText_of_derives {limit : Option Nat} {s : String} {ts : List Token} {e : Expr}
    (htokens : Token.ofText s = .ok ts) (h : Grammar.Derives .term ts e)
    (hlevels : ts.length ≤ Grammar.levels limit ts) : (Expr.ofText limit s).1 = .ok e := by
  simp only [Expr.ofText, htokens, Grammar.ofTokens_of_derives_within h hlevels]

/-- The derivation of `3 * x - sin(x)` folds twice, and the derivative keeps its value. -/
theorem value?_derivativeSimplified_difference :
    let e := bin .sub (bin .mul (num 3.0) (var "x")) (.func "sin" [var "x"])
    let q := bin .sub
      (bin .add (bin .mul (num 3.0) (num 1.0)) (bin .mul (var "x") (num 0.0)))
      (bin .mul (num 1.0) (.func "cos" [var "x"]))
    let u := bin .sub (num 3.0) (.func "cos" [var "x"])
    let env : String → ℝ := fun _ => 0
    (RealReading.usual.Lawful ∧ (ofText {} none "3 * x - sin(x)").Completes e e q u ∧
      (∀ op a b, (op, a, b) ∈ q.folds → RealReading.usual.Exact op a b) ∧
      q.dropsMinus = false ∧ RealReading.usual.value? env q = some 2) ∧
    RealReading.usual.value? env u = some 2 := by
  intro e q u env
  have hread : (Expr.ofText (some 500) "3 * x - sin(x)").1 = .ok e := by
    have hthree : Grammar.Derives .factor [⟨.number, "3"⟩] (num 3.0) :=
      .ofPower (.ofUnary (.ofPrimary (.number (by decide +kernel))))
    have hvar : Grammar.Derives .power [⟨.var, "x"⟩] (var "x") :=
      .ofUnary (.ofPrimary (.var "x"))
    have hproduct : Grammar.Derives .term ([⟨.number, "3"⟩] ++ ⟨.op, "*"⟩ :: [⟨.var, "x"⟩])
        (bin .mul (num 3.0) (var "x")) := .ofFactor (.product hthree rfl rfl hvar)
    have hsum : Grammar.Derives .term
        (([⟨.number, "3"⟩] ++ ⟨.op, "*"⟩ :: [⟨.var, "x"⟩]) ++ ⟨.op, "-"⟩ :: sineTokens) e :=
      .sum hproduct rfl rfl derives_sine
    exact ofText_of_derives (by decide +kernel) hsum (by decide)
  have hstages : (ofText {} none "3 * x - sin(x)").Completes e e q u :=
    completes_of_normal hread rfl (by decide) rfl rfl rfl
  have hfolds : q.folds = [(.add, 3.0, 0.0), (.mul, 3.0, 1.0)] := rfl
  have hexact : ∀ op a b, (op, a, b) ∈ q.folds → RealReading.usual.Exact op a b := by
    intro op a b h
    rw [hfolds] at h
    obtain ⟨rfl, rfl, rfl⟩ | ⟨rfl, rfl, rfl⟩ :
        (op = .add ∧ a = 3.0 ∧ b = 0.0) ∨ (op = .mul ∧ a = 3.0 ∧ b = 1.0) := by simpa using h
    · exact ⟨3.0, 3, 0, 3, rfl, realOf?_three, realOf?_zero, realOf?_three,
        by simp [RealReading.apply]⟩
    · exact ⟨3.0, 3, 1, 3, rfl, realOf?_three, realOf?_one, realOf?_three,
        by simp [RealReading.apply]⟩
  have hminus : q.dropsMinus = false := by decide +kernel
  have hvalue : RealReading.usual.value? env q = some 2 := by
    have hcos : RealReading.usual.value? env (.func "cos" [var "x"]) = some 1 := by
      simp [env, RealReading.value?, RealReading.valueAll?]
    simp only [q, RealReading.value?_bin_eq_some, hcos]
    refine ⟨3 * 1 + 0 * 0, 1 * 1, ⟨_, _, ⟨3, 1, realOf?_three, realOf?_one, rfl⟩,
      ⟨0, 0, rfl, realOf?_zero, rfl⟩, rfl⟩, ⟨1, 1, realOf?_one, rfl, rfl⟩, ?_⟩
    norm_num [RealReading.apply]
  exact ⟨⟨RealReading.usual_lawful, hstages, hexact, hminus, hvalue⟩,
    value?_derivativeSimplified RealReading.usual_lawful hstages hexact hminus hvalue⟩

/-- **Without the condition on minus signs the sign may get lost.**  The derivative of `5 - sin(x)`
is `0 - 1 * cos(x)`, no fold is made in simplifying it, and the last stage is `cos(x)`. -/
theorem derivation_loses_minus :
    let e := bin .sub (num 5.0) (.func "sin" [var "x"])
    let q := bin .sub (num 0.0) (bin .mul (num 1.0) (.func "cos" [var "x"]))
    let u := .func "cos" [var "x"]
    let env : String → ℝ := fun _ => 0
    (ofText {} none "5 - sin(x)").Completes e e q u ∧ q.folds = [] ∧ q.dropsMinus = true ∧
      RealReading.usual.value? env q = some (-1) ∧ RealReading.usual.value? env u = some 1 := by
  intro e q u env
  have hread : (Expr.ofText (some 500) "5 - sin(x)").1 = .ok e := by
    have hfive : Grammar.Derives .term [⟨.number, "5"⟩] (num 5.0) :=
      .ofFactor (.ofPower (.ofUnary (.ofPrimary (.number (by decide +kernel)))))
    have hsum : Grammar.Derives .term ([⟨.number, "5"⟩] ++ ⟨.op, "-"⟩ :: sineTokens) e :=
      .sum hfive rfl rfl derives_sine
    exact ofText_of_derives (by decide +kernel) hsum (by decide)
  have hstages : (ofText {} none "5 - sin(x)").Completes e e q u :=
    completes_of_normal hread rfl (by decide) rfl rfl rfl
  have hcos : RealReading.usual.value? env u = some 1 := by
    simp [u, env, RealReading.value?, RealReading.valueAll?]
  have hvalue : RealReading.usual.value? env q = some (-1) := by
    simp only [q, RealReading.value?_bin_eq_some]
    refine ⟨0, 1 * 1, realOf?_zero, ⟨1, 1, realOf?_one, hcos, rfl⟩, ?_⟩
    norm_num [RealReading.apply]
  exact ⟨hstages, rfl, by decide +kernel, hvalue, hcos⟩

end Derivation

end Fluxion
