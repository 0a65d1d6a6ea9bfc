/-
# The course of a derivation

A derivation has four stages, and three steps between them at which it can end.  For a proper
expression, and without a limit on the depth, each step can fail in one way only.

* Simplifying the input fails with an evaluation error.  This holds whatever the greatest number
  of passes is: apart from the errors of the rules there is only the one that says that the passes
  are used up (`answer_eq_error`).
* Differentiating fails just when some function does not have one argument, wherever it stands,
  since the derivative of an expression is made of the derivatives of all its parts
  (`supported_of_derivative`, `derivative_eq_error`).
* Simplifying the derivative fails with an evaluation error again: the derivative is proper too.

So a derivation ends in one of four ways (`Derivation.Course`), after one, two, three or four
stages, and every stage can be printed.

Under any limits, what holds of every expression that a text can denote, and is kept by
simplification and differentiation, holds of every stage (`Derivation.forall_stages`).
-/
import Fluxion.Proofs.Derivative.Repeated
import Fluxion.Proofs.Grammar.Readable
import Fluxion.Proofs.Reduction.Limits

namespace Fluxion

open Reduction

/-- What the rule of an operator makes of two operands and their derivatives. -/
def Derivative.joined (op : Op) (l r dl dr : Expr) : Expr :=
  match op with
  | .mul => product l r dl dr
  | .div => quotient l r dl dr
  | .pow => power l r dl dr
  | op => .bin op dl dr

namespace Expr

/-! ## 1. Errors of simplification -/

/-- A derivative is put together from two others. -/
theorem exists_of_bind_eq_ok {l r : Except DerivativeError Expr} {rule : Expr → Expr → Expr}
    {d : Expr} (h : (do return rule (← l) (← r)) = .ok d) :
    ∃ dl dr, l = .ok dl ∧ r = .ok dr ∧ d = rule dl dr := by
  cases l with
  | error x => cases h
  | ok dl =>
    cases r with
    | error x => cases h
    | ok dr => exact ⟨dl, dr, rfl, rfl, (Except.ok.inj h).symm⟩

/-- A call that has a derivative has one argument, and that has a derivative too. -/
theorem exists_of_derivative_func {wrt : Option String} {f : String} {args : List Expr} {d : Expr}
    (h : (func f args).derivative wrt = .ok d) :
    ∃ a da, args = [a] ∧ a.derivative wrt = .ok da ∧ d = .bin .mul da (Derivative.outer f a) := by
  rcases args with _ | ⟨a, _ | ⟨b, args⟩⟩
  · cases h
  · rw [Expr.derivative] at h
    cases ha : a.derivative wrt with
    | error x => rw [ha] at h; cases h
    | ok da =>
      rw [ha] at h
      exact ⟨a, da, rfl, ha, (Except.ok.inj h).symm⟩
  · cases h

/-- Two joined expressions that have a derivative are joined by a known operator and have
derivatives too. -/
theorem exists_of_derivative_bin {wrt : Option String} {op : Op} {l r d : Expr}
    (h : (bin op l r).derivative wrt = .ok d) :
    op.isKnown = true ∧ ∃ dl dr, l.derivative wrt = .ok dl ∧ r.derivative wrt = .ok dr ∧
      d = Derivative.joined op l r dl dr := by
  cases op with
  | add | sub | div =>
    rw [Expr.derivative] at h
    obtain ⟨dl, dr, hl, hr, rfl⟩ := exists_of_bind_eq_ok h
    exact ⟨rfl, dl, dr, hl, hr, rfl⟩
  | mul | pow =>
    rw [Expr.derivative] at h
    obtain ⟨dr, dl, hr, hl, rfl⟩ := exists_of_bind_eq_ok h
    exact ⟨rfl, dl, dr, hl, hr, rfl⟩
  | other s => cases h

end Expr

/-! ## 3. The course of a derivation -/

namespace Derivation

/-- How the derivation of `e` goes if every simplification makes at most `cap` passes: the stages
that are completed, and the failure after them, if there is one. -/
inductive Course (cap : Int) (wrt : Option String) (e : Expr) :
    List Snapshot → Option Failure → Prop
  | inputFails {x : EvalError} :
      (e.reduce cap none).answer = .error (.evaluation x) →
      Course cap wrt e [⟨.input, e⟩] (some (.evaluation x))
  | noRule {s : Expr} {changed : Bool} {f : String} {args : List Expr} :
      (e.reduce cap none).answer = .ok (s, changed) →
      .func f args ∈ s.parts → args.length ≠ 1 →
      Course cap wrt e [⟨.input, e⟩, ⟨.simplified, s⟩]
        (some (.derivative (.wrongArity f args.length)))
  | derivativeFails {s d : Expr} {changed : Bool} {x : EvalError} :
      (e.reduce cap none).answer = .ok (s, changed) → s.Supported →
      s.derivative wrt = .ok d → (d.reduce cap none).answer = .error (.evaluation x) →
      Course cap wrt e [⟨.input, e⟩, ⟨.simplified, s⟩, ⟨.derivative, d⟩] (some (.evaluation x))
  | completes {s d u : Expr} {changed changed' : Bool} :
      (e.reduce cap none).answer = .ok (s, changed) → s.Supported →
      s.derivative wrt = .ok d → (d.reduce cap none).answer = .ok (u, changed') →
      Course cap wrt e
        [⟨.input, e⟩, ⟨.simplified, s⟩, ⟨.derivative, d⟩, ⟨.derivativeSimplified, u⟩] none

variable {settings : Settings} {e : Expr}

section

variable {P : Expr → Prop} {wrt : Option String}

/-- What simplification and differentiation keep holds of every stage if it holds of the first,
whatever the settings are. -/
theorem forall_stages_derivation (hnormal : ∀ e u, e.normal = .ok u → P e → P u)
    (hderivative : ∀ e d, e.derivative wrt = .ok d → P e → P d) (he : P e) :
    ∀ s ∈ (e.derivation settings wrt).stages, P s.expr := by
  unfold Expr.derivation
  split
  · simp [failed]
  cases hinput : (e.reduce settings.passLimit none).answer with
  | error x => simpa [hinput] using he
  | ok answer =>
    obtain ⟨p, changed⟩ := answer
    have hp : P p := hnormal e p (Expr.normal_of_answer hinput) he
    cases hd : p.derivative wrt with
    | error x => simp [hinput, hd, he, hp]
    | ok d =>
      have hderived : P d := hderivative p d hd hp
      cases hlast : (d.reduce settings.passLimit none).answer with
      | error x => simp [hinput, hd, after, finish, hlast, he, hp, hderived]
      | ok last =>
        obtain ⟨u, changed'⟩ := last
        have hu : P u := hnormal d u (Expr.normal_of_answer hlast) hderived
        simp [hinput, hd, after, finish, hlast, he, hp, hderived, hu]

/-- **What holds of the expressions that a text can denote, and is kept by simplification and
differentiation, holds of every stage.** -/
theorem forall_stages (hread : ∀ e : Expr, e.Readable → P e)
    (hnormal : ∀ e u, e.normal = .ok u → P e → P u)
    (hderivative : ∀ e d, e.derivative wrt = .ok d → P e → P d) (settings : Settings)
    (text : String) : ∀ s ∈ (ofText settings wrt text).stages, P s.expr := by
  rcases hresult : Expr.ofText settings.nesting text with ⟨result, log⟩
  cases result with
  | error f => simp [ofText, hresult, failed]
  | ok e =>
    have he : e.Readable := readable_of_ofText (congrArg Prod.fst hresult)
    have hall : ∀ s ∈ (e.derivation settings wrt).stages, P s.expr :=
      forall_stages_derivation hnormal hderivative (hread e he)
    simpa [ofText, hresult, after] using hall

end

end Derivation

end Fluxion
