/-
# Repeated differentiation

Differentiate a simplified expression, simplify the derivative, and differentiate again.  The
expressions for which this goes on are the ready ones (`Expr.Ready`): they are supported and have
no redex.  A ready expression has a derivative, and what its simplification gives is ready again.
So nothing that a round could fail with occurs in any round, with one exception.

The exception is a division by zero.  The rules of differentiation write three divisions: the
quotient rule by the square of a divisor, the power rule by the base, and the logarithm by its
argument.  In a ready expression each of the three is zero only in special cases.

* An argument or a base that is a number is divided into a number, and that is folded.  For a base
  this takes a look at the numerator: the derivative of the base is zero, and the identities turn
  the numerator into a number.
* A divisor that is no number has no number for its square.
* A divisor that is a number is not zero, but its square may be (`HasVanishingDivisor`).

The last case is the only way in which a round fails (`derivative_ready`).
-/
import Fluxion.Derivation
import Fluxion.Proofs.Derivative.Value
import Fluxion.Proofs.Reduction.Redex

namespace Fluxion

open Reduction

namespace Expr

/-! ## 1. Ready expressions -/

/-- Supported, and simplified. -/
structure Ready (e : Expr) : Prop where
  supported : e.Supported
  redexFree : e.RedexFree

/-- Some divisor is a number other than zero whose square is zero. -/
def HasVanishingDivisor (e : Expr) : Prop :=
  ∃ l w z, bin .div l (num w) ∈ e.parts ∧ (w == 0.0) = false ∧
    Op.pow.apply w 2.0 = .ok z ∧ (z == 0.0) = true

theorem Ready.isNormal {e : Expr} (h : e.Ready) : e.isNormal = true :=
  isNormal_iff.mpr ⟨h.supported.complete, h.redexFree⟩

/-- Simplification finds nothing to do in a ready expression, and this makes a supported expression
ready. -/
theorem ready_iff {cap : Int} (hcap : 2 ≤ cap) {e : Expr} :
    e.Ready ↔ e.Supported ∧ (e.reduce cap none).answer = .ok (e, false) := by
  constructor
  · intro h
    exact ⟨h.supported, reduce_of_isNormal hcap (by simp) h.isNormal⟩
  · rintro ⟨hsupported, hanswer⟩
    have hflag : false = !e.isNormal := ((answer_eq_ok_iff hcap (by simp)).mp hanswer).2
    have hnormal : e.isNormal = true := by
      rw [← Bool.not_eq_false', ← hflag]
    exact ⟨hsupported, (isNormal_iff.mp hnormal).2⟩

theorem Ready.normal {e : Expr} (h : e.Ready) : e.normal = .ok e := normal_of_isNormal h.isNormal

theorem Ready.arg {f : String} {a : Expr} (h : (func f [a]).Ready) : a.Ready := by
  obtain ⟨_, ⟨⟩, ha⟩ := supported_func_iff.mp h.supported
  exact ⟨ha, (redexFree_func_iff.mp h.redexFree).2 a (by simp)⟩

theorem Ready.operands {op : Op} {l r : Expr} (h : (bin op l r).Ready) : l.Ready ∧ r.Ready := by
  obtain ⟨-, hl, hr⟩ := supported_bin_iff.mp h.supported
  obtain ⟨-, hfreel, hfreer⟩ := redexFree_bin_iff.mp h.redexFree
  exact ⟨⟨hl, hfreel⟩, hr, hfreer⟩

theorem HasVanishingDivisor.mono {d e : Expr} (h : d.HasVanishingDivisor)
    (hparts : ∀ p ∈ d.parts, p ∈ e.parts) : e.HasVanishingDivisor := by
  obtain ⟨l, w, z, hin, hrest⟩ := h
  exact ⟨l, w, z, hparts _ hin, hrest⟩

/-- The normal form of a supported expression is supported. -/
theorem supported_of_normal {e u : Expr} (he : e.Supported) (h : e.normal = .ok u) :
    u.Supported := by
  have unary : OfNodes fun p => ∀ f args, p = func f args → args.length = 1 :=
    ⟨by simp, fun {f as bs} hlength hone f' args hroot => by
      obtain ⟨-, rfl⟩ := Expr.func.inj hroot
      exact hlength ▸ hone f as rfl, by simp⟩
  refine supported_iff.mpr ⟨proper_of_normal (supported_iff.mp he).1 h, fun f args hp => ?_⟩
  refine unary.forall_parts_normal h (fun p hp f args hroot => ?_) _ hp f args rfl
  exact he.unary f args (hroot ▸ hp)

theorem ready_of_normal {e u : Expr} (he : e.Supported) (h : e.normal = .ok u) : u.Ready :=
  ⟨supported_of_normal he h, (isNormal_iff.mp (isNormal_of_normal h)).2⟩

/-! ## 2. One way to fail -/

/-- Simplification fails by a division by zero at most, and only if `cause` holds. -/
def FailsOnlyIf (e : Expr) (cause : Prop) : Prop :=
  ∀ x, e.normal = .error x → x = .evaluation .divisionByZero ∧ cause

/-- What is equal to a number is a number. -/
theorem exists_num_of_isNumber {e : Expr} {v : Float} (h : e.isNumber v = true) :
    ∃ w, e = num w := by
  cases e with
  | num w => exact ⟨w, rfl⟩
  | const | var | func | bin | hole => cases h

/-- The rules leave two operands alone that are no redex under their operator. -/
theorem joinedForm_of_not_isRedex {op : Op} {l r : Expr} (h : (bin op l r).isRedex = false) :
    joinedForm op l r = .ok (bin op l r) := by
  have hunruled : joined? op l r = .ok none := by
    rw [← isUnruled_iff, isUnruled_joined?, h]
    rfl
  rw [joinedForm, hunruled]

variable {cause : Prop}

theorem FailsOnlyIf.of_normal {e u : Expr} (h : e.normal = .ok u) : e.FailsOnlyIf cause := by
  intro x hx
  rw [h] at hx
  cases hx

theorem FailsOnlyIf.mono {e : Expr} {cause' : Prop} (h : e.FailsOnlyIf cause)
    (himp : cause → cause') : e.FailsOnlyIf cause' :=
  fun x hx => ⟨(h x hx).1, himp (h x hx).2⟩

theorem FailsOnlyIf.func {f : String} {a : Expr} (h : a.FailsOnlyIf cause) :
    (func f [a]).FailsOnlyIf cause := by
  intro x hx
  rcases normal_func_eq_error.mp hx with hargs | ⟨args', hargs, hcall⟩
  · obtain ⟨d, hd, hfails⟩ := normalAll_eq_error hargs
    obtain rfl := List.mem_singleton.mp hd
    exact h x hfails
  · have hlength : args'.length = 1 := (normalAll_eq_ok_iff.mp hargs).length_eq.symm
    exact absurd hlength (calledForm_eq_error hcall).1

/-- Two operands fail as each of them does, or as a division of something that is no number by
zero. -/
theorem FailsOnlyIf.bin {op : Op} {l r : Expr} (hop : op.isKnown = true)
    (hl : l.FailsOnlyIf cause) (hr : r.FailsOnlyIf cause)
    (hzero : op = .div → ∀ l' r', l.normal = .ok l' → r.normal = .ok r' → (∀ v, l' ≠ num v) →
      r'.isNumber 0.0 = true → cause) :
    (bin op l r).FailsOnlyIf cause := by
  intro x hx
  rcases normal_bin_eq_error.mp hx with hx | ⟨-, -, hx⟩ | ⟨l', r', hl', hr', hjoin⟩
  · exact hl x hx
  · exact hr x hx
  · rcases joinedForm_eq_error hjoin with ⟨rfl, hdiv, hnum, hvanishes⟩ | ⟨s, rfl, -⟩
    · exact ⟨rfl, hzero hdiv l' r' hl' hr' hnum hvanishes⟩
    · cases hop

/-! ## 3. The divisions that the rules write -/

/-- The square of a divisor is zero only if the divisor is a number. -/
theorem hasVanishingDivisor_of_square {l r r' : Expr} (h : (bin .div l r).Ready)
    (hr' : (bin .pow r (num 2.0)).normal = .ok r') (hzero : r'.isNumber 0.0 = true) :
    (bin .div l r).HasVanishingDivisor := by
  obtain ⟨b, two, hb, htwo, hjoin⟩ := normal_bin_eq_ok.mp hr'
  obtain rfl : r = b := by simpa [h.operands.2.normal] using hb
  obtain rfl : num 2.0 = two := by simpa [Expr.normal] using htwo
  cases r with
  | num w =>
    obtain rfl : num (Numeral.power w 2.0) = r' := by
      simpa [joinedForm, joined?, Op.apply] using hjoin
    have hfree : (bin .div l (num w)).isRedex = false := (redexFree_bin_iff.mp h.redexFree).1
    have hw : (w == 0.0) = false := by
      simp only [isRedex, Op.rightNumbers, List.any_cons, Bool.or_eq_false_iff] at hfree
      exact hfree.2.1
    exact ⟨l, w, Numeral.power w 2.0, mem_parts_self _, hw, rfl, hzero⟩
  | const | var | func | bin | hole =>
    -- the power stays, and it is no number
    have htwo : ((2.0 : Float) == 0.0) = false ∧ ((2.0 : Float) == 1.0) = false := by
      decide +kernel
    rw [joinedForm_of_not_isRedex] at hjoin
    · cases hjoin
      cases hzero
    · simp [isRedex, isNum, isNumber, Op.leftNumbers, Op.rightNumbers, htwo]

/-- A product with the number zero is a number. -/
theorem exists_num_of_mul_zero {r n : Expr} (h : (bin .mul r (num 0.0)).normal = .ok n) :
    ∃ v, n = num v := by
  obtain ⟨r', zero, -, hzero, hjoin⟩ := normal_bin_eq_ok.mp h
  obtain rfl : num 0.0 = zero := by simpa [Expr.normal] using hzero
  have hnumbers : ((0.0 : Float) == 0.0) = true ∧ ((0.0 : Float) == 1.0) = false := by
    decide +kernel
  cases r' with
  | num a => exact ⟨a * 0.0, by simpa [joinedForm, joined?, Op.apply, eq_comm] using hjoin⟩
  | const | var | func | bin | hole =>
    exact ⟨0.0, by
      simpa [joinedForm, joined?, identity?, isNumber, hnumbers, eq_comm] using hjoin⟩

/-- What the power rule divides by its base is a number if the base is one. -/
theorem not_vanishing_of_base {wrt : Option String} {l r dl l' n : Expr}
    (h : (bin .pow l r).Ready) (hdl : l.derivative wrt = .ok dl)
    (hn : (bin .mul r dl).normal = .ok n) (hl' : l.normal = .ok l') (hnum : ∀ v, n ≠ num v) :
    l'.isNumber 0.0 = false := by
  rw [Bool.eq_false_iff]
  intro hzero
  obtain rfl : l = l' := by simpa [h.operands.1.normal] using hl'
  obtain ⟨a, rfl⟩ := exists_num_of_isNumber hzero
  obtain rfl : num 0.0 = dl := by simpa [Expr.derivative] using hdl
  obtain ⟨v, hv⟩ := exists_num_of_mul_zero hn
  exact hnum v hv

/-- The derivative of a function divides a number at most. -/
theorem outer_fails {a : Expr} (ha : a.Ready) (f : String) :
    (Derivative.outer f a).FailsOnlyIf cause := by
  have hself : a.FailsOnlyIf cause := .of_normal ha.normal
  unfold Derivative.outer
  split
  · exact .of_normal rfl
  split
  · exact hself.func
  split
  · exact .bin rfl (.of_normal rfl) hself.func nofun
  split
  · exact .bin rfl hself.func (.of_normal rfl) nofun
  split
  · refine .bin rfl (.of_normal rfl) hself ?_
    intro _ l' _ hl' _ hnum _
    exact absurd (Except.ok.inj hl').symm (hnum 1.0)
  · exact hself.func

theorem supported_outer {a : Expr} (ha : a.Supported) (f : String) :
    (Derivative.outer f a).Supported := by
  unfold Derivative.outer
  repeat' split
  all_goals simp [supported_bin_iff, supported_func_iff, supported_num, Op.isKnown, ha]

/-! ## 4. The rules -/

/-- What is proved of a derivative by induction: it exists and is supported, and its
simplification fails only if some divisor vanishes. -/
structure SafeDerivative (wrt : Option String) (e d : Expr) : Prop where
  derivative : e.derivative wrt = .ok d
  supported : d.Supported
  fails : d.FailsOnlyIf e.HasVanishingDivisor

namespace SafeDerivative

variable {wrt : Option String} {op : Op} {l r dl dr : Expr}

theorem left (h : SafeDerivative wrt l dl) :
    dl.FailsOnlyIf (bin op l r).HasVanishingDivisor :=
  h.fails.mono fun hl => hl.mono fun p hp => by simp [hp]

theorem right (h : SafeDerivative wrt r dr) :
    dr.FailsOnlyIf (bin op l r).HasVanishingDivisor :=
  h.fails.mono fun hr => hr.mono fun p hp => by simp [hp]

theorem sum (hl : SafeDerivative wrt l dl) (hr : SafeDerivative wrt r dr) :
    SafeDerivative wrt (.bin .add l r) (.bin .add dl dr) where
  derivative := by rw [Expr.derivative, hl.derivative, hr.derivative]; rfl
  supported := supported_bin_iff.mpr ⟨rfl, hl.supported, hr.supported⟩
  fails := .bin rfl hl.left hr.right nofun

theorem difference (hl : SafeDerivative wrt l dl) (hr : SafeDerivative wrt r dr) :
    SafeDerivative wrt (.bin .sub l r) (.bin .sub dl dr) where
  derivative := by rw [Expr.derivative, hl.derivative, hr.derivative]; rfl
  supported := supported_bin_iff.mpr ⟨rfl, hl.supported, hr.supported⟩
  fails := .bin rfl hl.left hr.right nofun

theorem product (h : (bin .mul l r).Ready) (hl : SafeDerivative wrt l dl)
    (hr : SafeDerivative wrt r dr) :
    SafeDerivative wrt (.bin .mul l r) (Derivative.product l r dl dr) where
  derivative := by rw [Expr.derivative, hl.derivative, hr.derivative]; rfl
  supported := by
    simp [Derivative.product, supported_bin_iff, Op.isKnown, h.operands.1.supported,
      h.operands.2.supported, hl.supported, hr.supported]
  fails := .bin rfl (.bin rfl (.of_normal h.operands.1.normal) hr.right nofun)
    (.bin rfl (.of_normal h.operands.2.normal) hl.left nofun) nofun

theorem quotient (h : (bin .div l r).Ready) (hl : SafeDerivative wrt l dl)
    (hr : SafeDerivative wrt r dr) :
    SafeDerivative wrt (.bin .div l r) (Derivative.quotient l r dl dr) where
  derivative := by rw [Expr.derivative, hl.derivative, hr.derivative]; rfl
  supported := by
    simp [Derivative.quotient, supported_bin_iff, Op.isKnown, h.operands.1.supported,
      h.operands.2.supported, hl.supported, hr.supported, supported_num]
  fails := by
    refine .bin rfl (.bin rfl (.bin rfl (.of_normal h.operands.2.normal) hl.left nofun)
      (.bin rfl (.of_normal h.operands.1.normal) hr.right nofun) nofun)
      (.bin rfl (.of_normal h.operands.2.normal) (.of_normal rfl) nofun) ?_
    intro _ _ r' _ hr' _ hzero
    exact hasVanishingDivisor_of_square h hr' hzero

theorem power (h : (bin .pow l r).Ready) (hl : SafeDerivative wrt l dl)
    (hr : SafeDerivative wrt r dr) :
    SafeDerivative wrt (.bin .pow l r) (Derivative.power l r dl dr) where
  derivative := by rw [Expr.derivative, hl.derivative, hr.derivative]; rfl
  supported := by
    simp [Derivative.power, supported_bin_iff, supported_func_iff, Op.isKnown,
      h.operands.1.supported, h.operands.2.supported, hl.supported, hr.supported]
  fails := by
    have hbase : l.FailsOnlyIf (bin .pow l r).HasVanishingDivisor :=
      .of_normal h.operands.1.normal
    refine .bin rfl (.of_normal h.normal) (.bin rfl (.bin rfl hr.right hbase.func nofun)
      (.bin rfl (.bin rfl (.of_normal h.operands.2.normal) hl.left nofun) hbase ?_) nofun) nofun
    intro _ n l' hn hl' hnum hzero
    have hnonzero := not_vanishing_of_base h hl.derivative hn hl' hnum
    rw [hnonzero] at hzero
    cases hzero

theorem chain {f : String} {a da : Expr} (h : (func f [a]).Ready) (ha : SafeDerivative wrt a da) :
    SafeDerivative wrt (.func f [a]) (.bin .mul da (Derivative.outer f a)) where
  derivative := by rw [Expr.derivative, ha.derivative]; rfl
  supported := supported_bin_iff.mpr ⟨rfl, ha.supported, supported_outer h.arg.supported f⟩
  fails := by
    have hinner : da.FailsOnlyIf (Expr.func f [a]).HasVanishingDivisor :=
      ha.fails.mono fun hv => hv.mono fun p hp => by simp [hp]
    exact .bin rfl hinner (outer_fails h.arg f) nofun

end SafeDerivative

/-- **A ready expression has a derivative**, and only a divisor that vanishes can stop its
simplification. -/
theorem exists_safeDerivative {e : Expr} (he : e.Ready) (wrt : Option String) :
    ∃ d, SafeDerivative wrt e d := by
  induction e using induct with
  | num v => exact ⟨_, rfl, supported_num _, .of_normal rfl⟩
  | const c => exact ⟨_, rfl, supported_num _, .of_normal rfl⟩
  | var x => exact ⟨_, rfl, supported_num _, .of_normal rfl⟩
  | hole => exact absurd (mem_parts_self hole) he.supported.complete
  | func f args ih =>
    obtain ⟨a, rfl, -⟩ := supported_func_iff.mp he.supported
    obtain ⟨da, ha⟩ := ih a (by simp) he.arg
    exact ⟨_, ha.chain he⟩
  | bin op l r ihl ihr =>
    obtain ⟨dl, hl⟩ := ihl he.operands.1
    obtain ⟨dr, hr⟩ := ihr he.operands.2
    cases op with
    | add => exact ⟨_, hl.sum hr⟩
    | sub => exact ⟨_, hl.difference hr⟩
    | mul => exact ⟨_, hl.product he hr⟩
    | div => exact ⟨_, hl.quotient he hr⟩
    | pow => exact ⟨_, hl.power he hr⟩
    | other s => cases he.supported.known _ _ _ (mem_parts_self _)

/-! ## 5. Rounds -/

/-- What one round gives: the derivative, simplified. -/
def nextDerivative (cap : Int) (wrt : Option String) (e : Expr) : Except Failure Expr :=
  match e.derivative wrt with
  | .error x => .error (.derivative x)
  | .ok d =>
    match (d.reduce cap none).answer with
    | .error x => .error (.ofReduce x)
    | .ok (u, _) => .ok u

/-- What several rounds give, each by its own variable. -/
def higherDerivative (cap : Int) : List (Option String) → Expr → Except Failure Expr
  | [], e => .ok e
  | wrt :: more, e =>
    match e.nextDerivative cap wrt with
    | .error x => .error x
    | .ok u => u.higherDerivative cap more

section

variable {cap : Int} (hcap : 2 ≤ cap) {s : Expr} (hs : s.Ready)

include hcap hs

/-- The simplified derivative of a ready expression is ready, or a divisor vanishes. -/
theorem answer_of_ready (wrt : Option String) :
    ∃ d, s.derivative wrt = .ok d ∧
      ((∃ u changed, (d.reduce cap none).answer = .ok (u, changed) ∧ u.Ready) ∨
        (d.reduce cap none).answer = .error (.evaluation .divisionByZero) ∧
          s.HasVanishingDivisor) := by
  obtain ⟨d, hd⟩ := exists_safeDerivative hs wrt
  have hsettles : (d.reduce cap none).Settles d := reduce_settles hcap (by simp) d
  refine ⟨d, hd.derivative, ?_⟩
  cases hnormal : d.normal with
  | ok u => exact Or.inl ⟨u, _, hsettles.answer_of_ok hnormal, ready_of_normal hd.supported hnormal⟩
  | error x =>
    obtain ⟨rfl, hvanishing⟩ := hd.fails x hnormal
    exact Or.inr ⟨hsettles.answer_of_error hnormal, hvanishing⟩

/-- **A round** gives a ready expression, or a divisor vanishes. -/
theorem nextDerivative_of_ready (wrt : Option String) :
    (∃ u, s.nextDerivative cap wrt = .ok u ∧ u.Ready) ∨
      s.nextDerivative cap wrt = .error (.evaluation .divisionByZero) ∧
        s.HasVanishingDivisor := by
  obtain ⟨d, hd, ⟨u, changed, hanswer, hu⟩ | ⟨hanswer, hvanishing⟩⟩ := answer_of_ready hcap hs wrt
  · exact Or.inl ⟨u, by simp [nextDerivative, hd, hanswer], hu⟩
  · exact Or.inr ⟨by simp [nextDerivative, hd, hanswer, Failure.ofReduce], hvanishing⟩

/-- **Any number of rounds** give a ready expression, or lead to one in which a divisor
vanishes. -/
theorem higherDerivative_of_ready (wrts : List (Option String)) :
    (∃ u, s.higherDerivative cap wrts = .ok u ∧ u.Ready) ∨
      s.higherDerivative cap wrts = .error (.evaluation .divisionByZero) ∧
        ∃ before wrt after t, wrts = before ++ wrt :: after ∧
          s.higherDerivative cap before = .ok t ∧ t.Ready ∧ t.HasVanishingDivisor := by
  induction wrts generalizing s with
  | nil => exact Or.inl ⟨s, rfl, hs⟩
  | cons wrt more ih =>
    rcases nextDerivative_of_ready hcap hs wrt with ⟨u, hu, hready⟩ | ⟨hfails, hvanishing⟩
    · rcases ih hready with ⟨v, hv, hlast⟩ | ⟨hlater, before, wrt', after, t, rfl, ht, hrest⟩
      · exact Or.inl ⟨v, by simp [higherDerivative, hu, hv], hlast⟩
      · refine Or.inr ⟨by simp [higherDerivative, hu, hlater], ?_⟩
        exact ⟨wrt :: before, wrt', after, t, rfl, by simp [higherDerivative, hu, ht], hrest⟩
    · refine Or.inr ⟨by simp [higherDerivative, hfails], ?_⟩
      exact ⟨[], wrt, more, s, rfl, rfl, hs, hvanishing⟩

end

/-- **Differentiating again and again.**  A ready expression has a derivative by every variable.
The simplified derivative is ready, or it is stopped by a division by zero, and then a divisor
vanishes in the expression.  So any number of rounds give a ready expression, unless one of the
expressions on the way has a divisor that vanishes. -/
theorem derivative_ready {cap : Int} (hcap : 2 ≤ cap) {s : Expr} (hs : s.Ready) :
    (∀ wrt, ∃ d, s.derivative wrt = .ok d ∧
      ((∃ u changed, (d.reduce cap none).answer = .ok (u, changed) ∧ u.Ready) ∨
        (d.reduce cap none).answer = .error (.evaluation .divisionByZero) ∧
          s.HasVanishingDivisor)) ∧
      ∀ wrts, (∃ u, s.higherDerivative cap wrts = .ok u ∧ u.Ready) ∨
        s.higherDerivative cap wrts = .error (.evaluation .divisionByZero) ∧
          ∃ before wrt after t, wrts = before ++ wrt :: after ∧
            s.higherDerivative cap before = .ok t ∧ t.Ready ∧ t.HasVanishingDivisor :=
  ⟨answer_of_ready hcap hs, higherDerivative_of_ready hcap hs⟩

/-- The quotient of `sin(x)` and `x` can be differentiated twice. -/
theorem derivative_ready_twice :
    let s := bin .div (func "sin" [var "x"]) (var "x")
    (2 : Int) ≤ 2 ∧ s.Ready ∧
      ∃ u, s.higherDerivative 2 [some "x", none] = .ok u ∧ u.Ready := by
  intro s
  have hready : s.Ready := by
    have hsine : (func "sin" [var "x"]).Supported :=
      supported_func_iff.mpr ⟨_, rfl, supported_var "x"⟩
    refine ⟨supported_bin_iff.mpr ⟨rfl, hsine, supported_var "x"⟩, ?_⟩
    exact (isNormal_iff.mp (by decide +kernel)).2
  have hok : (s.higherDerivative 2 [some "x", none]).isOk = true := by decide +kernel
  refine ⟨Int.le_refl 2, hready, ?_⟩
  rcases (derivative_ready (Int.le_refl 2) hready).2 [some "x", none] with hu | ⟨hfails, -⟩
  · exact hu
  · rw [hfails] at hok
    cases hok

end Expr

end Fluxion
