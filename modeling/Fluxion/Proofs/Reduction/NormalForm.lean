/-
# Normal forms

`Reduction/FixedPoint.lean` simplifies by passes: every operand has its own passes up to a fixed
point, and the root is looked at again after each of them.  This file says what comes out without
any passes.

* `Expr.normal` walks over the expression once, operands first, and applies the rules once at
  each node.
* `Expr.isNormal` says that no rule applies anywhere.
* `Expr.remains` is what is left of an expression that is simplified in place: it keeps its root,
  and its operands are normal up to the place of the first error.

The normal form is normal (`isNormal_of_normal`), a normal expression is its own normal form
(`normal_of_isNormal`), and no expression is lower than its normal form (`height_normal_le`).  All
three rest on one fact about the rules: what replaces a node is a number or one of the node's two
operands (`joined?_eq_some`).
-/
import Fluxion.Proofs.Expr.Proper
import Fluxion.Reduction.FixedPoint
import Mathlib.Data.List.Forall2

namespace Fluxion

namespace Reduction

/-! ## 1. The rules at one node -/

/-- No rule applies, and none fails. -/
def isUnruled {ε α : Type} : Except ε (Option α) → Bool
  | .ok none => true
  | _ => false

theorem isUnruled_iff {ε α : Type} {x : Except ε (Option α)} :
    isUnruled x = true ↔ x = .ok none := by
  rcases x with x | _ | a <;> simp [isUnruled]

/-- The node that the rules leave in the place of a function call. -/
def calledForm (f : String) (args : List Expr) : Except ReduceError Expr :=
  match specialValue? f args with
  | .error x => .error (.evaluation x)
  | .ok none => .ok (.func f args)
  | .ok (some v) => .ok (.num v)

/-- The node that the rules leave in the place of two operands: folding if both are numbers, else
an identity, else the operator itself. -/
def joinedForm (op : Op) (l r : Expr) : Except ReduceError Expr :=
  match joined? op l r with
  | .error x => .error x
  | .ok none => .ok (.bin op l r)
  | .ok (some e) => .ok e

/-- `Identity op l r e`: an identity of the operator puts `e` in the place of the operator over `l`
and `r`. -/
inductive Identity : Op → Expr → Expr → Expr → Prop where
  | zeroAdd {l r : Expr} : l.isNumber 0.0 = true → Identity .add l r r
  | addZero {l r : Expr} : r.isNumber 0.0 = true → Identity .add l r l
  | zeroSub {l r : Expr} : l.isNumber 0.0 = true → Identity .sub l r r
  | subZero {l r : Expr} : r.isNumber 0.0 = true → Identity .sub l r l
  | oneMul {l r : Expr} : l.isNumber 1.0 = true → Identity .mul l r r
  | zeroMul {l r : Expr} : l.isNumber 0.0 = true → Identity .mul l r (.num 0.0)
  | mulOne {l r : Expr} : r.isNumber 1.0 = true → Identity .mul l r l
  | mulZero {l r : Expr} : r.isNumber 0.0 = true → Identity .mul l r (.num 0.0)
  | zeroDiv {l r : Expr} : l.isNumber 0.0 = true → Identity .div l r (.num 0.0)
  | divOne {l r : Expr} : r.isNumber 1.0 = true → Identity .div l r l
  | onePow {l r : Expr} : l.isNumber 1.0 = true → Identity .pow l r (.num 1.0)
  | powZero {l r : Expr} : r.isNumber 0.0 = true → Identity .pow l r (.num 1.0)
  | powOne {l r : Expr} : r.isNumber 1.0 = true → Identity .pow l r l

/-- What an identity makes of two operands, by name. -/
theorem identity_of_identity? {op : Op} {l r e : Expr} (h : identity? op l r = .ok (some e)) :
    Identity op l r e := by
  cases op with
  | add | sub | mul | div | pow =>
    simp only [identity?] at h
    repeat' split at h
    all_goals grind [Identity]
  | other s => simp [identity?] at h

/-- **What an identity puts in the place of a node** is a number or one of the operands. -/
theorem identity?_eq_some {op : Op} {l r e : Expr} (h : identity? op l r = .ok (some e)) :
    (∃ v, e = .num v) ∨ e = l ∨ e = r := by
  cases identity_of_identity? h with
  | zeroMul | mulZero | zeroDiv => exact Or.inl ⟨0.0, rfl⟩
  | onePow | powZero => exact Or.inl ⟨1.0, rfl⟩
  | addZero | subZero | mulOne | divOne | powOne => exact Or.inr (Or.inl rfl)
  | zeroAdd | zeroSub | oneMul => exact Or.inr (Or.inr rfl)

/-- **What the rules put in the place of a node** is a number or one of the operands. -/
theorem joined?_eq_some {op : Op} {l r e : Expr} (h : joined? op l r = .ok (some e)) :
    (∃ v, e = .num v) ∨ e = l ∨ e = r := by
  unfold joined? at h
  split at h
  · split at h
    · simp only [Except.ok.injEq, Option.some.injEq] at h
      exact Or.inl ⟨_, h.symm⟩
    · simp at h
  · split at h
    · rename_i hid
      rw [Except.ok.injEq] at h
      exact identity?_eq_some (h ▸ hid)
    · simp at h

/-- A call with a special value has one argument, and the rule of the function gives the value. -/
theorem specialValue?_eq_some {f : String} {args : List Expr} {v : Float}
    (h : specialValue? f args = .ok (some v)) :
    ∃ value a, specialRule? f = some value ∧ args = [a] ∧ value a = some v := by
  unfold specialValue? at h
  split at h
  · simp at h
  · rename_i value hrule
    rcases args with _ | ⟨a, _ | ⟨b, args⟩⟩
    · simp at h
    · exact ⟨value, a, hrule, rfl, by simpa using h⟩
    · simp at h

/-- A function call has a normal form that is a number, or the call itself. -/
theorem calledForm_eq_ok {f : String} {args : List Expr} {u : Expr}
    (h : calledForm f args = .ok u) :
    (∃ v, specialValue? f args = .ok (some v) ∧ u = .num v) ∨
      specialValue? f args = .ok none ∧ u = .func f args := by
  unfold calledForm at h
  split at h
  · simp at h
  · rename_i hnone
    exact Or.inr ⟨hnone, by simpa using h.symm⟩
  · rename_i v hsome
    exact Or.inl ⟨v, hsome, by simpa using h.symm⟩

/-- Two operands have a normal form that is a number or one of them, or the operator itself. -/
theorem joinedForm_eq_ok {op : Op} {l r u : Expr} (h : joinedForm op l r = .ok u) :
    (joined? op l r = .ok (some u) ∧ ((∃ v, u = .num v) ∨ u = l ∨ u = r)) ∨
      joined? op l r = .ok none ∧ u = .bin op l r := by
  unfold joinedForm at h
  split at h
  · simp at h
  · rename_i hnone
    exact Or.inr ⟨hnone, by simpa using h.symm⟩
  · rename_i e hsome
    have he : e = u := by simpa using h
    subst he
    exact Or.inl ⟨hsome, joined?_eq_some hsome⟩

/-- A call fails only by the number of its arguments. -/
theorem calledForm_eq_error {f : String} {args : List Expr} {x : ReduceError}
    (h : calledForm f args = .error x) :
    args.length ≠ 1 ∧ x = .evaluation (.wrongArity f args.length) := by
  unfold calledForm specialValue? at h
  cases hrule : specialRule? f with
  | none => simp [hrule] at h
  | some value =>
    rcases args with _ | ⟨a, _ | ⟨b, args⟩⟩
    · simpa [hrule, eq_comm] using h
    · cases hvalue : value a <;> simp [hrule, hvalue] at h
    · simpa [hrule, eq_comm] using h

/-- An identity fails only at a division by the number zero. -/
theorem identity?_eq_error {op : Op} {l r : Expr} {x : EvalError}
    (h : identity? op l r = .error x) :
    x = .divisionByZero ∧ op = .div ∧ r.isNumber 0.0 = true := by
  cases op with
  | add | sub | mul | div | pow =>
    simp only [identity?] at h
    repeat' split at h
    all_goals simp_all
  | other s => simp [identity?] at h

/-- Folding fails only for a foreign operator. -/
theorem apply_eq_error {op : Op} {a b : Float} {m : Malformed} (h : op.apply a b = .error m) :
    ∃ s, op = .other s ∧ m = .unknownOperator s := by
  cases op with
  | other s => exact ⟨s, rfl, by simpa [Op.apply, eq_comm] using h⟩
  | add | sub | mul | div | pow => simp [Op.apply] at h

/-- Two operands fail only at a division of something that is no number by the number zero, or by
a foreign operator. -/
theorem joinedForm_eq_error {op : Op} {l r : Expr} {x : ReduceError}
    (h : joinedForm op l r = .error x) :
    (x = .evaluation .divisionByZero ∧ op = .div ∧ (∀ v, l ≠ .num v) ∧ r.isNumber 0.0 = true) ∨
      ∃ s, op = .other s ∧ x = .malformed (.unknownOperator s) := by
  have hjoin : joined? op l r = .error x := by
    unfold joinedForm at h
    split at h <;> simp_all
  unfold joined? at hjoin
  split at hjoin
  · split at hjoin
    · simp at hjoin
    · rename_i m happly
      obtain ⟨s, hs, rfl⟩ := apply_eq_error happly
      exact Or.inr ⟨s, hs, by simpa [eq_comm] using hjoin⟩
  · rename_i hfold
    split at hjoin
    · simp at hjoin
    · rename_i y hid
      obtain ⟨rfl, hdiv, hzero⟩ := identity?_eq_error hid
      refine Or.inl ⟨by simpa [eq_comm] using hjoin, hdiv, ?_, hzero⟩
      rintro v rfl
      cases r with
      | num w => exact hfold v w rfl rfl
      | const | var | func | bin | hole => cases hzero

end Reduction

open Reduction

namespace Expr

/-! ## 2. One walk -/

mutual
/-- The normal form of an expression: operands first, from left to right, then the rules, once at
each node.  The first error on the way is the answer. -/
def normal : Expr → Except ReduceError Expr
  | func f args => do
    let args' ← normalAll args
    calledForm f args'
  | bin op l r => do
    let l' ← l.normal
    let r' ← r.normal
    joinedForm op l' r'
  | hole => .error (.malformed .missing)
  | num v => .ok (.num v)
  | const c => .ok (.const c)
  | var x => .ok (.var x)

/-- The normal forms of several expressions, from left to right. -/
def normalAll : List Expr → Except ReduceError (List Expr)
  | [] => .ok []
  | e :: es => do
    let e' ← e.normal
    let es' ← normalAll es
    return e' :: es'
end

mutual
/-- No rule applies at any depth. -/
def isNormal : Expr → Bool
  | func f args => isNormalAll args && isUnruled (specialValue? f args)
  | bin op l r => l.isNormal && r.isNormal && isUnruled (joined? op l r)
  | hole => false
  | num _ | const _ | var _ => true

/-- No rule applies at any depth in any of several expressions. -/
def isNormalAll : List Expr → Bool
  | [] => true
  | e :: es => e.isNormal && isNormalAll es
end

mutual
/-- What is left of an expression that is simplified in place. -/
def remains : Expr → Expr
  | func f args => func f (remainsAll args)
  | bin op l r =>
    match l.normal, r.normal with
    | .error _, _ => bin op l.remains r
    | .ok l', .error _ => bin op l' r.remains
    | .ok l', .ok r' => bin op l' r'
  | e => e

/-- What is left of several expressions that are simplified in place, up to the first error. -/
def remainsAll : List Expr → List Expr
  | [] => []
  | e :: es =>
    match e.normal with
    | .error _ => e.remains :: es
    | .ok e' => e' :: remainsAll es
end

example : (bin .add (var "x") (bin .sub (num 2) (num 2))).isNormal = false := by decide +kernel

theorem isNormal_func_iff {f : String} {args : List Expr} :
    (func f args).isNormal = true ↔
      isNormalAll args = true ∧ specialValue? f args = .ok none := by
  rw [isNormal, Bool.and_eq_true, isUnruled_iff]

theorem isNormal_bin_iff {op : Op} {l r : Expr} :
    (bin op l r).isNormal = true ↔
      l.isNormal = true ∧ r.isNormal = true ∧ joined? op l r = .ok none := by
  rw [isNormal, Bool.and_eq_true, Bool.and_eq_true, isUnruled_iff, and_assoc]

/-! ## 3. Success, node by node -/

theorem normalAll_cons_eq_ok {e : Expr} {es us : List Expr} :
    normalAll (e :: es) = .ok us ↔
      ∃ u us', e.normal = .ok u ∧ normalAll es = .ok us' ∧ us = u :: us' := by
  rw [normalAll]
  cases e.normal with
  | error x => simp [bind, Except.bind]
  | ok u =>
    cases normalAll es with
    | error x => simp [bind, Except.bind]
    | ok us' => simp [bind, Except.bind, pure, Except.pure, eq_comm]

/-- Several expressions have normal forms when each of them has one. -/
theorem normalAll_eq_ok_iff {es us : List Expr} :
    normalAll es = .ok us ↔ List.Forall₂ (fun e u => e.normal = .ok u) es us := by
  induction es generalizing us with
  | nil => simp [normalAll, eq_comm]
  | cons e es ih =>
    rw [normalAll_cons_eq_ok, List.forall₂_cons_left_iff]
    constructor
    · rintro ⟨u, us', hu, hus', rfl⟩
      exact ⟨u, us', hu, ih.mp hus', rfl⟩
    · rintro ⟨u, us', hu, hus', rfl⟩
      exact ⟨u, us', hu, ih.mpr hus', rfl⟩

/-- Each of several expressions that have normal forms has one. -/
theorem exists_normal_of_mem {es us : List Expr} (h : normalAll es = .ok us) {e : Expr}
    (he : e ∈ es) : ∃ u, e.normal = .ok u := by
  have heach : List.Forall₂ (fun d u => (∃ v, d.normal = .ok v) ∧ d.normal = .ok u) es us :=
    (normalAll_eq_ok_iff.mp h).imp fun d u hd => ⟨⟨u, hd⟩, hd⟩
  exact ((List.forall₂_and_left es us).mp heach).1 e he

theorem normal_func_eq_ok {f : String} {args : List Expr} {u : Expr} :
    (func f args).normal = .ok u ↔
      ∃ args', normalAll args = .ok args' ∧ calledForm f args' = .ok u := by
  rw [normal]
  cases normalAll args with
  | error x => simp [bind, Except.bind]
  | ok args' => simp [bind, Except.bind]

theorem normal_bin_eq_ok {op : Op} {l r u : Expr} :
    (bin op l r).normal = .ok u ↔
      ∃ l' r', l.normal = .ok l' ∧ r.normal = .ok r' ∧ joinedForm op l' r' = .ok u := by
  rw [normal]
  cases l.normal with
  | error x => simp [bind, Except.bind]
  | ok l' =>
    cases r.normal with
    | error x => simp [bind, Except.bind]
    | ok r' => simp [bind, Except.bind]

/-! ## 4. Failure, node by node -/

theorem normalAll_cons_eq_error {e : Expr} {es : List Expr} {x : ReduceError} :
    normalAll (e :: es) = .error x ↔
      e.normal = .error x ∨ ∃ u, e.normal = .ok u ∧ normalAll es = .error x := by
  rw [normalAll]
  cases e.normal with
  | error y => simp [bind, Except.bind]
  | ok u =>
    cases normalAll es with
    | error y => simp [bind, Except.bind]
    | ok us => simp [bind, Except.bind, pure, Except.pure]

theorem normal_func_eq_error {f : String} {args : List Expr} {x : ReduceError} :
    (func f args).normal = .error x ↔
      normalAll args = .error x ∨
        ∃ args', normalAll args = .ok args' ∧ calledForm f args' = .error x := by
  rw [normal]
  cases normalAll args with
  | error y => simp [bind, Except.bind]
  | ok args' => simp [bind, Except.bind]

theorem normal_bin_eq_error {op : Op} {l r : Expr} {x : ReduceError} :
    (bin op l r).normal = .error x ↔
      l.normal = .error x ∨ (∃ l', l.normal = .ok l' ∧ r.normal = .error x) ∨
        ∃ l' r', l.normal = .ok l' ∧ r.normal = .ok r' ∧ joinedForm op l' r' = .error x := by
  rw [normal]
  cases l.normal with
  | error y => simp [bind, Except.bind]
  | ok l' =>
    cases r.normal with
    | error y => simp [bind, Except.bind]
    | ok r' => simp [bind, Except.bind]

theorem normalAll_eq_error {es : List Expr} {x : ReduceError} (h : normalAll es = .error x) :
    ∃ e ∈ es, e.normal = .error x := by
  induction es with
  | nil => simp [normalAll] at h
  | cons e es ih =>
    rcases normalAll_cons_eq_error.mp h with hx | ⟨-, -, hx⟩
    · exact ⟨e, List.mem_cons_self, hx⟩
    · obtain ⟨d, hd, hdx⟩ := ih hx
      exact ⟨d, List.mem_cons_of_mem e hd, hdx⟩

/-- What a walk over `e` can fail with: a division by the number zero, a call with the wrong number
of arguments, a foreign operator between numbers, or a hole if there is one. -/
def FailsOn (e : Expr) (x : ReduceError) : Prop :=
  x = .evaluation .divisionByZero ∨ (∃ f n, x = .evaluation (.wrongArity f n)) ∨
    (∃ s, x = .malformed (.unknownOperator s)) ∨ (x = .malformed .missing ∧ hole ∈ e.parts)

/-- What fails on a part fails on the whole. -/
theorem FailsOn.mono {d e : Expr} {x : ReduceError} (h : d.FailsOn x)
    (hparts : ∀ p ∈ d.parts, p ∈ e.parts) : e.FailsOn x := by
  rcases h with hx | hx | hx | ⟨hx, hhole⟩
  · exact Or.inl hx
  · exact Or.inr (Or.inl hx)
  · exact Or.inr (Or.inr (Or.inl hx))
  · exact Or.inr (Or.inr (Or.inr ⟨hx, hparts hole hhole⟩))

/-- **A walk fails with nothing else.**  In particular it has no passes to use up. -/
theorem normal_eq_error {e : Expr} {x : ReduceError} (h : e.normal = .error x) :
    e.FailsOn x := by
  induction e using induct with
  | num v | const c | var y => simp [normal] at h
  | hole =>
    obtain rfl := by simpa [normal, eq_comm] using h
    exact Or.inr (Or.inr (Or.inr ⟨rfl, mem_parts_self hole⟩))
  | func f args ih =>
    rcases normal_func_eq_error.mp h with hargs | ⟨args', -, hcall⟩
    · obtain ⟨a, ha, hax⟩ := normalAll_eq_error hargs
      exact (ih a ha hax).mono fun p hp => mem_parts_func.mpr (Or.inr ⟨a, ha, hp⟩)
    · exact Or.inr (Or.inl ⟨f, args'.length, (calledForm_eq_error hcall).2⟩)
  | bin op l r ihl ihr =>
    rcases normal_bin_eq_error.mp h with hl | ⟨l', -, hr⟩ | ⟨l', r', -, -, hjoin⟩
    · exact (ihl hl).mono fun p hp => mem_parts_bin.mpr (Or.inr (Or.inl hp))
    · exact (ihr hr).mono fun p hp => mem_parts_bin.mpr (Or.inr (Or.inr hp))
    · rcases joinedForm_eq_error hjoin with ⟨hx, -⟩ | ⟨s, -, hx⟩
      · exact Or.inl hx
      · exact Or.inr (Or.inr (Or.inl ⟨s, hx⟩))

/-! ## 5. Normal forms are normal -/

theorem isNormalAll_of_normalAll {es : List Expr} :
    (∀ e ∈ es, ∀ u, e.normal = .ok u → u.isNormal = true) →
      ∀ {us}, normalAll es = .ok us → isNormalAll us = true := by
  induction es with
  | nil =>
    intro _ us h
    obtain rfl : us = [] := by simpa [normalAll, eq_comm] using h
    rfl
  | cons e es ih =>
    intro hall us h
    obtain ⟨u, us', hu, hus', rfl⟩ := normalAll_cons_eq_ok.mp h
    have head : u.isNormal = true := hall e List.mem_cons_self u hu
    have tail : isNormalAll us' = true := ih (fun d hd => hall d (List.mem_cons_of_mem e hd)) hus'
    rw [isNormalAll, head, tail, Bool.and_self]

/-- **The normal form is normal.**  The operands of a node are normal when its rules are applied,
and what replaces the node is a number or one of them, so no rule applies to it. -/
theorem isNormal_of_normal {e u : Expr} (h : e.normal = .ok u) : u.isNormal = true := by
  induction e using induct generalizing u with
  | num v | const c | var x =>
    obtain rfl := by simpa [normal] using h
    rfl
  | hole => simp [normal] at h
  | func f args ih =>
    obtain ⟨args', hargs, hcall⟩ := normal_func_eq_ok.mp h
    have hargs' : isNormalAll args' = true :=
      isNormalAll_of_normalAll (fun a ha u hu => ih a ha hu) hargs
    rcases calledForm_eq_ok hcall with ⟨v, -, rfl⟩ | ⟨hnone, rfl⟩
    · rfl
    · exact isNormal_func_iff.mpr ⟨hargs', hnone⟩
  | bin op l r ihl ihr =>
    obtain ⟨l', r', hl, hr, hjoin⟩ := normal_bin_eq_ok.mp h
    rcases joinedForm_eq_ok hjoin with ⟨-, ⟨v, rfl⟩ | rfl | rfl⟩ | ⟨hnone, rfl⟩
    · rfl
    · exact ihl hl
    · exact ihr hr
    · exact isNormal_bin_iff.mpr ⟨ihl hl, ihr hr, hnone⟩

theorem normalAll_of_isNormalAll {es : List Expr} :
    (∀ e ∈ es, e.isNormal = true → e.normal = .ok e) → isNormalAll es = true →
      normalAll es = .ok es := by
  induction es with
  | nil => intro _ _; rfl
  | cons e es ih =>
    intro hall h
    rw [isNormalAll, Bool.and_eq_true] at h
    have head : e.normal = .ok e := hall e List.mem_cons_self h.1
    have tail : normalAll es = .ok es := ih (fun d hd => hall d (List.mem_cons_of_mem e hd)) h.2
    exact normalAll_cons_eq_ok.mpr ⟨e, es, head, tail, rfl⟩

/-- **A normal expression is its own normal form.** -/
theorem normal_of_isNormal {e : Expr} (h : e.isNormal = true) : e.normal = .ok e := by
  induction e using induct with
  | num v | const c | var x => rfl
  | hole => simp [isNormal] at h
  | func f args ih =>
    obtain ⟨hargs, hnone⟩ := isNormal_func_iff.mp h
    refine normal_func_eq_ok.mpr ⟨args, normalAll_of_isNormalAll ih hargs, ?_⟩
    rw [calledForm, hnone]
  | bin op l r ihl ihr =>
    obtain ⟨hl, hr, hnone⟩ := isNormal_bin_iff.mp h
    refine normal_bin_eq_ok.mpr ⟨l, r, ihl hl, ihr hr, ?_⟩
    rw [joinedForm, hnone]

/-- A node whose rules leave it alone is as normal as its arguments. -/
theorem isNormal_func_of_unruled {f : String} {args us : List Expr}
    (hargs : normalAll args = .ok us) (h : specialValue? f us = .ok none) :
    (func f args).isNormal = isNormalAll args := by
  cases hall : isNormalAll args with
  | false => rw [isNormal, hall, Bool.false_and]
  | true =>
    have hself : normalAll args = .ok args :=
      normalAll_of_isNormalAll (fun _ _ => normal_of_isNormal) hall
    obtain rfl : args = us := by simpa [hself] using hargs
    exact isNormal_func_iff.mpr ⟨hall, h⟩

/-- A node whose rules leave it alone is as normal as its operands. -/
theorem isNormal_bin_of_unruled {op : Op} {l r l' r' : Expr} (hl : l.normal = .ok l')
    (hr : r.normal = .ok r') (h : joined? op l' r' = .ok none) :
    (bin op l r).isNormal = (l.isNormal && r.isNormal) := by
  cases hnl : l.isNormal with
  | false => simp only [isNormal, hnl, Bool.false_and]
  | true =>
    cases hnr : r.isNormal with
    | false => simp only [isNormal, hnl, hnr, Bool.and_false, Bool.false_and]
    | true =>
      obtain rfl : l = l' := by simpa [normal_of_isNormal hnl] using hl
      obtain rfl : r = r' := by simpa [normal_of_isNormal hnr] using hr
      exact isNormal_bin_iff.mpr ⟨hnl, hnr, h⟩

/-- An expression that another one replaces is not normal. -/
theorem isNormal_eq_false {e u : Expr} (h : e.normal = .ok u) (hne : u ≠ e) :
    e.isNormal = false := by
  rw [← Bool.not_eq_true]
  intro htrue
  have hself : e.normal = .ok e := normal_of_isNormal htrue
  exact hne (by simpa [hself, eq_comm] using h)

/-! ## 6. Normal forms are not higher -/

theorem heightAll_normalAll_le {es : List Expr} :
    (∀ e ∈ es, ∀ u, e.normal = .ok u → u.height ≤ e.height) →
      ∀ {us}, normalAll es = .ok us → heightAll us ≤ heightAll es := by
  induction es with
  | nil =>
    intro _ us h
    obtain rfl : us = [] := by simpa [normalAll, eq_comm] using h
    exact Nat.le_refl _
  | cons e es ih =>
    intro hall us h
    obtain ⟨u, us', hu, hus', rfl⟩ := normalAll_cons_eq_ok.mp h
    have head : u.height ≤ e.height := hall e List.mem_cons_self u hu
    have tail : heightAll us' ≤ heightAll es :=
      ih (fun d hd => hall d (List.mem_cons_of_mem e hd)) hus'
    simp only [heightAll]
    omega

/-- The normal form is not higher than the expression. -/
theorem height_normal_le {e u : Expr} (h : e.normal = .ok u) : u.height ≤ e.height := by
  induction e using induct generalizing u with
  | num v | const c | var x =>
    obtain rfl := by simpa [normal] using h
    exact Nat.le_refl _
  | hole => simp [normal] at h
  | func f args ih =>
    obtain ⟨args', hargs, hcall⟩ := normal_func_eq_ok.mp h
    have hheight : heightAll args' ≤ heightAll args :=
      heightAll_normalAll_le (fun a ha u hu => ih a ha hu) hargs
    rcases calledForm_eq_ok hcall with ⟨v, -, rfl⟩ | ⟨-, rfl⟩
    · simp only [height]; omega
    · simp only [height]; omega
  | bin op l r ihl ihr =>
    obtain ⟨l', r', hl, hr, hjoin⟩ := normal_bin_eq_ok.mp h
    have hl' : l'.height ≤ l.height := ihl hl
    have hr' : r'.height ≤ r.height := ihr hr
    rcases joinedForm_eq_ok hjoin with ⟨-, ⟨v, rfl⟩ | rfl | rfl⟩ | ⟨-, rfl⟩
    all_goals simp only [height]; omega

/-- What the rules put in the place of an operator is lower than the operator was. -/
theorem ne_bin_of_joined? {op : Op} {l r l' r' e : Expr} (hl : l.normal = .ok l')
    (hr : r.normal = .ok r') (h : joined? op l' r' = .ok (some e)) : e ≠ bin op l r := by
  have hlower : e.height < (bin op l r).height := by
    have hl' : l'.height ≤ l.height := height_normal_le hl
    have hr' : r'.height ≤ r.height := height_normal_le hr
    have hpos : 0 < l.height := height_pos l
    rcases joined?_eq_some h with ⟨v, rfl⟩ | rfl | rfl
    all_goals simp only [height]; omega
  rintro rfl
  exact Nat.lt_irrefl _ hlower

/-! ## 7. What is left in place -/

/-- On success the arguments that are left are the normal forms. -/
theorem remainsAll_of_normalAll {es us : List Expr} (h : normalAll es = .ok us) :
    remainsAll es = us := by
  induction es generalizing us with
  | nil => simpa [normalAll, remainsAll] using h
  | cons e es ih =>
    obtain ⟨u, us', hu, hus', rfl⟩ := normalAll_cons_eq_ok.mp h
    simp only [remainsAll, hu, ih hus']

/-- On success the operands that are left are the normal forms. -/
theorem remains_bin_of_normal {op : Op} {l r l' r' : Expr} (hl : l.normal = .ok l')
    (hr : r.normal = .ok r') : (bin op l r).remains = bin op l' r' := by
  simp only [remains, hl, hr]

/-- Nothing changes in a normal expression. -/
theorem remains_of_isNormal {e : Expr} (h : e.isNormal = true) : e.remains = e := by
  cases e with
  | num v | const c | var x => rfl
  | hole => rfl
  | func f args =>
    have hargs : isNormalAll args = true := (isNormal_func_iff.mp h).1
    have hnormal : normalAll args = .ok args :=
      normalAll_of_isNormalAll (fun _ _ => normal_of_isNormal) hargs
    rw [remains, remainsAll_of_normalAll hnormal]
  | bin op l r =>
    obtain ⟨hl, hr, -⟩ := isNormal_bin_iff.mp h
    exact remains_bin_of_normal (normal_of_isNormal hl) (normal_of_isNormal hr)

/-! ## 8. Nodes of the normal form -/

/-- A condition on single nodes.  It holds of every number, and whether it holds of another node
depends on how many operands the node has, but not on the operands. -/
structure OfNodes (N : Expr → Prop) : Prop where
  num : ∀ v, N (num v)
  func : ∀ {f as bs}, as.length = bs.length → N (func f as) → N (func f bs)
  bin : ∀ {op l r l' r'}, N (bin op l r) → N (bin op l' r')

/-- **What holds of every node of an expression holds of every node of its normal form.** -/
theorem OfNodes.forall_parts_normal {N : Expr → Prop} (hN : OfNodes N) {e u : Expr}
    (h : e.normal = .ok u) (he : ∀ p ∈ e.parts, N p) : ∀ p ∈ u.parts, N p := by
  have number : ∀ v, ∀ p ∈ (Expr.num v).parts, N p := by
    intro v p hp
    rw [mem_parts_num.mp hp]
    exact hN.num v
  induction e using induct generalizing u with
  | num v | const c | var x =>
    obtain rfl := by simpa [normal] using h
    exact he
  | hole => simp [normal] at h
  | func f args ih =>
    obtain ⟨args', hargs, hcall⟩ := normal_func_eq_ok.mp h
    rcases calledForm_eq_ok hcall with ⟨v, -, rfl⟩ | ⟨-, rfl⟩
    · exact number v
    · have hall := normalAll_eq_ok_iff.mp hargs
      obtain ⟨hroot, hbelow⟩ := forall_parts_func.mp he
      refine forall_parts_func.mpr ⟨hN.func hall.length_eq hroot, fun a' ha' => ?_⟩
      obtain ⟨i, hi, rfl⟩ := List.getElem_of_mem ha'
      have hi' : i < args.length := hall.length_eq ▸ hi
      have hmem : args[i] ∈ args := List.getElem_mem hi'
      exact ih _ hmem (hall.get hi' hi) (hbelow _ hmem)
  | bin op l r ihl ihr =>
    obtain ⟨l', r', hl, hr, hjoin⟩ := normal_bin_eq_ok.mp h
    obtain ⟨hroot, hleft, hright⟩ := forall_parts_bin.mp he
    have left := ihl hl hleft
    have right := ihr hr hright
    rcases joinedForm_eq_ok hjoin with ⟨-, ⟨v, rfl⟩ | rfl | rfl⟩ | ⟨-, rfl⟩
    · exact number v
    · exact left
    · exact right
    · exact forall_parts_bin.mpr ⟨hN.bin hroot, left, right⟩

/-- **The normal form of a proper expression is proper.** -/
theorem proper_of_normal {e u : Expr} (he : e.Proper) (h : e.normal = .ok u) : u.Proper := by
  have known : OfNodes fun p => ∀ op l r, p = bin op l r → op.isKnown = true :=
    ⟨by simp, by simp, fun {op l r l' r'} hop op' a b hroot => by
      obtain ⟨rfl, -, -⟩ := Expr.bin.inj hroot
      exact hop op l r rfl⟩
  have filled : OfNodes (· ≠ hole) := ⟨by simp, by simp, by simp⟩
  constructor
  · intro op l r hp
    refine known.forall_parts_normal h (fun p hp op l r hroot => ?_) _ hp op l r rfl
    exact he.known op l r (hroot ▸ hp)
  · intro hhole
    exact filled.forall_parts_normal h (fun p hp hroot => he.complete (hroot ▸ hp)) _ hhole rfl

end Expr

end Fluxion
