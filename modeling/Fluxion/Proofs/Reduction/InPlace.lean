/-
# What simplification leaves behind

A simplification works on the caller's expression.  `Passes.lean` says what is left of it as a
function (`Expr.remains`).  This file says the same from outside, by what simplification answers
for the single operands.

* After a success the root stands, and under it the forms that its operands simplify to.
* After an error the expression is the old one up to the place of the error (`StopsAt`).  Operands
  are finished from left to right, so what stands before that place is simplified, what stands
  behind it is as it was, and on the way down to it every node keeps its kind and its name.

In both cases the work that was done is not done again: what is left has the same normal form, or
the same error, as the expression had, and simplifying it leaves it as it is (`remains_spec`).  So
a second call repeats the answer of the first (`source_of_call`).
-/
import Fluxion.Proofs.Reduction.Passes

namespace Fluxion

open Reduction

namespace Expr

/-! ## 1. What is left, seen from outside -/

/-- Simplified on its own, `d` gives `d'`. -/
def SimplifiesTo (cap : Int) (d d' : Expr) : Prop :=
  ∃ changed, (d.reduce cap none).answer = .ok (d', changed)

/-- What the rules make of a node whose operands are simplified. -/
def ruled : Expr → Except ReduceError Expr
  | func f args => calledForm f args
  | bin op l r => joinedForm op l r
  | hole => .error (.malformed .missing)
  | e => .ok e

/-- `StopsAt cap e x s`: the first error on the way through `e`, operands before their node and
from left to right, is `x`, and `s` is `e` with everything simplified that comes before it. -/
inductive StopsAt (cap : Int) : Expr → ReduceError → Expr → Prop
  /-- The rules fail at the root, over operands that are simplified. -/
  | root {e : Expr} {us : List Expr} {x : ReduceError} :
      List.Forall₂ (SimplifiesTo cap) e.operands us → (e.withOperands us).ruled = .error x →
        StopsAt cap e x (e.withOperands us)
  /-- The error is inside an operand: those before it are simplified, those after it are not
  touched. -/
  | operand {e d d' : Expr} {before after before' : List Expr} {x : ReduceError} :
      e.operands = before ++ d :: after → List.Forall₂ (SimplifiesTo cap) before before' →
        StopsAt cap d x d' → StopsAt cap e x (e.withOperands (before' ++ d' :: after))

/-- A call that simplifies `e`, in one pass or up to a fixed point. -/
inductive Call (cap : Int) (e : Expr) : Run → Prop
  | once : Call cap e (e.reduceOnce cap)
  | repeated (passes : Option Int) : (∀ n ∈ passes, 2 ≤ n) → Call cap e (e.reduce cap passes)

/-! ## 2. Calls and normal forms -/

/-- **A single pass** over an expression, in which every nested simplification may make two. -/
theorem reduceOnce_settles {cap : Int} (hcap : 2 ≤ cap) (e : Expr) :
    (e.reduceOnce cap).Settles e := by
  obtain ⟨houtcome, hsource, hlog⟩ : (e.firstPass cap).Settles e :=
    pass_settles (fun d hd => reduceWithin_settles hcap hd) (Nat.le_succ _)
  refine ⟨?_, hsource, hlog⟩
  unfold reduceOnce
  generalize e.firstPass cap = p at houtcome hsource hlog
  obtain ⟨outcome, source, log⟩ := p
  obtain rfl : source = e.remains := hsource
  cases houtcome with
  | failed hx => rw [hx]; rfl
  | kept hkept => rw [hkept]; rfl
  | replaced hu changed => rw [hu, changed]; rfl

/-- Every call settles the expression. -/
theorem Call.settles {cap : Int} (hcap : 2 ≤ cap) {e : Expr} {run : Run} (h : Call cap e run) :
    run.Settles e := by
  cases h with
  | once => exact reduceOnce_settles hcap e
  | repeated passes hpasses => exact reduce_settles hcap hpasses e

/-- What an expression simplifies to is its normal form. -/
theorem simplifiesTo_iff {cap : Int} (hcap : 2 ≤ cap) {d d' : Expr} :
    SimplifiesTo cap d d' ↔ d.normal = .ok d' := by
  have hanswer (changed : Bool) : (d.reduce cap none).answer = .ok (d', changed) ↔
      d.normal = .ok d' ∧ changed = !d.isNormal := answer_eq_ok_iff hcap (by simp)
  constructor
  · rintro ⟨changed, h⟩
    exact ((hanswer changed).mp h).1
  · intro hnormal
    exact ⟨_, (hanswer _).mpr ⟨hnormal, rfl⟩⟩

/-! ## 3. After a success -/

theorem forall₂_of_normalAll {cap : Int} (hcap : 2 ≤ cap) {es us : List Expr}
    (h : normalAll es = .ok us) : List.Forall₂ (SimplifiesTo cap) es us :=
  (normalAll_eq_ok_iff.mp h).imp fun _ _ hu => (simplifiesTo_iff hcap).mpr hu

/-- **After a success** the root stands over what its operands simplify to. -/
theorem remains_of_normal {cap : Int} (hcap : 2 ≤ cap) {e u : Expr} (h : e.normal = .ok u) :
    ∃ us, List.Forall₂ (SimplifiesTo cap) e.operands us ∧ e.remains = e.withOperands us := by
  cases e with
  | num v | const c | var x => exact ⟨[], .nil, rfl⟩
  | hole => simp [normal] at h
  | func f args =>
    obtain ⟨us, hus, -⟩ := normal_func_eq_ok.mp h
    refine ⟨us, forall₂_of_normalAll hcap hus, ?_⟩
    rw [remains, remainsAll_of_normalAll hus, withOperands]
  | bin op l r =>
    obtain ⟨l', r', hl, hr, -⟩ := normal_bin_eq_ok.mp h
    have hl' : SimplifiesTo cap l l' := (simplifiesTo_iff hcap).mpr hl
    have hr' : SimplifiesTo cap r r' := (simplifiesTo_iff hcap).mpr hr
    exact ⟨[l', r'], .cons hl' (.cons hr' .nil), remains_bin_of_normal hl hr⟩

/-! ## 4. After an error -/

/-- Where the walk through several expressions stops. -/
theorem split_of_normalAll_eq_error {cap : Int} (hcap : 2 ≤ cap) {es : List Expr}
    {x : ReduceError} (h : normalAll es = .error x) :
    ∃ before d after before', es = before ++ d :: after ∧
      List.Forall₂ (SimplifiesTo cap) before before' ∧ d.normal = .error x ∧
      remainsAll es = before' ++ d.remains :: after := by
  induction es with
  | nil => simp [normalAll] at h
  | cons e es ih =>
    rcases normalAll_cons_eq_error.mp h with he | ⟨u, hu, hes⟩
    · refine ⟨[], e, es, [], rfl, .nil, he, ?_⟩
      simp only [remainsAll, he, List.nil_append]
    · obtain ⟨before, d, after, before', rfl, hbefore, hd, hremains⟩ := ih hes
      refine ⟨e :: before, d, after, u :: before', rfl, ?_, hd, ?_⟩
      · exact .cons ((simplifiesTo_iff hcap).mpr hu) hbefore
      · simp only [remainsAll, hu, hremains, List.cons_append]

/-- **After an error** the expression is simplified up to the place of the error. -/
theorem stopsAt_of_normal {cap : Int} (hcap : 2 ≤ cap) {e : Expr} {x : ReduceError}
    (h : e.normal = .error x) : StopsAt cap e x e.remains := by
  induction e using induct with
  | num v | const c | var y => simp [normal] at h
  | hole =>
    have hstops : StopsAt cap hole x (hole.withOperands []) := .root .nil h
    exact hstops
  | func f args ih =>
    rcases normal_func_eq_error.mp h with hargs | ⟨us, hus, hcall⟩
    · obtain ⟨before, d, after, before', rfl, hbefore, hd, hremains⟩ :=
        split_of_normalAll_eq_error hcap hargs
      rw [remains, hremains]
      exact .operand rfl hbefore (ih d (by simp) hd)
    · rw [remains, remainsAll_of_normalAll hus]
      exact .root (forall₂_of_normalAll hcap hus) hcall
  | bin op l r ihl ihr =>
    rcases normal_bin_eq_error.mp h with hl | ⟨l', hl, hr⟩ | ⟨l', r', hl, hr, hjoin⟩
    · have hremains : (bin op l r).remains =
          (bin op l r).withOperands ([] ++ l.remains :: [r]) := by
        simp only [remains, hl, withOperands, List.nil_append]
      rw [hremains]
      exact .operand rfl .nil (ihl hl)
    · have hremains : (bin op l r).remains =
          (bin op l r).withOperands ([l'] ++ r.remains :: []) := by
        simp only [remains, hl, hr, withOperands, List.cons_append, List.nil_append]
      have hl' : SimplifiesTo cap l l' := (simplifiesTo_iff hcap).mpr hl
      rw [hremains]
      exact .operand rfl (.cons hl' .nil) (ihr hr)
    · have hremains : (bin op l r).remains = (bin op l r).withOperands [l', r'] :=
        remains_bin_of_normal hl hr
      have hl' : SimplifiesTo cap l l' := (simplifiesTo_iff hcap).mpr hl
      have hr' : SimplifiesTo cap r r' := (simplifiesTo_iff hcap).mpr hr
      rw [hremains]
      exact .root (.cons hl' (.cons hr' .nil)) hjoin

/-! ## 5. A second call -/

/-- A normal form is its own normal form. -/
theorem normal_normal {e u : Expr} (h : e.normal = .ok u) : u.normal = .ok u :=
  normal_of_isNormal (isNormal_of_normal h)

theorem remainsAll_spec {es : List Expr}
    (h : ∀ e ∈ es, e.remains.normal = e.normal ∧ e.remains.remains = e.remains) :
    normalAll (remainsAll es) = normalAll es ∧ remainsAll (remainsAll es) = remainsAll es := by
  induction es with
  | nil => exact ⟨rfl, rfl⟩
  | cons e es ih =>
    obtain ⟨hnormal, hremains⟩ := h e List.mem_cons_self
    obtain ⟨ihnormal, ihremains⟩ := ih fun d hd => h d (List.mem_cons_of_mem e hd)
    cases he : e.normal with
    | error x =>
      rw [he] at hnormal
      simp only [remainsAll, he, normalAll, hnormal, hremains]
      exact ⟨trivial, trivial⟩
    | ok u =>
      simp only [remainsAll, he, normalAll, normal_normal he, ihnormal, ihremains]
      exact ⟨trivial, trivial⟩

/-- **What is left simplifies as the expression did**, to the same form or to the same error, and
is left as it is. -/
theorem remains_spec (e : Expr) :
    e.remains.normal = e.normal ∧ e.remains.remains = e.remains := by
  induction e using induct with
  | num v | const c | var x | hole => exact ⟨rfl, rfl⟩
  | func f args ih =>
    obtain ⟨hnormal, hremains⟩ := remainsAll_spec ih
    simp only [remains, normal, hnormal, hremains]
    exact ⟨trivial, trivial⟩
  | bin op l r ihl ihr =>
    cases hl : l.normal with
    | error x =>
      simp only [remains, normal, hl, ihl.1, ihl.2]
      exact ⟨trivial, trivial⟩
    | ok l' =>
      cases hr : r.normal with
      | error x =>
        simp only [remains, normal, hl, hr, normal_normal hl, ihr.1, ihr.2]
        exact ⟨trivial, trivial⟩
      | ok r' =>
        simp only [remains, normal, hl, hr, normal_normal hl, normal_normal hr]
        exact ⟨trivial, trivial⟩

/-! ## 6. Simplification in place -/

/-- **What a call leaves behind.**  After a success the root stands over what its operands
simplify to on their own.  After an error the expression is simplified up to the place of the
error.  Either way a second call changes nothing in what is left, and gives the same expression
or the same error. -/
theorem source_of_call {cap : Int} (hcap : 2 ≤ cap) {e : Expr} {run : Run}
    (h : Call cap e run) :
    (∀ u changed, run.answer = .ok (u, changed) →
        ∃ us, List.Forall₂ (SimplifiesTo cap) e.operands us ∧ run.source = e.withOperands us) ∧
      (∀ x, run.answer = .error x → StopsAt cap e x run.source) ∧
      ∀ again, Call cap run.source again →
        again.source = run.source ∧ again.answer.map Prod.fst = run.answer.map Prod.fst := by
  have hrun : run.Settles e := h.settles hcap
  obtain ⟨hnormal, hremains⟩ := remains_spec e
  rw [hrun.source]
  refine ⟨?_, ?_, ?_⟩
  · intro u changed hanswer
    cases he : e.normal with
    | error x => simp [hrun.answer_of_error he] at hanswer
    | ok u => exact remains_of_normal hcap he
  · intro x hanswer
    cases he : e.normal with
    | error y =>
      obtain rfl : y = x := by simpa [hrun.answer_of_error he] using hanswer
      exact stopsAt_of_normal hcap he
    | ok u => simp [hrun.answer_of_ok he] at hanswer
  · intro again hagain
    have hsecond : again.Settles e.remains := hagain.settles hcap
    refine ⟨hsecond.source.trans hremains, ?_⟩
    rw [hsecond.answer, hrun.answer, hnormal]
    cases e.normal <;> rfl

/-- In `f(1 * x, 2 * 3 + y / 0, 0 * z)` the first argument is finished, the second is left at the
quotient, and the third is not reached. -/
theorem source_of_call_in_argument :
    let quotient := bin .div (var "y") (num 0.0)
    let last := bin .mul (num 0.0) (var "z")
    let e := func "f" [bin .mul (num 1.0) (var "x"),
      bin .add (bin .mul (num 2.0) (num 3.0)) quotient, last]
    (2 : Int) ≤ 2 ∧ Call 2 e (e.reduce 2 none) ∧
      StopsAt 2 e (.evaluation .divisionByZero)
        (func "f" [var "x", bin .add (num 6.0) quotient, last]) := by
  intro quotient last e
  have hcall : Call 2 e (e.reduce 2 none) := .repeated none (by simp)
  exact ⟨Int.le_refl 2, hcall, (source_of_call (Int.le_refl 2) hcall).2.1 _ rfl⟩

end Expr

end Fluxion
