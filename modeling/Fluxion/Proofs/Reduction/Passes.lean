/-
# Passes and normal forms

A simplification repeats passes, and inside every pass each operand is simplified by passes of
its own.  This file shows that all of it comes to one walk over the expression: whenever at least
two passes are allowed, the answer is `Expr.normal`, and the first or the second pass is the last.

The argument has two halves.

* **One pass.**  If the operands' simplifications do what they should, a pass ends in one of three
  ways (`Expected`): it fails as the walk fails, it replaces the root by the normal form, or it
  keeps the root with normal operands under it (`pass_settles`).
* **The pass after it.**  What the first pass leaves is normal, whether it was put in the place of
  the root or kept, so a second pass finds nothing to do (`pass_of_isNormal`).

The two are put together by induction on the height of the expression (`reduceWithin_settles`).
The records of a run count the passes of every simplification in it, nested ones included.
-/
import Fluxion.Proofs.Reduction.NormalForm

namespace Fluxion

namespace Reduction

open Fluxion.Expr

/-! ## 1. What is to be shown of a run and of a pass -/

/-- Every simplification that the journal records as ended took one or two passes. -/
def AtMostTwoPasses (log : Journal) : Prop :=
  ∀ n, Event.fixedPoint n ∈ log.toList → n = 1 ∨ n = 2

/-- The run is a simplification of `e` as one walk over `e` describes it: the answer is the normal
form and tells whether there was anything to do, and operands are replaced by their normal
forms. -/
structure Run.Settles (run : Run) (e : Expr) : Prop where
  answer : run.answer = e.normal.map fun u => (u, !e.isNormal)
  source : run.source = e.remains
  log : AtMostTwoPasses run.log

/-- How a pass over `e` ends if it simplifies the operands of `e` to normal forms. -/
inductive Expected (e : Expr) : Except ReduceError Change → Prop where
  | failed {x : ReduceError} (h : e.normal = .error x) : Expected e (.error x)
  | kept (h : e.normal = .ok e.remains) : Expected e (.ok (.kept !e.isNormal))
  | replaced {u : Expr} (h : e.normal = .ok u) (changed : e.isNormal = false) :
      Expected e (.ok (.replaced u))

/-- The pass is one over `e` as one walk over `e` describes it. -/
structure Pass.Settles (p : Pass) (e : Expr) : Prop where
  outcome : Expected e p.outcome
  source : p.source = e.remains
  log : AtMostTwoPasses p.log

/-- There is nothing to expect of a pass over a normal expression but that it keeps it. -/
theorem Expected.of_isNormal {u : Expr} {outcome : Except ReduceError Change}
    (h : Expected u outcome) (hnormal : u.isNormal = true) : outcome = .ok (.kept false) := by
  cases h with
  | failed hx => simp [normal_of_isNormal hnormal] at hx
  | kept => rw [hnormal]; rfl
  | replaced _ changed => simp [hnormal] at changed

theorem AtMostTwoPasses.empty : AtMostTwoPasses ∅ := by
  intro n h
  simp at h

theorem AtMostTwoPasses.append {a b : Journal} (ha : AtMostTwoPasses a)
    (hb : AtMostTwoPasses b) : AtMostTwoPasses (a ++ b) := by
  intro n h
  rw [Journal.toList_append, List.mem_append] at h
  exact h.elim (ha n) (hb n)

theorem AtMostTwoPasses.record_specialValue (f : String) (v : Float) :
    AtMostTwoPasses (.record (.specialValue f v)) := by
  intro n h
  simp at h

theorem AtMostTwoPasses.record_fixedPoint {k : Nat} (h : k = 1 ∨ k = 2) :
    AtMostTwoPasses (.record (.fixedPoint k)) := by
  intro n hn
  obtain rfl : n = k := by simpa using hn
  exact h

/-- What a simplification that succeeds answers. -/
theorem Run.Settles.answer_of_ok {run : Run} {e u : Expr} (h : run.Settles e)
    (hu : e.normal = .ok u) : run.answer = .ok (u, !e.isNormal) := by
  rw [h.answer, hu]; rfl

/-- What a simplification that fails answers. -/
theorem Run.Settles.answer_of_error {run : Run} {e : Expr} {x : ReduceError}
    (h : run.Settles e) (hx : e.normal = .error x) : run.answer = .error x := by
  rw [h.answer, hx]; rfl

/-! ## 2. One pass over the operands

`reduce` stands for the simplification of operands. -/

section Pass

variable {reduce : Expr → Run}

/-- A pass over arguments whose simplifications do what they should. -/
theorem passArgs_settles {args : List Expr} (h : ∀ a ∈ args, (reduce a).Settles a) :
    (passArgs reduce args).outcome = (normalAll args).map (fun _ => !isNormalAll args) ∧
      (passArgs reduce args).args = remainsAll args ∧
      AtMostTwoPasses (passArgs reduce args).log := by
  induction args with
  | nil => exact ⟨rfl, rfl, .empty⟩
  | cons a as ih =>
    have ha : (reduce a).Settles a := h a List.mem_cons_self
    obtain ⟨houtcome, hargs, hlog⟩ := ih fun b hb => h b (List.mem_cons_of_mem a hb)
    cases hnormal : a.normal with
    | error x =>
      have hanswer : (reduce a).answer = .error x := ha.answer_of_error hnormal
      simp only [passArgs, hanswer, normalAll, remainsAll, hnormal, ha.source]
      exact ⟨rfl, trivial, ha.log⟩
    | ok u =>
      have hanswer : (reduce a).answer = .ok (u, !a.isNormal) := ha.answer_of_ok hnormal
      simp only [passArgs, hanswer, remainsAll, hnormal, hargs, houtcome]
      refine ⟨?_, trivial, ha.log.append hlog⟩
      rw [normalAll, hnormal]
      cases normalAll as with
      | error x => rfl
      | ok us => simp [isNormalAll, bind, Except.bind, pure, Except.pure, Except.map]

/-- A pass over a function call. -/
theorem passFunc_settles {f : String} {args : List Expr}
    (h : ∀ a ∈ args, (reduce a).Settles a) :
    (passFunc reduce f args).Settles (func f args) := by
  obtain ⟨houtcome, hargs, hlog⟩ := passArgs_settles h
  simp only [passFunc, hargs]
  cases hnormal : normalAll args with
  | error x =>
    rw [hnormal] at houtcome
    have herror : (func f args).normal = .error x := by rw [normal, hnormal]; rfl
    simp only [houtcome, Except.map]
    exact ⟨.failed herror, rfl, hlog⟩
  | ok us =>
    rw [hnormal] at houtcome
    have hremains : remainsAll args = us := remainsAll_of_normalAll hnormal
    have hwalk : (func f args).normal = calledForm f us := by rw [normal, hnormal]; rfl
    simp only [houtcome, Except.map, hremains]
    have hsource : func f us = (func f args).remains := by rw [remains, hremains]
    cases hvalue : specialValue? f us with
    | error x =>
      exact ⟨.failed (by rw [hwalk, calledForm, hvalue]), hsource, hlog⟩
    | ok v? =>
      cases v? with
      | none =>
        have hkept : (func f args).normal = .ok (func f args).remains := by
          rw [hwalk, calledForm, hvalue, hsource]
        have hflag : (func f args).isNormal = isNormalAll args :=
          isNormal_func_of_unruled hnormal hvalue
        exact ⟨hflag ▸ .kept hkept, hsource, hlog⟩
      | some v =>
        have hreplaced : (func f args).normal = .ok (.num v) := by
          rw [hwalk, calledForm, hvalue]
        have hchanged : (func f args).isNormal = false := isNormal_eq_false hreplaced (by simp)
        exact ⟨.replaced hreplaced hchanged, hsource, hlog.append (.record_specialValue f v)⟩

/-- A pass over two operands. -/
theorem passBin_settles {op : Op} {l r : Expr} (hl : (reduce l).Settles l)
    (hr : (reduce r).Settles r) : (passBin reduce op l r).Settles (bin op l r) := by
  unfold passBin
  cases hnl : l.normal with
  | error x =>
    have herror : (bin op l r).normal = .error x := by rw [normal, hnl]; rfl
    simp only [hl.answer_of_error hnl]
    exact ⟨.failed herror, by simp only [remains, hnl, hl.source], hl.log⟩
  | ok l' =>
    simp only [hl.answer_of_ok hnl]
    cases hnr : r.normal with
    | error x =>
      have herror : (bin op l r).normal = .error x := by rw [normal, hnl, hnr]; rfl
      simp only [hr.answer_of_error hnr]
      exact ⟨.failed herror, by simp only [remains, hnl, hnr, hr.source],
        hl.log.append hr.log⟩
    | ok r' =>
      simp only [hr.answer_of_ok hnr]
      have hlog : AtMostTwoPasses ((reduce l).log ++ (reduce r).log) := hl.log.append hr.log
      have hwalk : (bin op l r).normal = joinedForm op l' r' := by
        rw [normal, hnl, hnr]; rfl
      have hsource : bin op l' r' = (bin op l r).remains :=
        (remains_bin_of_normal hnl hnr).symm
      cases hjoin : joined? op l' r' with
      | error x => exact ⟨.failed (by rw [hwalk, joinedForm, hjoin]), hsource, hlog⟩
      | ok e? =>
        cases e? with
        | none =>
          have hkept : (bin op l r).normal = .ok (bin op l r).remains := by
            rw [hwalk, joinedForm, hjoin, hsource]
          have hflag : (!(bin op l r).isNormal) = (!l.isNormal || !r.isNormal) := by
            rw [isNormal_bin_of_unruled hnl hnr hjoin, Bool.not_and]
          exact ⟨hflag ▸ .kept hkept, hsource, hlog⟩
        | some e =>
          have hreplaced : (bin op l r).normal = .ok e := by rw [hwalk, joinedForm, hjoin]
          have hchanged : (bin op l r).isNormal = false :=
            isNormal_eq_false hreplaced (ne_bin_of_joined? hnl hnr hjoin)
          exact ⟨.replaced hreplaced hchanged, hsource, hlog⟩

/-- **One pass.**  If the simplifications of lower expressions do what they should, so does a
pass over an expression. -/
theorem pass_settles {n : Nat} (h : ∀ d : Expr, d.height ≤ n → (reduce d).Settles d) {e : Expr}
    (he : e.height ≤ n + 1) : (pass reduce e).Settles e := by
  cases e with
  | num v | const c | var x => exact ⟨.kept rfl, rfl, .empty⟩
  | hole => exact ⟨.failed rfl, rfl, .empty⟩
  | func f args =>
    refine passFunc_settles fun a ha => h a ?_
    have hle : a.height ≤ heightAll args := height_le_heightAll ha
    simp only [height] at he
    omega
  | bin op l r =>
    simp only [height] at he
    exact passBin_settles (h l (by omega)) (h r (by omega))

/-- **The pass after it.**  A pass over a normal expression keeps it and changes nothing. -/
theorem pass_of_isNormal {n : Nat} (h : ∀ d : Expr, d.height ≤ n → (reduce d).Settles d)
    {u : Expr} (hu : u.height ≤ n + 1) (hnormal : u.isNormal = true) :
    (pass reduce u).outcome = .ok (.kept false) ∧ (pass reduce u).source = u ∧
      AtMostTwoPasses (pass reduce u).log := by
  obtain ⟨houtcome, hsource, hlog⟩ := pass_settles h hu
  exact ⟨houtcome.of_isNormal hnormal, hsource.trans (remains_of_isNormal hnormal), hlog⟩

/-! ## 3. Passes up to a fixed point -/

/-- The passes that follow one that changed something: a single one, which finds nothing to do. -/
theorem repeatPass_of_isNormal {n : Nat} (h : ∀ d : Expr, d.height ≤ n → (reduce d).Settles d)
    {u : Expr} (hu : u.height ≤ n + 1) (hnormal : u.isNormal = true) (cap : Int)
    (remaining made : Nat) (changed : Bool) :
    (repeatPass (pass reduce) cap (remaining + 1) made changed u).answer = .ok (u, changed) ∧
      (repeatPass (pass reduce) cap (remaining + 1) made changed u).source = u ∧
      (made = 0 ∨ made = 1 →
        AtMostTwoPasses (repeatPass (pass reduce) cap (remaining + 1) made changed u).log) := by
  obtain ⟨houtcome, hsource, hlog⟩ := pass_of_isNormal h hu hnormal
  simp only [repeatPass, houtcome, hsource]
  exact ⟨trivial, trivial, fun hmade => hlog.append (.record_fixedPoint (by omega))⟩

/-- **A simplification that may make two passes** does what it should. -/
theorem repeatPass_settles {n : Nat} (h : ∀ d : Expr, d.height ≤ n → (reduce d).Settles d)
    {e : Expr} (he : e.height ≤ n + 1) (cap : Int) (remaining : Nat) :
    (repeatPass (pass reduce) cap (remaining + 2) 0 false e).Settles e := by
  -- whatever the first pass leaves is normal and no higher than `e`, so the second is the last
  have second {u : Expr} (hu : e.normal = .ok u) :=
    repeatPass_of_isNormal h (Nat.le_trans (height_normal_le hu) he) (isNormal_of_normal hu) cap
      remaining 1 true
  obtain ⟨houtcome, hsource, hlog⟩ := pass_settles h he
  rw [repeatPass]
  generalize pass reduce e = p at houtcome hsource hlog
  obtain ⟨outcome, source, log⟩ := p
  obtain rfl : source = e.remains := hsource
  cases houtcome with
  | failed hx => exact ⟨by rw [hx]; rfl, rfl, hlog⟩
  | kept hkept =>
    cases hnormal : e.isNormal with
    | true =>
      refine ⟨?_, rfl, hlog.append (.record_fixedPoint (Or.inl rfl))⟩
      rw [hkept, hnormal]
      rfl
    | false =>
      obtain ⟨hanswer, hsource', hlog'⟩ := second hkept
      refine ⟨?_, hsource', hlog.append (hlog' (Or.inr rfl))⟩
      rw [hkept, hnormal]
      exact hanswer
  | replaced hu changed =>
    obtain ⟨hanswer, -, hlog'⟩ := second hu
    refine ⟨?_, rfl, hlog.append (hlog' (Or.inr rfl))⟩
    rw [hu, changed]
    exact hanswer

end Pass

/-! ## 4. All levels -/

/-- **Nested simplifications** do what they should, at any height: every level adds its passes to
those of the levels below it. -/
theorem reduceWithin_settles {cap : Int} (hcap : 2 ≤ cap) {levels : Nat} {e : Expr}
    (he : e.height ≤ levels) : (reduceWithin cap levels e).Settles e := by
  induction levels generalizing e with
  | zero => exact absurd he (Nat.not_le.mpr (height_pos e))
  | succ levels ih =>
    obtain ⟨k, hk⟩ : ∃ k, cap.toNat = k + 2 := ⟨cap.toNat - 2, by omega⟩
    rw [reduceWithin, hk]
    exact repeatPass_settles (fun d hd => ih hd) he cap k

end Reduction

open Reduction

namespace Expr

/-- **A simplification** in which every level may make two passes. -/
theorem reduce_settles {cap : Int} (hcap : 2 ≤ cap) {passes : Option Int}
    (hpasses : ∀ n ∈ passes, 2 ≤ n) (e : Expr) : (e.reduce cap passes).Settles e := by
  have hmost : 2 ≤ passes.getD cap := by
    cases passes with
    | none => exact hcap
    | some n => exact hpasses n rfl
  obtain ⟨k, hk⟩ : ∃ k, (passes.getD cap).toNat = k + 2 := ⟨(passes.getD cap).toNat - 2, by omega⟩
  rw [reduce, hk]
  exact repeatPass_settles (fun d hd => reduceWithin_settles hcap hd) (Nat.le_succ _) _ k

/-- A simplification that succeeds answers with the normal form, and its flag tells whether there
was anything to do. -/
theorem answer_eq_ok_iff {cap : Int} (hcap : 2 ≤ cap) {passes : Option Int}
    (hpasses : ∀ n ∈ passes, 2 ≤ n) {e u : Expr} {changed : Bool} :
    (e.reduce cap passes).answer = .ok (u, changed) ↔
      e.normal = .ok u ∧ changed = !e.isNormal := by
  have hsettles : (e.reduce cap passes).Settles e := reduce_settles hcap hpasses e
  cases hnormal : e.normal with
  | error x => simp [hsettles.answer_of_error hnormal]
  | ok v => simp [hsettles.answer_of_ok hnormal, eq_comm]

/-! ## 5. Simplification is one walk -/

/-- **Simplification is one walk.**  With at least two passes allowed at every level, a
simplification answers with the normal form, or with the error of the walk that makes it, whatever
the numbers of passes are.  The error is a division by zero, a wrong number of arguments or a
foreign operator between numbers, unless there is a hole in the expression; the passes are never
used up, and every simplification in the run that ends does so after one or two of them. -/
theorem reduce_eq_normal {cap : Int} (hcap : 2 ≤ cap) {passes : Option Int}
    (hpasses : ∀ n ∈ passes, 2 ≤ n) (e : Expr) :
    (e.reduce cap passes).answer.map Prod.fst = e.normal ∧
      (∀ x, (e.reduce cap passes).answer = .error x → e.FailsOn x) ∧
      (∀ n, (e.reduce cap passes).answer ≠ .error (.evaluation (.noFixedPoint n))) ∧
      ∀ n, Event.fixedPoint n ∈ (e.reduce cap passes).log.toList → n = 1 ∨ n = 2 := by
  obtain ⟨hanswer, -, hlog⟩ := reduce_settles hcap hpasses e
  have herror : ∀ x, (e.reduce cap passes).answer = .error x → e.normal = .error x := by
    intro x h
    cases hnormal : e.normal with
    | error y => simpa [hanswer, hnormal, Except.map] using h
    | ok u => simp [hanswer, hnormal, Except.map] at h
  refine ⟨?_, fun x h => normal_eq_error (herror x h), ?_, hlog⟩
  · rw [hanswer]
    cases e.normal <;> rfl
  · intro n h
    rcases normal_eq_error (herror _ h) with hx | ⟨f, k, hx⟩ | ⟨s, hx⟩ | ⟨hx, -⟩
    all_goals simp at hx

/-- The sum of rules in `x * 1 - (3 - 3)`: both operands of the root change, and then the root. -/
theorem reduce_eq_normal_within_two_passes :
    let e := bin .sub (bin .mul (var "x") (num 1.0)) (bin .sub (num 3.0) (num 3.0))
    (∀ n ∈ some (2 : Int), 2 ≤ n) ∧ (e.reduce 2 (some 2)).answer.map Prod.fst = .ok (var "x") := by
  intro e
  have hpasses : ∀ n ∈ some (2 : Int), 2 ≤ n := by simp
  refine ⟨hpasses, ?_⟩
  rw [(reduce_eq_normal (Int.le_refl 2) hpasses e).1]
  rfl

end Expr

end Fluxion
