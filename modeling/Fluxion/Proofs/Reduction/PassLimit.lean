/-
# One pass, or none

The last pass of a simplification is one that changes nothing, so an expression that has a redex
takes two passes and any other takes one.  This file says what happens below that.

* **No pass** (`reduce_of_nonpos`): a simplification fails before it looks at the expression.
* **One pass at the root**, and two or more below it (`reduce_of_one`): the operands are finished,
  and then the limit is met unless there was nothing to do or the work failed on the way.
* **One pass everywhere** (`reduceWithin_one_stalls`): already the first redex in the order in
  which nodes are visited stops the run, since the simplification of that very node would take a
  second pass.  What is visited before it is free of redexes and stays as it is, so the expression
  is not touched.

The limit that a caller gives holds for the root only; all nested simplifications share the
general one.  That is why the last two cases differ.
-/
import Fluxion.Proofs.Reduction.InPlace
import Fluxion.Proofs.Reduction.Redex

namespace Fluxion

open Reduction

namespace Expr

/-! ## 1. The first redex -/

mutual
/-- The parts of an expression in the order in which a pass completes them: operands from left to
right, then their node. -/
def postorder : Expr → List Expr
  | func f args => postorderAll args ++ [func f args]
  | bin op l r => l.postorder ++ r.postorder ++ [bin op l r]
  | e => [e]

/-- The parts of several expressions in that order. -/
def postorderAll : List Expr → List Expr
  | [] => []
  | e :: es => e.postorder ++ postorderAll es
end

/-- The redex that a pass comes to first. -/
def firstRedex? (e : Expr) : Option Expr := e.postorder.find? isRedex

/-- Why a simplification of a redex over simplified operands fails if it may make one pass only:
the rules fail, or they change something. -/
def failure (p : Expr) : ReduceError :=
  match p.ruled with
  | .error x => x
  | .ok _ => .evaluation (.noFixedPoint 1)

theorem mem_postorderAll {p : Expr} :
    ∀ {es : List Expr}, p ∈ postorderAll es ↔ ∃ e ∈ es, p ∈ e.postorder
  | [] => by simp [postorderAll]
  | e :: es => by
    have htail : p ∈ postorderAll es ↔ ∃ d ∈ es, p ∈ d.postorder := mem_postorderAll
    simp [postorderAll, htail]

/-- The order lists the parts. -/
theorem mem_postorder {e p : Expr} : p ∈ e.postorder ↔ p ∈ e.parts := by
  induction e using induct with
  | num v | const c | var x | hole => rfl
  | func f args ih =>
    have hargs : (∃ a ∈ args, p ∈ a.postorder) ↔ ∃ a ∈ args, p ∈ a.parts :=
      exists_congr fun a => and_congr_right (ih a)
    rw [postorder, List.mem_append, List.mem_singleton, mem_postorderAll, hargs, mem_parts_func,
      or_comm]
  | bin op l r ihl ihr =>
    rw [postorder, List.mem_append, List.mem_append, List.mem_singleton, ihl, ihr, mem_parts_bin,
      or_comm]

theorem firstRedex?_func (f : String) (args : List Expr) :
    (func f args).firstRedex? =
      ((postorderAll args).find? isRedex).or ([func f args].find? isRedex) :=
  List.find?_append

theorem firstRedex?_bin (op : Op) (l r : Expr) :
    (bin op l r).firstRedex? =
      (l.firstRedex?.or r.firstRedex?).or ([bin op l r].find? isRedex) := by
  rw [firstRedex?, postorder, List.find?_append, List.find?_append]
  rfl

theorem failure_of_error {p : Expr} {x : ReduceError} (h : p.ruled = .error x) :
    p.failure = x := by
  rw [failure, h]

theorem failure_of_ok {p u : Expr} (h : p.ruled = .ok u) :
    p.failure = .evaluation (.noFixedPoint 1) := by
  rw [failure, h]

theorem firstRedex?_eq_none {e : Expr} : e.firstRedex? = none ↔ e.RedexFree := by
  simp [firstRedex?, RedexFree, mem_postorder]

end Expr

open Fluxion.Expr

namespace Reduction

/-! ## 2. One pass everywhere -/

/-- What comes of a pass that fails at the redex, if there is one, and else changes nothing. -/
def upTo {α : Type} (redex? : Option Expr) (a : α) : Except ReduceError α :=
  match redex? with
  | none => .ok a
  | some p => .error p.failure

/-- The run leaves the expression as it is and fails at the first redex. -/
structure Run.Stalls (run : Run) (e : Expr) : Prop where
  answer : run.answer = upTo e.firstRedex? (e, false)
  source : run.source = e

/-- How a pass over `e` ends if the nested simplifications fail at the first redex.  If that is
`e` itself, the pass may succeed, and then it is the next one that is missing. -/
inductive Stalled (e : Expr) : Except ReduceError Change → Prop where
  | kept (h : e.firstRedex? = none) : Stalled e (.ok (.kept false))
  | failed {p : Expr} {x : ReduceError} (h : e.firstRedex? = some p) (hfailure : p.failure = x) :
      Stalled e (.error x)
  | replaced {p u : Expr} (h : e.firstRedex? = some p)
      (hfailure : p.failure = .evaluation (.noFixedPoint 1)) : Stalled e (.ok (.replaced u))

/-- The pass leaves the expression as it is and fails at the first redex, or at the pass after
it. -/
structure Pass.Stalls (p : Pass) (e : Expr) : Prop where
  outcome : Stalled e p.outcome
  source : p.source = e

/-! Where the operands have no redex, the root is all that is left to look at. -/

section

variable {e u v : Expr} (hfirst : e.firstRedex? = [e].find? isRedex)

include hfirst

theorem Stalled.root_kept (hredex : e.isRedex = false) : Stalled e (.ok (.kept false)) :=
  .kept (by rw [hfirst, List.find?_cons_of_neg (by simp [hredex]), List.find?_nil])

theorem Stalled.root_failed {x : ReduceError} (hredex : e.isRedex = true)
    (h : e.ruled = .error x) : Stalled e (.error x) :=
  .failed (by rw [hfirst, List.find?_cons_of_pos hredex]) (failure_of_error h)

theorem Stalled.root_replaced (hredex : e.isRedex = true) (h : e.ruled = .ok v) :
    Stalled e (.ok (.replaced u)) :=
  .replaced (by rw [hfirst, List.find?_cons_of_pos hredex]) (failure_of_ok h)

end

section Pass

variable {reduce : Expr → Run}

/-- A pass over arguments. -/
theorem passArgs_stalls {args : List Expr} (h : ∀ a ∈ args, (reduce a).Stalls a) :
    (passArgs reduce args).outcome = upTo ((postorderAll args).find? isRedex) false ∧
      (passArgs reduce args).args = args := by
  induction args with
  | nil => exact ⟨rfl, rfl⟩
  | cons a as ih =>
    obtain ⟨hanswer, hsource⟩ := h a List.mem_cons_self
    obtain ⟨houtcome, hargs⟩ := ih fun b hb => h b (List.mem_cons_of_mem a hb)
    have hwhole : (postorderAll (a :: as)).find? isRedex =
        a.firstRedex?.or ((postorderAll as).find? isRedex) := List.find?_append
    rw [hwhole]
    cases hfirst : a.firstRedex? with
    | some p =>
      rw [hfirst] at hanswer
      simp only [passArgs, hanswer, upTo, hsource, Option.some_or]
      exact ⟨trivial, trivial⟩
    | none =>
      rw [hfirst] at hanswer
      simp only [passArgs, hanswer, upTo, hargs, houtcome, Option.none_or]
      refine ⟨?_, trivial⟩
      cases (postorderAll as).find? isRedex <;> rfl

/-- A pass over a function call. -/
theorem passFunc_stalls {f : String} {args : List Expr} (h : ∀ a ∈ args, (reduce a).Stalls a) :
    (passFunc reduce f args).Stalls (func f args) := by
  obtain ⟨houtcome, hargs⟩ := passArgs_stalls h
  have hfirst : (func f args).firstRedex? =
      ((postorderAll args).find? isRedex).or ([func f args].find? isRedex) :=
    firstRedex?_func f args
  unfold passFunc
  cases hinner : (postorderAll args).find? isRedex with
  | some p =>
    rw [hinner] at houtcome hfirst
    simp only [houtcome, upTo, hargs]
    exact ⟨.failed hfirst rfl, rfl⟩
  | none =>
    rw [hinner] at houtcome hfirst
    simp only [houtcome, upTo, hargs]
    have hruled : isUnruled (specialValue? f args) = !(func f args).isRedex :=
      isUnruled_specialValue?
    cases hvalue : specialValue? f args with
    | error x =>
      have hroot : (func f args).isRedex = true := by simpa [hvalue, isUnruled] using hruled
      exact ⟨.root_failed hfirst hroot (by rw [ruled, calledForm, hvalue]), rfl⟩
    | ok v? =>
      cases v? with
      | none =>
        have hroot : (func f args).isRedex = false := by simpa [hvalue, isUnruled] using hruled
        exact ⟨.root_kept hfirst hroot, rfl⟩
      | some v =>
        have hroot : (func f args).isRedex = true := by simpa [hvalue, isUnruled] using hruled
        exact ⟨.root_replaced hfirst hroot (by rw [ruled, calledForm, hvalue]), rfl⟩

/-- A pass over two operands. -/
theorem passBin_stalls {op : Op} {l r : Expr} (hl : (reduce l).Stalls l)
    (hr : (reduce r).Stalls r) : (passBin reduce op l r).Stalls (bin op l r) := by
  obtain ⟨hleft, hleftSource⟩ := hl
  obtain ⟨hright, hrightSource⟩ := hr
  have hfirst : (bin op l r).firstRedex? =
      (l.firstRedex?.or r.firstRedex?).or ([bin op l r].find? isRedex) := firstRedex?_bin op l r
  unfold passBin
  cases hfl : l.firstRedex? with
  | some p =>
    rw [hfl] at hleft hfirst
    simp only [hleft, upTo, hleftSource]
    exact ⟨.failed hfirst rfl, rfl⟩
  | none =>
    rw [hfl] at hleft hfirst
    simp only [hleft, upTo]
    cases hfr : r.firstRedex? with
    | some p =>
      rw [hfr] at hright hfirst
      simp only [hright, upTo, hrightSource]
      exact ⟨.failed hfirst rfl, rfl⟩
    | none =>
      rw [hfr] at hright hfirst
      simp only [hright, upTo]
      have hruled : isUnruled (joined? op l r) = !(bin op l r).isRedex := isUnruled_joined?
      cases hjoin : joined? op l r with
      | error x =>
        have hroot : (bin op l r).isRedex = true := by simpa [hjoin, isUnruled] using hruled
        exact ⟨.root_failed hfirst hroot (by rw [ruled, joinedForm, hjoin]), rfl⟩
      | ok e? =>
        cases e? with
        | none =>
          have hroot : (bin op l r).isRedex = false := by simpa [hjoin, isUnruled] using hruled
          exact ⟨.root_kept hfirst hroot, rfl⟩
        | some u =>
          have hroot : (bin op l r).isRedex = true := by simpa [hjoin, isUnruled] using hruled
          exact ⟨.root_replaced hfirst hroot (by rw [ruled, joinedForm, hjoin]), rfl⟩

/-- **One pass** over an expression whose operands' simplifications fail at the first redex. -/
theorem pass_stalls {n : Nat}
    (h : ∀ d : Expr, d.height ≤ n → hole ∉ d.parts → (reduce d).Stalls d) {e : Expr}
    (he : e.height ≤ n + 1) (hcomplete : hole ∉ e.parts) : (pass reduce e).Stalls e := by
  cases e with
  | num v | const c | var x => exact ⟨.kept rfl, rfl⟩
  | hole => exact absurd (mem_parts_self _) hcomplete
  | func f args =>
    refine passFunc_stalls fun a ha => h a ?_ ?_
    · have hle : a.height ≤ heightAll args := height_le_heightAll ha
      simp only [height] at he
      omega
    · exact fun hmem => hcomplete (mem_parts_func.mpr (Or.inr ⟨a, ha, hmem⟩))
  | bin op l r =>
    simp only [height] at he
    rw [mem_parts_bin, not_or, not_or] at hcomplete
    exact passBin_stalls (h l (by omega) hcomplete.2.1) (h r (by omega) hcomplete.2.2)

/-- A simplification that may make a single pass fails where the pass does, or for want of the
next one. -/
theorem repeatPass_one_stalls {e : Expr} (h : (pass reduce e).Stalls e) :
    (repeatPass (pass reduce) 1 1 0 false e).Stalls e := by
  obtain ⟨houtcome, hsource⟩ := h
  rw [repeatPass]
  generalize pass reduce e = p at houtcome hsource
  obtain ⟨outcome, source, log⟩ := p
  obtain rfl : source = e := hsource
  cases houtcome with
  | kept hfirst => exact ⟨by rw [hfirst]; rfl, rfl⟩
  | failed hfirst hfailure => exact ⟨by rw [hfirst, upTo, hfailure], rfl⟩
  | replaced hfirst hfailure => exact ⟨by rw [hfirst, upTo, hfailure]; rfl, rfl⟩

end Pass

/-- **Nested simplifications in one pass** fail at the first redex, at any height. -/
theorem reduceWithin_one_stalls {levels : Nat} {e : Expr} (he : e.height ≤ levels)
    (hcomplete : hole ∉ e.parts) : (reduceWithin 1 levels e).Stalls e := by
  induction levels generalizing e with
  | zero => exact absurd he (Nat.not_le.mpr (height_pos e))
  | succ levels ih =>
    exact repeatPass_one_stalls (pass_stalls (fun d hd hd' => ih hd hd') he hcomplete)

end Reduction

namespace Expr

theorem reduce_one_stalls {e : Expr} (hcomplete : hole ∉ e.parts) : (e.reduce 1 none).Stalls e :=
  repeatPass_one_stalls
    (pass_stalls (fun _ hd hd' => reduceWithin_one_stalls hd hd') (Nat.le_succ _) hcomplete)

/-! ## 3. No pass, and one pass at the root -/

/-- Without a pass a simplification fails at once. -/
theorem reduce_of_nonpos {cap : Int} {passes : Option Int} (h : passes.getD cap ≤ 0) (e : Expr) :
    e.reduce cap passes = ⟨.error (.evaluation (.noFixedPoint (passes.getD cap))), e, ∅⟩ := by
  rw [reduce, Int.toNat_of_nonpos h]
  rfl

/-- What a single pass at the root answers: it has no second pass to see that it is done. -/
def lastPass (e : Expr) : Except ReduceError (Expr × Bool) :=
  e.normal.bind fun _ =>
    if e.isNormal then .ok (e, false) else .error (.evaluation (.noFixedPoint 1))

theorem lastPass_of_redexFree {e : Expr} (hcomplete : hole ∉ e.parts) (hfree : e.RedexFree) :
    e.lastPass = .ok (e, false) ∧ e.remains = e := by
  have hnormal : e.isNormal = true := isNormal_iff.mpr ⟨hcomplete, hfree⟩
  refine ⟨?_, remains_of_isNormal hnormal⟩
  rw [lastPass, normal_of_isNormal hnormal, hnormal]
  rfl

theorem lastPass_of_error {e : Expr} {x : ReduceError} (h : e.normal = .error x) :
    e.lastPass = .error x := by
  rw [lastPass, h]
  rfl

theorem lastPass_of_redex {e u : Expr} (h : e.normal = .ok u) (hredex : ¬ e.RedexFree) :
    e.lastPass = .error (.evaluation (.noFixedPoint 1)) := by
  have hnormal : e.isNormal = false := by
    rw [← Bool.not_eq_true, isNormal_iff]
    exact fun hnormal => hredex hnormal.2
  rw [lastPass, h, hnormal]
  rfl

/-- A single pass at the root leaves behind what more passes leave. -/
theorem reduce_of_one {cap : Int} (hcap : 2 ≤ cap) (e : Expr) :
    (e.reduce cap (some 1)).answer = e.lastPass ∧
      (e.reduce cap (some 1)).source = e.remains := by
  have hpass : (pass (reduceWithin cap e.height) e).Settles e :=
    pass_settles (fun d hd => reduceWithin_settles hcap hd) (Nat.le_succ _)
  obtain ⟨houtcome, hsource, -⟩ := hpass
  have hone : (e.reduce cap (some 1)) =
      repeatPass (pass (reduceWithin cap e.height)) 1 1 0 false e := rfl
  rw [hone, repeatPass, lastPass]
  generalize pass (reduceWithin cap e.height) e = p at houtcome hsource
  obtain ⟨outcome, source, log⟩ := p
  obtain rfl : source = e.remains := hsource
  cases houtcome with
  | failed hx =>
    rw [hx]
    exact ⟨rfl, rfl⟩
  | kept hkept =>
    rw [hkept]
    cases hnormal : e.isNormal with
    | true =>
      rw [remains_of_isNormal hnormal]
      exact ⟨rfl, rfl⟩
    | false => exact ⟨rfl, rfl⟩
  | replaced hu changed =>
    rw [hu, changed]
    exact ⟨rfl, rfl⟩

/-- An error of an unlimited simplification is the one of the walk. -/
theorem normal_eq_error_of_answer {cap : Int} (hcap : 2 ≤ cap) {e : Expr} {x : ReduceError}
    (h : (e.reduce cap none).answer = .error x) : e.normal = .error x := by
  have hsettles : (e.reduce cap none).Settles e := reduce_settles hcap (by simp) e
  cases hnormal : e.normal with
  | error y =>
    obtain rfl : y = x := by simpa [hsettles.answer_of_error hnormal] using h
    rfl
  | ok u => simp [hsettles.answer_of_ok hnormal] at h

theorem redexFree_of_simplifiesTo {cap : Int} (hcap : 2 ≤ cap) {ds us : List Expr}
    (h : List.Forall₂ (SimplifiesTo cap) ds us) : ∀ u ∈ us, u.RedexFree := by
  have hboth : List.Forall₂ (fun u d => u.RedexFree ∧ SimplifiesTo cap d u) us ds := by
    refine h.flip.imp fun u d hd => ⟨?_, hd⟩
    have hnormal : u.isNormal = true := isNormal_of_normal ((simplifiesTo_iff hcap).mp hd)
    exact (isNormal_iff.mp hnormal).2
  exact ((List.forall₂_and_left us ds).mp hboth).1

/-! ## 4. Limits below two -/

/-- **Limits below two.**
* Without a pass the limit is met at once, and the expression stays as it is.
* With one pass at the root and more below, an expression without redexes is its own answer, and
  the errors are those of more passes.  In all other cases the limit is met, when the operands
  have been put in normal form.
* With one pass at every level, an expression without redexes is its own answer too.  All others
  fail at the first redex, by its own error if the rules have one for it and at the limit if they
  have not.  The expression stays as it is. -/
theorem reduce_of_limit_below_two {e : Expr} (hcomplete : hole ∉ e.parts) :
    (∀ cap n : Int, n ≤ 0 →
      (e.reduce cap (some n)).answer = .error (.evaluation (.noFixedPoint n)) ∧
        (e.reduce cap (some n)).source = e) ∧
    (∀ cap : Int, 2 ≤ cap →
      (e.RedexFree → (e.reduce cap (some 1)).answer = .ok (e, false) ∧
          (e.reduce cap (some 1)).source = e) ∧
        (∀ x, (e.reduce cap none).answer = .error x →
          (e.reduce cap (some 1)).answer = .error x) ∧
        ∀ u changed, (e.reduce cap none).answer = .ok (u, changed) → ¬ e.RedexFree →
          (e.reduce cap (some 1)).answer = .error (.evaluation (.noFixedPoint 1)) ∧
            ∃ us, List.Forall₂ (SimplifiesTo cap) e.operands us ∧ (∀ u ∈ us, u.RedexFree) ∧
              (e.reduce cap (some 1)).source = e.withOperands us) ∧
    (e.reduce 1 none).source = e ∧
    (e.RedexFree → (e.reduce 1 none).answer = .ok (e, false)) ∧
    (¬ e.RedexFree → ∃ p, e.firstRedex? = some p ∧
      (∀ x, p.ruled = .error x → (e.reduce 1 none).answer = .error x) ∧
      ∀ u, p.ruled = .ok u →
        (e.reduce 1 none).answer = .error (.evaluation (.noFixedPoint 1))) := by
  obtain ⟨hanswer, hsource⟩ := reduce_one_stalls hcomplete
  refine ⟨?_, ?_, hsource, ?_, ?_⟩
  · intro cap n hn
    rw [reduce_of_nonpos (show (some n).getD cap ≤ 0 from hn)]
    exact ⟨rfl, rfl⟩
  · intro cap hcap
    obtain ⟨hone, hleft⟩ := reduce_of_one hcap e
    rw [hone, hleft]
    refine ⟨lastPass_of_redexFree hcomplete, ?_, ?_⟩
    · intro x hx
      exact lastPass_of_error (normal_eq_error_of_answer hcap hx)
    · intro u changed hu hredex
      obtain ⟨hnormal, -⟩ := (answer_eq_ok_iff hcap (by simp)).mp hu
      obtain ⟨us, hus, hremains⟩ := remains_of_normal hcap hnormal
      exact ⟨lastPass_of_redex hnormal hredex, us, hus, redexFree_of_simplifiesTo hcap hus,
        hremains⟩
  · intro hfree
    rw [hanswer, firstRedex?_eq_none.mpr hfree]
    rfl
  · intro hredex
    obtain ⟨p, hfirst⟩ : ∃ p, e.firstRedex? = some p := by
      rw [← Option.ne_none_iff_exists']
      exact fun hnone => hredex (firstRedex?_eq_none.mp hnone)
    rw [hanswer, hfirst]
    exact ⟨p, rfl, fun x hx => by rw [upTo, failure_of_error hx],
      fun u hu => by rw [upTo, failure_of_ok hu]⟩

/-- In `f(x, 1 * y) / 0 + z` the redex `1 * y` comes before the quotient.  With one pass
everywhere it stops the run at the limit.  With more passes below the root the run fails at the
quotient, as without a limit. -/
theorem reduce_of_limit_below_two_quotient :
    let product := bin .mul (num 1.0) (var "y")
    let e := bin .add (bin .div (func "f" [var "x", product]) (num 0.0)) (var "z")
    hole ∉ e.parts ∧
      (e.reduce 5 (some (-3))).answer = .error (.evaluation (.noFixedPoint (-3))) ∧
      (e.reduce 5 (some 1)).answer = .error (.evaluation .divisionByZero) ∧
      (e.reduce 1 none).answer = .error (.evaluation (.noFixedPoint 1)) ∧
      (e.reduce 1 none).source = e := by
  intro product e
  have hcomplete : hole ∉ e.parts := by simp [e, product]
  have hmany : (e.reduce 5 none).answer = .error (.evaluation .divisionByZero) := rfl
  have hproduct : e.firstRedex? = some product := rfl
  have hfree : ¬ e.RedexFree := by
    rw [← firstRedex?_eq_none, hproduct]
    simp
  obtain ⟨hnone, hroot, hsource, -, hfirst⟩ := reduce_of_limit_below_two hcomplete
  obtain ⟨p, hp, -, hlimit⟩ := hfirst hfree
  obtain rfl : p = product := Option.some.inj (hp.symm.trans hproduct)
  exact ⟨hcomplete, (hnone 5 (-3) (by decide)).1, (hroot 5 (by decide)).2.1 _ hmany,
    hlimit (var "y") rfl, hsource⟩

end Expr

end Fluxion
