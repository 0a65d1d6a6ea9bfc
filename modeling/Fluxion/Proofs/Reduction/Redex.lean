/-
# Redexes

A node is a redex if a rule of simplification speaks of it: two numbers under an operator, an
operand that an identity of the operator names, or a call of a function with special values at one
of them, or with the wrong number of arguments.  `Expr.isRedex` says so by tables, without the
rules themselves.  The division by the number zero and the wrong number of arguments count, though
all that their rules do is fail.

The normal expressions are those without redexes (`isNormal_iff`).  Replacing a redex removes
nodes, and nothing else happens, so the normal form of any other expression is smaller
(`size_normal`).  Together they say what the flag of a simplification tells its caller
(`flag_of_reduce`).
-/
import Fluxion.Proofs.Reduction.Passes

namespace Fluxion

open Reduction

/-! ## 1. What the rules speak of -/

namespace Op

/-- The numbers that an identity of the operator names on the left. -/
def leftNumbers : Op → List Float
  | add | sub | div => [0.0]
  | mul => [0.0, 1.0]
  | pow => [1.0]
  | other _ => []

/-- The numbers that an identity of the operator names on the right; a quotient by zero is one of
them. -/
def rightNumbers : Op → List Float
  | add | sub => [0.0]
  | mul | div | pow => [0.0, 1.0]
  | other _ => []

end Op

namespace Expr

/-- The functions with special values, each with the constant at which it has one.  All of them
have one at zero too. -/
def specialFunctions : List (String × String) := [("sin", "pi"), ("ln", "e")]

/-- The expression is a number. -/
def isNum : Expr → Bool
  | num _ => true
  | _ => false

/-- The expression is the given constant. -/
def isConst (c : String) : Expr → Bool
  | const d => d == c
  | _ => false

/-- A rule speaks of the root. -/
def isRedex : Expr → Bool
  | bin op l r =>
    l.isNum && r.isNum || op.leftNumbers.any (isNumber · l) || op.rightNumbers.any (isNumber · r)
  | func f args =>
    specialFunctions.any fun (g, c) =>
      f == g && (args.length != 1 || args.any fun a => a.isNumber 0.0 || a.isConst c)
  | _ => false

end Expr

open Fluxion.Expr

namespace Reduction

/-! ## 2. Redexes and rules -/

theorem isUnruled_identity? {op : Op} {l r : Expr} :
    isUnruled (identity? op l r) =
      !(op.leftNumbers.any (isNumber · l) || op.rightNumbers.any (isNumber · r)) := by
  cases op
  all_goals simp [identity?, Op.leftNumbers, Op.rightNumbers]
  all_goals grind [isUnruled]

/-- The rules leave two operands alone just when their node is no redex. -/
theorem isUnruled_joined? {op : Op} {l r : Expr} :
    isUnruled (joined? op l r) = !(bin op l r).isRedex := by
  unfold joined?
  split
  · rename_i a b
    have hredex : (bin op (num a) (num b)).isRedex = true := by simp [isRedex, isNum]
    rw [hredex]
    cases op.apply a b <;> rfl
  · rename_i hnumbers
    have hnum : (l.isNum && r.isNum) = false := by
      cases l <;> cases r <;> first | rfl | exact absurd rfl (hnumbers _ _ rfl)
    rw [isRedex, hnum, Bool.false_or, ← isUnruled_identity?]
    rcases identity? op l r with x | _ | e <;> rfl

/-- The rule of one function: it leaves a call alone just when there is one argument, and the
argument is neither zero nor the constant of the function. -/
theorem isUnruled_of_specialRule? {f c : String} {value : Expr → Option Float} {args : List Expr}
    (hrule : specialRule? f = some value)
    (hvalue : ∀ a, (value a).isNone = !(a.isNumber 0.0 || a.isConst c)) :
    isUnruled (specialValue? f args) =
      !(args.length != 1 || args.any fun a => a.isNumber 0.0 || a.isConst c) := by
  rcases args with _ | ⟨a, _ | ⟨b, args⟩⟩
  · simp [specialValue?, hrule, isUnruled]
  · have hone : isUnruled (specialValue? f [a]) = (value a).isNone := by
      simp only [specialValue?, hrule]
      cases value a <;> rfl
    rw [hone, hvalue]
    simp
  · simp [specialValue?, hrule, isUnruled]

/-- The rules leave a call alone just when it is no redex. -/
theorem isUnruled_specialValue? {f : String} {args : List Expr} :
    isUnruled (specialValue? f args) = !(func f args).isRedex := by
  have hsine : ∀ a : Expr, (sineAt? a).isNone = !(a.isNumber 0.0 || a.isConst "pi") := by
    intro a
    cases a <;> simp [sineAt?, isNumber, isConst] <;> grind
  have hlogarithm : ∀ a : Expr, (logarithmAt? a).isNone = !(a.isNumber 0.0 || a.isConst "e") := by
    intro a
    cases a <;> simp [logarithmAt?, isNumber, isConst] <;> grind
  by_cases hsin : f = "sin"
  · rw [isUnruled_of_specialRule? (by simp [specialRule?, hsin]) hsine]
    simp [isRedex, specialFunctions, hsin]
  by_cases hln : f = "ln"
  · rw [isUnruled_of_specialRule? (by simp [specialRule?, hln]) hlogarithm]
    simp [isRedex, specialFunctions, hln]
  · simp [specialValue?, specialRule?, isRedex, specialFunctions, isUnruled, hsin, hln]

end Reduction

namespace Expr

/-! ## 3. Normal expressions -/

/-- There is no redex in the expression. -/
def RedexFree (e : Expr) : Prop := ∀ p ∈ e.parts, p.isRedex = false

theorem redexFree_func_iff {f : String} {args : List Expr} :
    (func f args).RedexFree ↔ (func f args).isRedex = false ∧ ∀ a ∈ args, a.RedexFree :=
  forall_parts_func

theorem redexFree_bin_iff {op : Op} {l r : Expr} :
    (bin op l r).RedexFree ↔ (bin op l r).isRedex = false ∧ l.RedexFree ∧ r.RedexFree :=
  forall_parts_bin

theorem isNormalAll_iff {es : List Expr} : isNormalAll es = true ↔ ∀ e ∈ es, e.isNormal = true := by
  induction es with
  | nil => simp [isNormalAll]
  | cons e es ih => simp [isNormalAll, ih]

/-- **The normal expressions** are those without redexes and without holes. -/
theorem isNormal_iff {e : Expr} : e.isNormal = true ↔ hole ∉ e.parts ∧ e.RedexFree := by
  induction e using induct with
  | num v | const c | var x => simp [isNormal, RedexFree, isRedex]
  | hole => simp [isNormal, parts]
  | func f args ih =>
    rw [isNormal, Bool.and_eq_true, isNormalAll_iff, isUnruled_specialValue?, redexFree_func_iff,
      Bool.not_eq_true']
    have hholes : hole ∉ (func f args).parts ↔ ∀ a ∈ args, hole ∉ a.parts := by simp
    rw [hholes]
    constructor
    · rintro ⟨hargs, hroot⟩
      exact ⟨fun a ha => ((ih a ha).mp (hargs a ha)).1, hroot,
        fun a ha => ((ih a ha).mp (hargs a ha)).2⟩
    · rintro ⟨hcomplete, hroot, hfree⟩
      exact ⟨fun a ha => (ih a ha).mpr ⟨hcomplete a ha, hfree a ha⟩, hroot⟩
  | bin op l r ihl ihr =>
    rw [isNormal, Bool.and_eq_true, Bool.and_eq_true, isUnruled_joined?, redexFree_bin_iff,
      Bool.not_eq_true', ihl, ihr]
    have hholes : hole ∉ (bin op l r).parts ↔ hole ∉ l.parts ∧ hole ∉ r.parts := by simp
    rw [hholes]
    constructor
    · rintro ⟨⟨⟨hlc, hlf⟩, hrc, hrf⟩, hroot⟩
      exact ⟨⟨hlc, hrc⟩, hroot, hlf, hrf⟩
    · rintro ⟨⟨hlc, hrc⟩, hroot, hlf, hrf⟩
      exact ⟨⟨⟨hlc, hlf⟩, hrc, hrf⟩, hroot⟩

/-- An expression that has a normal form has no holes. -/
theorem complete_of_normal {e u : Expr} (h : e.normal = .ok u) : hole ∉ e.parts := by
  induction e using induct generalizing u with
  | num v | const c | var x => simp
  | hole => simp [normal] at h
  | func f args ih =>
    obtain ⟨args', hargs, -⟩ := normal_func_eq_ok.mp h
    intro hhole
    obtain ⟨a, ha, hin⟩ := (mem_parts_func.mp hhole).resolve_left (by simp)
    obtain ⟨a', ha'⟩ := exists_normal_of_mem hargs ha
    exact ih a ha ha' hin
  | bin op l r ihl ihr =>
    obtain ⟨l', r', hl, hr, -⟩ := normal_bin_eq_ok.mp h
    simp [ihl hl, ihr hr]

/-! ## 4. Normal forms are smaller -/

theorem size_pos : ∀ e : Expr, 0 < e.size
  | num _ | const _ | var _ | hole => by simp [size]
  | func _ _ | bin _ _ _ => by simp [size]

/-- What the normal forms of several expressions count together. -/
theorem sizeAll_normalAll {es us : List Expr}
    (hes : ∀ e ∈ es, ∀ u, e.normal = .ok u →
      u.size ≤ e.size ∧ (e.isNormal = false → u.size < e.size))
    (h : normalAll es = .ok us) :
    sizeAll us ≤ sizeAll es ∧ (isNormalAll es = false → sizeAll us < sizeAll es) := by
  induction es generalizing us with
  | nil =>
    obtain rfl : us = [] := by simpa [normalAll, eq_comm] using h
    simp [isNormalAll]
  | cons e es ih =>
    obtain ⟨u, us', hu, hus', rfl⟩ := normalAll_cons_eq_ok.mp h
    obtain ⟨hhead, hheadLt⟩ := hes e List.mem_cons_self u hu
    obtain ⟨htail, htailLt⟩ := ih (fun d hd => hes d (List.mem_cons_of_mem e hd)) hus'
    simp only [sizeAll]
    refine ⟨by omega, fun hsome => ?_⟩
    rw [isNormalAll, Bool.and_eq_false_iff] at hsome
    rcases hsome with hsome | hsome
    · have hlt := hheadLt hsome
      omega
    · have hlt := htailLt hsome
      omega

/-- **The normal form is no larger, and it is smaller unless there was nothing to do.**  A rule
that puts something in the place of a node removes the node at least. -/
theorem size_normal {e u : Expr} (h : e.normal = .ok u) :
    u.size ≤ e.size ∧ (e.isNormal = false → u.size < e.size) := by
  induction e using induct generalizing u with
  | num v | const c | var x =>
    obtain rfl := by simpa [normal] using h
    simp [isNormal]
  | hole => simp [normal] at h
  | func f args ih =>
    obtain ⟨args', hargs, hcall⟩ := normal_func_eq_ok.mp h
    obtain ⟨hle, hlt⟩ := sizeAll_normalAll (fun a ha u hu => ih a ha hu) hargs
    rcases calledForm_eq_ok hcall with ⟨v, hvalue, rfl⟩ | ⟨hnone, rfl⟩
    · obtain ⟨-, a, -, rfl, -⟩ := specialValue?_eq_some hvalue
      have hpos : 0 < a.size := size_pos a
      simp only [size, sizeAll] at hle ⊢
      omega
    · simp only [size]
      refine ⟨by omega, fun hsome => ?_⟩
      rw [isNormal_func_of_unruled hargs hnone] at hsome
      have hless := hlt hsome
      omega
  | bin op l r ihl ihr =>
    obtain ⟨l', r', hl, hr, hjoin⟩ := normal_bin_eq_ok.mp h
    obtain ⟨hlle, hllt⟩ := ihl hl
    obtain ⟨hrle, hrlt⟩ := ihr hr
    have hlpos : 0 < l.size := size_pos l
    have hrpos : 0 < r.size := size_pos r
    rcases joinedForm_eq_ok hjoin with ⟨-, ⟨v, rfl⟩ | rfl | rfl⟩ | ⟨hnone, rfl⟩
    · simp only [size]
      omega
    · simp only [size]
      omega
    · simp only [size]
      omega
    · simp only [size]
      refine ⟨by omega, fun hsome => ?_⟩
      rw [isNormal_bin_of_unruled hl hr hnone, Bool.and_eq_false_iff] at hsome
      rcases hsome with hsome | hsome
      · have hless := hllt hsome
        omega
      · have hless := hrlt hsome
        omega

/-! ## 5. The flag -/

/-- A normal expression is simplified in one pass. -/
theorem reduce_of_isNormal {cap : Int} (hcap : 2 ≤ cap) {passes : Option Int}
    (hpasses : ∀ n ∈ passes, 1 ≤ n) {u : Expr} (h : u.isNormal = true) :
    (u.reduce cap passes).answer = .ok (u, false) := by
  have hmost : 1 ≤ passes.getD cap := by
    cases passes with
    | none => exact Int.le_trans (by decide) hcap
    | some n => exact hpasses n rfl
  obtain ⟨k, hk⟩ : ∃ k, (passes.getD cap).toNat = k + 1 := ⟨(passes.getD cap).toNat - 1, by omega⟩
  rw [reduce, hk]
  exact (repeatPass_of_isNormal (fun d hd => reduceWithin_settles hcap hd) (Nat.le_succ _) h _ k 0
    false).1

/-- **What a simplification that succeeds tells by its flag.**  The result has no redex.  Without
a change there was none before, and the result is the expression itself; with one the result has
fewer nodes.  A second simplification finds nothing to do, even in a single pass. -/
theorem flag_of_reduce {cap : Int} (hcap : 2 ≤ cap) {passes : Option Int}
    (hpasses : ∀ n ∈ passes, 2 ≤ n) {e u : Expr} {changed : Bool}
    (h : (e.reduce cap passes).answer = .ok (u, changed)) :
    u.RedexFree ∧ (changed = false ↔ e.RedexFree) ∧ (changed = false → u = e) ∧
      (changed = true ↔ u.size < e.size) ∧
      ∀ again : Option Int, (∀ n ∈ again, 1 ≤ n) →
        (u.reduce cap again).answer = .ok (u, false) := by
  obtain ⟨hnormal, rfl⟩ := (answer_eq_ok_iff hcap hpasses).mp h
  have hresult : u.isNormal = true := isNormal_of_normal hnormal
  have hfree : e.isNormal = true ↔ e.RedexFree := by
    rw [isNormal_iff]
    exact and_iff_right (complete_of_normal hnormal)
  have hsame : e.isNormal = true → u = e := by
    intro he
    simpa [normal_of_isNormal he, eq_comm] using hnormal
  refine ⟨(isNormal_iff.mp hresult).2, ?_, ?_, ?_, ?_⟩
  · rw [Bool.not_eq_false']
    exact hfree
  · rw [Bool.not_eq_false']
    exact hsame
  · rw [Bool.not_eq_true']
    refine ⟨(size_normal hnormal).2, fun hlt => ?_⟩
    rw [← Bool.not_eq_true]
    intro he
    rw [hsame he] at hlt
    exact Nat.lt_irrefl _ hlt
  · intro again hagain
    exact reduce_of_isNormal hcap hagain hresult

/-- In `f(0 * y, ln(x - 0))` two redexes go, and then `ln(x)` is none. -/
theorem flag_of_reduce_nested :
    let e := func "f" [bin .mul (num (-0.0)) (var "y"), func "ln" [bin .sub (var "x") (num 0.0)]]
    let u := func "f" [num 0.0, func "ln" [var "x"]]
    (2 : Int) ≤ 3 ∧ (∀ n ∈ some (2 : Int), 2 ≤ n) ∧
      (e.reduce 3 (some 2)).answer = .ok (u, true) ∧ u.RedexFree ∧
      (u.reduce 3 (some 1)).answer = .ok (u, false) := by
  intro e u
  have hcap : (2 : Int) ≤ 3 := by decide
  have hpasses : ∀ n ∈ some (2 : Int), 2 ≤ n := by simp
  have hanswer : (e.reduce 3 (some 2)).answer = .ok (u, true) := by
    rw [answer_eq_ok_iff hcap hpasses]
    exact ⟨rfl, by decide +kernel⟩
  obtain ⟨hfree, -, -, -, hagain⟩ := flag_of_reduce hcap hpasses hanswer
  exact ⟨hcap, hpasses, hanswer, hfree, hagain (some 1) (by simp)⟩

end Expr

end Fluxion
