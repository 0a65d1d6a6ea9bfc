/-
# The parts of an expression

`Expr.parts` lists an expression together with everything inside it, in the order in which its
nodes are written: the node, then its operands from left to right.  A condition on an expression
that speaks of every node of some shape is a condition on its parts.

`Expr.operands` lists what stands directly under the root, and `Expr.withOperands` puts other
expressions there and keeps the root.  What does not depend on the kind of the root is proved by
induction over the operands (`Expr.inductOperands`).
-/
import Fluxion.Expr.Basic

namespace Fluxion

namespace Expr

/-! ## 1. Parts -/

mutual
/-- The expression and everything inside it. -/
def parts : Expr → List Expr
  | func f args => func f args :: partsAll args
  | bin op l r => bin op l r :: (l.parts ++ r.parts)
  | e => [e]

/-- The parts of several expressions. -/
def partsAll : List Expr → List Expr
  | [] => []
  | e :: es => e.parts ++ partsAll es
end

theorem mem_partsAll {p : Expr} : ∀ {es : List Expr}, p ∈ partsAll es ↔ ∃ e ∈ es, p ∈ e.parts
  | [] => by simp [partsAll]
  | e :: es => by
    have htail : p ∈ partsAll es ↔ ∃ d ∈ es, p ∈ d.parts := mem_partsAll
    simp [partsAll, htail]

theorem mem_parts_self (e : Expr) : e ∈ e.parts := by
  cases e <;> simp [parts]

@[simp] theorem mem_parts_num {p : Expr} {v : Float} : p ∈ (num v).parts ↔ p = num v :=
  List.mem_singleton

@[simp] theorem mem_parts_const {p : Expr} {c : String} : p ∈ (const c).parts ↔ p = const c :=
  List.mem_singleton

@[simp] theorem mem_parts_var {p : Expr} {x : String} : p ∈ (var x).parts ↔ p = var x :=
  List.mem_singleton

@[simp] theorem mem_parts_func {p : Expr} {f : String} {args : List Expr} :
    p ∈ (func f args).parts ↔ p = func f args ∨ ∃ a ∈ args, p ∈ a.parts :=
  List.mem_cons.trans (or_congr_right mem_partsAll)

@[simp] theorem mem_parts_bin {p : Expr} {op : Op} {l r : Expr} :
    p ∈ (bin op l r).parts ↔ p = bin op l r ∨ p ∈ l.parts ∨ p ∈ r.parts :=
  List.mem_cons.trans (or_congr_right List.mem_append)

section

variable {N : Expr → Prop}

/-- A condition on all parts of a call is one on the call and on all parts of its arguments. -/
theorem forall_parts_func {f : String} {args : List Expr} :
    (∀ p ∈ (func f args).parts, N p) ↔ N (func f args) ∧ ∀ a ∈ args, ∀ p ∈ a.parts, N p := by
  simp only [mem_parts_func]
  constructor
  · intro h
    exact ⟨h _ (Or.inl rfl), fun a ha p hp => h p (Or.inr ⟨a, ha, hp⟩)⟩
  · rintro ⟨hroot, hargs⟩ p (rfl | ⟨a, ha, hp⟩)
    · exact hroot
    · exact hargs a ha p hp

/-- A condition on all parts of two joined expressions is one on the whole and on all parts of
both. -/
theorem forall_parts_bin {op : Op} {l r : Expr} :
    (∀ p ∈ (bin op l r).parts, N p) ↔
      N (bin op l r) ∧ (∀ p ∈ l.parts, N p) ∧ ∀ p ∈ r.parts, N p := by
  simp only [mem_parts_bin, or_imp, forall_and, forall_eq]

end

/-- The parts of a part are parts. -/
theorem mem_parts_trans {p q e : Expr} (hp : p ∈ q.parts) (hq : q ∈ e.parts) : p ∈ e.parts := by
  induction e using induct with
  | num v | const c | var x | hole =>
    simp only [parts, List.mem_singleton] at hq
    rw [hq] at hp
    exact hp
  | func f args ih =>
    rcases mem_parts_func.mp hq with rfl | ⟨a, ha, hqa⟩
    · exact hp
    · exact mem_parts_func.mpr (Or.inr ⟨a, ha, ih a ha hqa⟩)
  | bin op l r ihl ihr =>
    rcases mem_parts_bin.mp hq with rfl | hql | hqr
    · exact hp
    · exact mem_parts_bin.mpr (Or.inr (Or.inl (ihl hql)))
    · exact mem_parts_bin.mpr (Or.inr (Or.inr (ihr hqr)))

/-! ## 2. Operands -/

/-- The expressions directly under the root, from left to right. -/
def operands : Expr → List Expr
  | func _ args => args
  | bin _ l r => [l, r]
  | _ => []

/-- Induction on expressions by their operands, whatever the root is. -/
theorem inductOperands {P : Expr → Prop} (node : ∀ e, (∀ a ∈ e.operands, P a) → P e) (e : Expr) :
    P e := by
  induction e using induct with
  | num | const | var | hole => exact node _ (by simp [operands])
  | func f args ih => exact node _ ih
  | bin op l r ihl ihr => exact node _ (by simp [operands, ihl, ihr])

theorem partsAll_eq_flatMap (es : List Expr) : partsAll es = es.flatMap parts := by
  induction es with
  | nil => rfl
  | cons e es ih => rw [partsAll, ih, List.flatMap_cons]

/-- The parts of an expression are itself and the parts of its operands. -/
theorem parts_eq_cons (e : Expr) : e.parts = e :: e.operands.flatMap parts := by
  cases e with
  | num | const | var | hole => rfl
  | func f args => rw [parts, partsAll_eq_flatMap, operands]
  | bin op l r => simp [parts, operands]

/-- The same root over other expressions, as many as there were. -/
def withOperands : Expr → List Expr → Expr
  | func f _, es => func f es
  | bin op _ _, [l, r] => bin op l r
  | e, _ => e

end Expr

end Fluxion
