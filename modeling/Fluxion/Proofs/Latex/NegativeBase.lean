/-
# Bases with a minus sign

An exponent binds tighter than a minus sign in front of its base, so a base that begins with a
minus sign needs parentheses.  The formula puts them around bases that are joined or negated.
It puts none around a negative number, although that is written with a minus sign too.

This is the only exception.  In every stage of every derivation, the base of a power begins with a
minus sign just when it is a negative number (`base_beginsWithMinus_iff`).  The reader makes no
negative numbers, but simplification does: `(1 - 3)^x` becomes `{-2}^{x}`, which reads as the
negation of `{2}^{x}` (`negativeBase_formula`).

What carries the proof is a property of single nodes (`Expr.IsLegible`) that simplification and
differentiation keep: names do not begin with a minus sign, and a formula can be written.
-/
import Fluxion.Proofs.Derivation.Course
import Fluxion.Proofs.Numeral.Distinct
import Fluxion.Proofs.Real.Derivation

namespace Fluxion

open Numeral

/-- The text begins with a minus sign. -/
def BeginsWithMinus (s : String) : Prop := s.toList.head? = some '-'

instance (s : String) : Decidable (BeginsWithMinus s) := inferInstanceAs (Decidable (_ = _))

namespace Latex

/-! ## 1. Numbers -/

section

variable {m : Nat} {e : ℤ} (h : IsCanonical m e) (he : e ≤ 971)

include he

/-- A positive number is written with a digit in front. -/
theorem number_ofParts_not_beginsWithMinus :
    ¬ BeginsWithMinus (number (ofParts m e h.pos)) := by
  obtain ⟨cs, htext, ⟨⟨c, rest, rfl, hdigit⟩, -⟩, -⟩ := numberText_spec (isCount_ofParts h he)
  have hdash : c ≠ '-' := by
    rintro rfl
    cases hdigit
  simp [number, isInf_ofParts h he, htext, BeginsWithMinus, hdash]

/-- A negated positive number is written with a minus sign in front. -/
theorem number_neg_ofParts_beginsWithMinus :
    BeginsWithMinus (number (-(ofParts m e h.pos))) := by
  simp [number, isInf_neg_ofParts h he, numberText_neg h he, BeginsWithMinus]

end

/-- **The formula of a number begins with a minus sign just when the number is less than zero.**
Zero is written without its sign. -/
theorem number_beginsWithMinus_iff {v : Float} : BeginsWithMinus (number v) ↔ v < 0.0 := by
  cases hnone : v.isNaN with
  | true =>
    obtain rfl : v = Float.nan := by simpa using hnone
    decide +kernel
  | false =>
    rcases unsigned_or_negated hnone with hv | ⟨w, hw, rfl⟩
    · cases hv with
      | zero | infinite => decide +kernel
      | finite h he =>
        exact iff_of_false (number_ofParts_not_beginsWithMinus h he)
          (by simp [lt_zero_iff, unpack_ofParts h he])
    · cases hw with
      | zero | infinite => decide +kernel
      | finite h he =>
        exact iff_of_true (number_neg_ofParts_beginsWithMinus h he)
          (by simp [lt_zero_iff, unpack_neg_ofParts h he, h.pos])

/-! ## 2. Bases -/

/-- What stands between the braces of a base whose formula is given. -/
def baseGroup (b : Expr) (left : String) : String := if groupsBase b then grouped left else left

theorem grouped_not_beginsWithMinus (s : String) : ¬ BeginsWithMinus (grouped s) := by
  simp [BeginsWithMinus, grouped]

theorem functionName_append_not_beginsWithMinus (f s : String) :
    ¬ BeginsWithMinus (functionName f ++ s) := by
  unfold functionName
  dsimp only
  split <;> simp [BeginsWithMinus]

theorem constantName_not_beginsWithMinus {c : String} (h : ¬ BeginsWithMinus c) :
    ¬ BeginsWithMinus (constantName c) := by
  unfold constantName
  split
  · decide
  · exact h

theorem call_not_beginsWithMinus {f : String} (h : f ≠ negation) (args : List Expr)
    (texts : List String) : ¬ BeginsWithMinus (call f args texts) := by
  unfold call
  split
  · rw [if_neg h]
    exact functionName_append_not_beginsWithMinus f _
  · exact functionName_append_not_beginsWithMinus f _

end Latex

namespace Expr

/-! ## 3. Legible expressions -/

/-- A formula can be written for the node, and if the node is a name, it does not begin with a minus
sign. -/
def IsLegible : Expr → Prop
  | const c => ¬ BeginsWithMinus c
  | var x => ¬ BeginsWithMinus x
  | bin op _ _ => op.isKnown = true
  | hole => False
  | num _ | func _ _ => True

/-- All nodes of the expression are legible. -/
def Legible (e : Expr) : Prop := ∀ p ∈ e.parts, p.IsLegible

@[simp] theorem legible_num (v : Float) : (num v).Legible := by
  simp [Legible, IsLegible]

@[simp] theorem legible_func_iff {f : String} {args : List Expr} :
    (func f args).Legible ↔ ∀ a ∈ args, a.Legible :=
  forall_parts_func.trans (and_iff_right trivial)

@[simp] theorem legible_bin_iff {op : Op} {l r : Expr} :
    (bin op l r).Legible ↔ op.isKnown = true ∧ l.Legible ∧ r.Legible :=
  forall_parts_bin

theorem Legible.proper {e : Expr} (h : e.Legible) : e.Proper :=
  ⟨fun _ _ _ hp => h _ hp, fun hhole => h _ hhole⟩

/-- The parts of a legible expression are legible. -/
theorem Legible.part {e p : Expr} (h : e.Legible) (hp : p ∈ e.parts) : p.Legible :=
  fun q hq => h q (mem_parts_trans hq hp)

theorem not_beginsWithMinus_of_isWord {cs : List Char} (h : IsWord cs) :
    ¬ BeginsWithMinus (String.ofList cs) := by
  obtain ⟨c, rest, rfl⟩ := List.exists_cons_of_ne_nil h.1
  have hletter : c.isAlpha = true := h.2 c List.mem_cons_self
  simp only [BeginsWithMinus, String.toList_ofList, List.head?_cons, Option.some.injEq]
  rintro rfl
  cases hletter

/-- What a text denotes is legible. -/
theorem Readable.legible {e : Expr} (he : e.Readable) : e.Legible := by
  induction he with
  | num => exact legible_num _
  | const hc =>
    have hall : ∀ c ∈ Scan.constants, ¬ BeginsWithMinus c := by decide
    simpa [Legible, IsLegible] using hall _ hc
  | var hword _ => simpa [Legible, IsLegible] using not_beginsWithMinus_of_isWord hword
  | neg _ ih => exact legible_func_iff.mpr (by simpa using ih)
  | call _ _ _ ih => exact legible_func_iff.mpr ih
  | bin hop _ _ ihl ihr => exact legible_bin_iff.mpr ⟨hop, ihl, ihr⟩

/-- Simplification keeps an expression legible. -/
theorem legible_of_normal {e u : Expr} (h : e.normal = .ok u) (he : e.Legible) : u.Legible :=
  OfNodes.forall_parts_normal ⟨fun _ => trivial, fun _ _ => trivial, fun hop => hop⟩ h he

theorem legible_outer {a : Expr} (ha : a.Legible) (f : String) :
    (Derivative.outer f a).Legible := by
  unfold Derivative.outer
  repeat' split
  all_goals simp [Op.isKnown, ha]

theorem legible_joined {op : Op} {l r dl dr : Expr} (hop : op.isKnown = true) (hl : l.Legible)
    (hr : r.Legible) (hdl : dl.Legible) (hdr : dr.Legible) :
    (Derivative.joined op l r dl dr).Legible := by
  unfold Derivative.joined
  split
  · simp [Derivative.product, Op.isKnown, hl, hr, hdl, hdr]
  · simp [Derivative.quotient, Op.isKnown, hl, hr, hdl, hdr]
  · simp [Derivative.power, Op.isKnown, hl, hr, hdl, hdr]
  · exact legible_bin_iff.mpr ⟨hop, hdl, hdr⟩

/-- **Differentiation keeps an expression legible**: the rules write numbers, calls and known
operators around what is there. -/
theorem legible_of_derivative {wrt : Option String} {e d : Expr} (h : e.derivative wrt = .ok d)
    (he : e.Legible) : d.Legible := by
  induction e using induct generalizing d with
  | num v | const c | var x =>
    obtain rfl := Except.ok.inj h
    exact legible_num _
  | hole => cases h
  | func f args ih =>
    obtain ⟨a, da, rfl, hda, rfl⟩ := exists_of_derivative_func h
    have ha : a.Legible := legible_func_iff.mp he a (by simp)
    exact legible_bin_iff.mpr ⟨rfl, ih a (by simp) hda ha, legible_outer ha f⟩
  | bin op l r ihl ihr =>
    obtain ⟨hop, hl, hr⟩ := legible_bin_iff.mp he
    obtain ⟨-, dl, dr, hdl, hdr, rfl⟩ := exists_of_derivative_bin h
    exact legible_joined hop hl hr (ihl hdl hl) (ihr hdr hr)

/-! ## 4. Powers -/

theorem latex_pow {b x : Expr} {left right : String} (hb : b.latex = .ok left)
    (hx : x.latex = .ok right) : (bin .pow b x).latex =
      .ok (Latex.braced (Latex.baseGroup b left) ++ "^" ++ Latex.braced right) := by
  rw [latex, hb, hx]
  rfl

/-- A base that is no number does not begin with a minus sign: if it is joined or negated it is
grouped, and otherwise it is a name or a call. -/
theorem Legible.baseGroup_not_beginsWithMinus {b : Expr} {left : String} (h : b.Legible)
    (hlatex : b.latex = .ok left) (hnum : ∀ v, b ≠ num v) :
    ¬ BeginsWithMinus (Latex.baseGroup b left) := by
  unfold Latex.baseGroup
  split
  · exact Latex.grouped_not_beginsWithMinus left
  rename_i hbare
  cases b with
  | num v => exact absurd rfl (hnum v)
  | const c =>
    obtain rfl := Except.ok.inj hlatex
    exact Latex.constantName_not_beginsWithMinus (h _ (mem_parts_self _))
  | var x =>
    obtain rfl := Except.ok.inj hlatex
    exact h _ (mem_parts_self _)
  | func f args =>
    have hf : f ≠ negation := by simpa [Latex.groupsBase] using hbare
    rw [latex] at hlatex
    cases htexts : latexAll args with
    | error x => rw [htexts] at hlatex; cases hlatex
    | ok texts =>
      rw [htexts] at hlatex
      obtain rfl := Except.ok.inj hlatex
      exact Latex.call_not_beginsWithMinus hf args texts
  | bin op l r => exact absurd rfl hbare
  | hole => cases hlatex

/-- **The base of a power begins with a minus sign just when it is a negative number.** -/
theorem Legible.baseGroup_beginsWithMinus_iff {b : Expr} {left : String} (h : b.Legible)
    (hlatex : b.latex = .ok left) :
    BeginsWithMinus (Latex.baseGroup b left) ↔ ∃ v, b = num v ∧ v < 0.0 := by
  by_cases hnum : ∃ v, b = num v
  · obtain ⟨v, rfl⟩ := hnum
    obtain rfl := Except.ok.inj hlatex
    simpa [Latex.baseGroup, Latex.groupsBase] using Latex.number_beginsWithMinus_iff
  · push Not at hnum
    exact iff_of_false (h.baseGroup_not_beginsWithMinus hlatex hnum) (by simp [hnum])

end Expr

namespace Derivation

/-! ## 5. Stages -/

theorem legible_of_mem_stages {settings : Settings} {wrt : Option String} {text : String} :
    ∀ s ∈ (ofText settings wrt text).stages, s.expr.Legible :=
  forall_stages (fun _ => Expr.Readable.legible) (fun _ _ => Expr.legible_of_normal)
    (fun _ _ => Expr.legible_of_derivative) settings text

/-- **In every stage of a derivation a base begins with a minus sign just when it is a negative
number.** -/
theorem base_beginsWithMinus_iff {settings : Settings} {wrt : Option String} {text : String}
    {s : Snapshot} {b x : Expr} (hs : s ∈ (ofText settings wrt text).stages)
    (hpower : .bin .pow b x ∈ s.expr.parts) :
    ∃ left right, b.latex = .ok left ∧ x.latex = .ok right ∧
      (Expr.bin .pow b x).latex =
        .ok (Latex.braced (Latex.baseGroup b left) ++ "^" ++ Latex.braced right) ∧
      (BeginsWithMinus (Latex.baseGroup b left) ↔ ∃ v, b = .num v ∧ v < 0.0) := by
  obtain ⟨-, hb, hx⟩ := Expr.legible_bin_iff.mp ((legible_of_mem_stages s hs).part hpower)
  obtain ⟨left, hleft⟩ := Expr.exists_latex hb.proper
  obtain ⟨right, hright⟩ := Expr.exists_latex hx.proper
  exact ⟨left, right, hleft, hright, Expr.latex_pow hleft hright,
    hb.baseGroup_beginsWithMinus_iff hleft⟩

/-! ## 6. A negative base -/

/-- The tokens of `(1 - 3)`. -/
def differenceTokens : List Token :=
  [⟨.leftParen, "("⟩, ⟨.number, "1"⟩, ⟨.op, "-"⟩, ⟨.number, "3"⟩, ⟨.rightParen, ")"⟩]

theorem derives_difference :
    Grammar.Derives .unary differenceTokens (.bin .sub (.num 1.0) (.num 3.0)) := by
  have hone : Grammar.Derives .term [⟨.number, "1"⟩] (.num 1.0) :=
    .ofFactor (.ofPower (.ofUnary (.ofPrimary (.number (by decide +kernel)))))
  have hthree : Grammar.Derives .factor [⟨.number, "3"⟩] (.num 3.0) :=
    .ofPower (.ofUnary (.ofPrimary (.number (by decide +kernel))))
  have hgroup : Grammar.Derives .primary
      (⟨.leftParen, "("⟩ :: (([⟨.number, "1"⟩] ++ ⟨.op, "-"⟩ :: [⟨.number, "3"⟩]) ++
        [⟨.rightParen, ")"⟩])) (.bin .sub (.num 1.0) (.num 3.0)) :=
    .group rfl rfl (.sum hone rfl rfl hthree)
  exact .ofPrimary hgroup

/-- The base of `(1 - 3)^x` is folded to a negative number. -/
theorem completes_negativeBase :
    (ofText {} none "(1 - 3)^x").Completes
      (.bin .pow (.bin .sub (.num 1.0) (.num 3.0)) (.var "x"))
      (.bin .pow (.num (-2.0)) (.var "x"))
      (.bin .mul (.bin .pow (.num (-2.0)) (.var "x"))
        (.bin .add (.bin .mul (.num 1.0) (.func "ln" [.num (-2.0)]))
          (.bin .div (.bin .mul (.var "x") (.num 0.0)) (.num (-2.0)))))
      (.bin .mul (.bin .pow (.num (-2.0)) (.var "x")) (.func "ln" [.num (-2.0)])) := by
  have hpower : Grammar.Derives .power (differenceTokens ++ ⟨.op, "^"⟩ :: [⟨.var, "x"⟩])
      (.bin .pow (.bin .sub (.num 1.0) (.num 3.0)) (.var "x")) :=
    .raise derives_difference rfl (.ofUnary (.ofPrimary (.var "x")))
  have hread : (Expr.ofText (some 500) "(1 - 3)^x").1 =
      .ok (.bin .pow (.bin .sub (.num 1.0) (.num 3.0)) (.var "x")) :=
    ofText_of_derives (by decide +kernel) (.ofFactor (.ofPower hpower)) (by decide)
  exact completes_of_normal hread rfl (by decide) rfl rfl rfl

theorem mem_stages_negativeBase :
    ⟨.simplified, .bin .pow (.num (-2.0)) (.var "x")⟩ ∈
      (ofText {} none "(1 - 3)^x").stages := by
  have hstages := completes_negativeBase
  rw [Completes] at hstages
  rw [hstages]
  simp

/-- In the second stage of `(1 - 3)^x` the base is a number that was not typed. -/
theorem base_beginsWithMinus_iff_folded :
    (⟨.simplified, .bin .pow (.num (-2.0)) (.var "x")⟩ ∈
        (ofText {} none "(1 - 3)^x").stages ∧
      .bin .pow (.num (-2.0)) (.var "x") ∈ (Expr.bin .pow (.num (-2.0)) (.var "x")).parts) ∧
    ∃ left right, (Expr.num (-2.0)).latex = .ok left ∧ (Expr.var "x").latex = .ok right ∧
      (Expr.bin .pow (.num (-2.0)) (.var "x")).latex =
        .ok (Latex.braced (Latex.baseGroup (.num (-2.0)) left) ++ "^" ++ Latex.braced right) ∧
      (BeginsWithMinus (Latex.baseGroup (.num (-2.0)) left) ↔
        ∃ v, Expr.num (-2.0) = .num v ∧ v < 0.0) :=
  ⟨⟨mem_stages_negativeBase, Expr.mem_parts_self _⟩,
    base_beginsWithMinus_iff mem_stages_negativeBase (Expr.mem_parts_self _)⟩

/-- **A negative base is shown without parentheses.**  The derivation of `(1 - 3)^x` succeeds, and
its second stage is the formula of a negated power. -/
theorem negativeBase_formula :
    ∃ e p q u, (ofText {} none "(1 - 3)^x").Completes e p q u ∧
      p.latex = .ok "\x7b-2\x7d^\x7bx\x7d" ∧ ∃ b x left,
        Expr.bin .pow b x ∈ p.parts ∧ b.latex = .ok left ∧
          BeginsWithMinus (Latex.baseGroup b left) :=
  ⟨_, _, _, _, completes_negativeBase, by decide +kernel, .num (-2.0), .var "x", "-2",
    Expr.mem_parts_self _, by decide +kernel, by decide +kernel⟩

end Derivation

end Fluxion
