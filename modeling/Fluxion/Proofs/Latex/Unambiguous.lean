/-
# Formulas are unambiguous

Every expression that can be typeset is written as a formula that says the same up to grouping
(`exists_writes`): a sum of sums is written without parentheses, and so is a product of products; a
negative number is written as the negation of its magnitude, and zero without its sign.  Nothing
else is lost.  As a formula is determined by its source, two expressions with one source are alike,
and then they have the same value.

The parentheses are what makes this true.  An operand is grouped where its formula would otherwise
say something else: a sum under a product, a difference under a sum, a sum behind a minus sign, and
a joined operand of a negation.
-/
import Fluxion.Proofs.Expr.Proper
import Fluxion.Proofs.Latex.Formula
import Fluxion.Proofs.Real.Value

namespace Fluxion

open Numeral

/-! ## 1. Expressions that are alike -/

/-- The expressions differ only in the grouping of sums and products, in whether a negative number
is written as a negation, and in the sign of zero. -/
inductive Alike : Expr → Expr → Prop where
  | refl (e : Expr) : Alike e e
  | symm {d e : Expr} : Alike d e → Alike e d
  | trans {d e f : Expr} : Alike d e → Alike e f → Alike d f
  | bin (op : Op) {l l' r r' : Expr} : Alike l l' → Alike r r' →
      Alike (.bin op l r) (.bin op l' r')
  | func (f : String) (before after : List Expr) {a a' : Expr} : Alike a a' →
      Alike (.func f (before ++ a :: after)) (.func f (before ++ a' :: after))
  | add_assoc (a b c : Expr) : Alike (.bin .add a (.bin .add b c)) (.bin .add (.bin .add a b) c)
  | mul_assoc (a b c : Expr) : Alike (.bin .mul a (.bin .mul b c)) (.bin .mul (.bin .mul a b) c)
  | negative {v : Float} : 0.0 < v → Alike (.num (-v)) (.neg (.num v))
  | zero : Alike (.num (-0.0)) (.num 0.0)

namespace Alike

instance : Trans Alike Alike Alike := ⟨Alike.trans⟩

theorem neg {a a' : Expr} (h : Alike a a') : Alike a.neg a'.neg := func negation [] [] h

/-- Functions of alike arguments are alike. -/
theorem func_all (f : String) {as bs : List Expr} (h : List.Forall₂ Alike as bs) :
    ∀ before, Alike (.func f (before ++ as)) (.func f (before ++ bs)) := by
  induction h with
  | nil => exact fun before => refl _
  | @cons a b as bs hab _ ih =>
    intro before
    have hrest := ih (before ++ [b])
    simp only [List.append_assoc, List.singleton_append] at hrest
    exact (func f before as hab).trans hrest

open Latex

/-- Operands joined by one associative operator are grouped in any way. -/
theorem chain {op : Op}
    (hassoc : ∀ a b c, Alike (.bin op a (.bin op b c)) (.bin op (.bin op a b) c))
    {rest : List (Op × Expr)} (hrest : ∀ x ∈ rest, x.1 = op) (a b : Expr) :
    Alike (Chain.value ⟨.bin op a b, rest⟩) (.bin op a (Chain.value ⟨b, rest⟩)) := by
  induction rest generalizing a b with
  | nil => exact refl _
  | cons x rest ih =>
    obtain ⟨op', c⟩ := x
    obtain rfl : op' = op := hrest (op', c) List.mem_cons_self
    have htail : ∀ x ∈ rest, x.1 = op' := fun x hx => hrest x (List.mem_cons_of_mem _ hx)
    calc
      Alike (Chain.value ⟨.bin op' (.bin op' a b) c, rest⟩)
          (.bin op' (.bin op' a b) (Chain.value ⟨c, rest⟩)) := ih htail _ c
      Alike _ (.bin op' a (.bin op' b (Chain.value ⟨c, rest⟩))) := (hassoc a b _).symm
      Alike _ (.bin op' a (Chain.value ⟨.bin op' b c, rest⟩)) :=
        bin op' (refl a) (ih htail b c).symm

theorem append {op : Op}
    (hassoc : ∀ a b c, Alike (.bin op a (.bin op b c)) (.bin op (.bin op a b) c))
    {c d : Chain} (hrest : ∀ x ∈ d.rest, x.1 = op) :
    Alike (c.append op d).value (.bin op c.value d.value) := by
  rw [Chain.value_append]
  exact chain hassoc hrest c.value d.first

end Alike

/-! ## 2. Expressions that can be typeset -/

/-- The expression can be typeset: its operators are known, its numbers are numbers, its names are
words, the names of its functions may have primes, and its functions have arguments. -/
inductive Typeset : Expr → Prop where
  | num {v : Float} : v.isNaN = false → Typeset (.num v)
  | const {c : String} : c ∈ Scan.constants → Typeset (.const c)
  | var {cs : List Char} : IsWord cs → String.ofList cs ∉ Scan.constants →
      Typeset (.var (String.ofList cs))
  | neg {a : Expr} : Typeset a → Typeset a.neg
  | call {cs : List Char} (primes : Nat) {args : List Expr} : IsWord cs → args ≠ [] →
      (∀ a ∈ args, Typeset a) →
      Typeset (.func (String.ofList (cs ++ List.replicate primes '\'')) args)
  | bin {op : Op} {l r : Expr} : op.isKnown = true → Typeset l → Typeset r → Typeset (.bin op l r)

theorem Typeset.proper {e : Expr} (h : Typeset e) : e.Proper := by
  induction h with
  | num _ => exact Expr.proper_num _
  | const _ => exact Expr.proper_const _
  | var _ _ => exact Expr.proper_var _
  | @neg a _ ih => exact Expr.proper_func_iff.mpr fun b hb => by rwa [List.mem_singleton.mp hb]
  | call primes _ _ _ ih => exact Expr.proper_func_iff.mpr ih
  | bin hop _ _ ihl ihr => exact Expr.proper_bin_iff.mpr ⟨hop, ihl, ihr⟩

namespace Latex

open Formula

/-! ## 3. Formulas of expressions -/

/-- The expression is a difference. -/
def isDifference : Expr → Bool
  | .bin op _ _ => op == .sub
  | _ => false

/-- What the root of an expression says about its formula.  Where it is not a difference, the terms
are added; where it is not a sum either, there is one term; where it is not joined by a sign at all,
there is one unit. -/
def Fits : Expr → Formula .sum → Prop
  | .bin .sub _ _, _ => True
  | .bin .add _ _, s => ∀ x ∈ s.meaning.rest, x.1 = .add
  | .bin .mul _ _, s => ∃ p, s = whole p
  | _, s => ∃ u, s = whole (single u)

variable {e : Expr} {s : Formula .sum}

theorem Fits.added (h : Fits e s) (he : isDifference e = false) :
    ∀ x ∈ s.meaning.rest, x.1 = .add := by
  unfold Fits at h
  split at h
  · cases he
  · exact h
  · obtain ⟨p, rfl⟩ := h
    nofun
  · obtain ⟨u, rfl⟩ := h
    nofun

theorem Fits.product (h : Fits e s) (he : isSum e = false) : ∃ p, s = whole p := by
  unfold Fits at h
  split at h
  · cases he
  · cases he
  · exact h
  · obtain ⟨u, rfl⟩ := h
    exact ⟨single u, rfl⟩

theorem Fits.unit (h : Fits e s) (he : e.isBin = false) : ∃ u, s = whole (single u) := by
  unfold Fits at h
  split at h
  · cases he
  · cases he
  · cases he
  · exact h

/-- The formula is written for the expression, and says the same. -/
structure Writes (s : Formula .sum) (e : Expr) : Prop where
  latex : e.latex = .ok (String.ofList s.chars)
  alike : Alike s.meaning.value e
  fits : Fits e s

/-- Source text between parentheses is a group. -/
theorem grouped_ofList (s : Formula .sum) :
    grouped (String.ofList s.chars) = String.ofList (group s).chars := by
  simp [grouped, opening, closing, ← String.toList_inj]

namespace Writes

/-- An operand of a product, or the second operand of a difference. -/
theorem operand (h : Writes s e) :
    ∃ p : Formula .product,
      (if isSum e then grouped (String.ofList s.chars) else String.ofList s.chars) =
        String.ofList p.chars ∧ Alike p.meaning.value e := by
  cases he : isSum e with
  | true => exact ⟨single (group s), grouped_ofList s, h.alike⟩
  | false =>
    obtain ⟨p, rfl⟩ := h.fits.product he
    exact ⟨p, rfl, h.alike⟩

/-- An operand of a sum. -/
theorem term (h : Writes s e) :
    ∃ t : Formula .sum,
      (if isDifference e then grouped (String.ofList s.chars) else String.ofList s.chars) =
        String.ofList t.chars ∧ Alike t.meaning.value e ∧ ∀ x ∈ t.meaning.rest, x.1 = .add := by
  cases he : isDifference e with
  | true => exact ⟨whole (single (group s)), grouped_ofList s, h.alike, nofun⟩
  | false => exact ⟨s, rfl, h.alike, h.fits.added he⟩

/-- The operand of a negation. -/
theorem negated (h : Writes s e) :
    ∃ u : Formula .unit,
      (if e.isBin then grouped (String.ofList s.chars) else String.ofList s.chars) =
        String.ofList u.chars ∧ Alike u.meaning e := by
  cases he : e.isBin with
  | true => exact ⟨group s, grouped_ofList s, h.alike⟩
  | false =>
    obtain ⟨u, rfl⟩ := h.fits.unit he
    exact ⟨u, rfl, h.alike⟩

/-- The base of a power. -/
theorem base (h : Writes s e) :
    ∃ t : Formula .sum,
      (if groupsBase e then grouped (String.ofList s.chars) else String.ofList s.chars) =
        String.ofList t.chars ∧ Alike t.meaning.value e := by
  cases groupsBase e with
  | true => exact ⟨whole (single (group s)), grouped_ofList s, h.alike⟩
  | false => exact ⟨s, rfl, h.alike⟩

end Writes

/-- A unit may be written for every expression. -/
theorem Writes.of_unit {u : Formula .unit} (hlatex : e.latex = .ok (String.ofList u.chars))
    (halike : Alike u.meaning e) : Writes (whole (single u)) e := by
  refine ⟨hlatex, halike, ?_⟩
  unfold Fits
  split
  · trivial
  · nofun
  · exact ⟨single u, rfl⟩
  · exact ⟨u, rfl⟩

/-! ## 4. Numbers and names -/

theorem latex_of_isCount {v : Float} (hv : IsCount v) :
    (Expr.num v).latex = .ok (String.ofList (numberText v).toList) := by
  rw [Expr.latex, Latex.number, hv.isInf_eq_false, String.ofList_toList]
  rfl

/-- A number is written with its sign in front; the sign of zero is lost. -/
theorem exists_writes_num {v : Float} (hv : v.isNaN = false) : ∃ s, Writes s (.num v) := by
  rcases unsigned_or_negated hv with hunsigned | ⟨w, hunsigned, rfl⟩
  · by_cases hinfinite : v = infinity
    · subst hinfinite
      exact ⟨_, .of_unit (u := infinite) rfl (.refl _)⟩
    · have hcount : IsCount v := ⟨hunsigned, hinfinite⟩
      exact ⟨_, .of_unit (u := .number ⟨v, hcount⟩) (latex_of_isCount hcount) (.refl _)⟩
  · cases hunsigned with
    | zero =>
      have hcount : IsCount 0.0 := ⟨.zero, by decide⟩
      have hlatex : (Expr.num (-0.0)).latex =
          .ok (String.ofList (Formula.number ⟨0.0, hcount⟩).chars) := by
        have htext : Latex.number (-0.0) = numberText 0.0 := by decide +kernel
        rw [chars, String.ofList_toList, Expr.latex, htext]
      exact ⟨_, .of_unit (u := .number ⟨0.0, hcount⟩) hlatex (.symm .zero)⟩
    | infinite => exact ⟨_, .of_unit (u := minus infinite) rfl (.symm (.negative (by decide)))⟩
    | @finite m n h hn =>
      have hcount := isCount_ofParts h hn
      have hlatex : (Expr.num (-(ofParts m n h.pos))).latex =
          .ok (String.ofList (minus (.number ⟨_, hcount⟩)).chars) := by
        rw [Expr.latex, Latex.number, isInf_neg_ofParts h hn, numberText_neg h hn]
        rfl
      exact ⟨_, .of_unit (u := minus (.number ⟨_, hcount⟩)) hlatex
        (.symm (.negative (zero_lt_ofParts h hn)))⟩

theorem exists_writes_const {c : String} (hc : c ∈ Scan.constants) : ∃ s, Writes s (.const c) := by
  simp only [Scan.constants, List.mem_cons, List.not_mem_nil, or_false] at hc
  rcases hc with rfl | rfl
  · have hword : IsWord ['e'] := ⟨by decide, List.all_eq_true.mp (by decide)⟩
    exact ⟨_, .of_unit (u := word ⟨['e'], hword⟩) rfl (.refl _)⟩
  · exact ⟨_, .of_unit (u := pi) rfl (.refl _)⟩

theorem exists_writes_var {cs : List Char} (hword : IsWord cs)
    (hvar : String.ofList cs ∉ Scan.constants) : ∃ s, Writes s (.var (String.ofList cs)) := by
  have hne : cs ≠ ['e'] := by
    rintro rfl
    exact hvar (by decide)
  refine ⟨_, .of_unit (u := word ⟨cs, hword⟩) rfl ?_⟩
  rw [meaning, if_neg hne]
  exact .refl _

/-! ## 5. Functions and operators -/

theorem exists_writes_neg {a : Expr} (h : ∃ s, Writes s a) : ∃ s, Writes s a.neg := by
  obtain ⟨s, hs⟩ := h
  obtain ⟨u, htext, halike⟩ := hs.negated
  have hlatex : a.neg.latex = .ok (String.ofList (minus u).chars) := by
    have hsign : "-" ++ String.ofList u.chars = String.ofList ('-' :: u.chars) := by
      simp
    simp only [Expr.neg, Expr.latex, Expr.latexAll, hs.latex, bind, Except.bind, pure, Except.pure,
      Latex.call, if_true, htext, hsign, chars]
  exact ⟨_, .of_unit (u := minus u) hlatex halike.neg⟩

/-- Arguments that have formulas are written one after the other. -/
theorem exists_writes_all {args : List Expr} (hne : args ≠ [])
    (h : ∀ a ∈ args, ∃ s, Writes s a) :
    ∃ (texts : List String) (s : Formula .arguments), Expr.latexAll args = .ok texts ∧
      texts.length = args.length ∧ ", ".intercalate texts = String.ofList s.chars ∧
      List.Forall₂ Alike s.meaning args := by
  induction args with
  | nil => exact absurd rfl hne
  | cons a args ih =>
    obtain ⟨t, ht⟩ := h a List.mem_cons_self
    cases args with
    | nil =>
      refine ⟨[String.ofList t.chars], one t, ?_, rfl, ?_, .cons ht.alike .nil⟩
      · rw [Expr.latexAll, ht.latex]
        rfl
      · rw [String.intercalate_singleton, chars]
    | cons b args =>
      obtain ⟨texts, s, hlatex, hlength, hchars, halike⟩ :=
        ih (List.cons_ne_nil b args) fun d hd => h d (List.mem_cons_of_mem a hd)
      obtain ⟨text, texts, rfl⟩ := List.exists_cons_of_length_eq_add_one hlength
      refine ⟨String.ofList t.chars :: text :: texts, more t s, ?_, by simp [hlength], ?_,
        .cons ht.alike halike⟩
      · rw [Expr.latexAll, ht.latex, hlatex]
        rfl
      · rw [String.intercalate_cons_cons, hchars]
        simp [← String.toList_inj]

theorem exists_writes_call {cs : List Char} (primes : Nat) {args : List Expr} (hword : IsWord cs)
    (hne : args ≠ []) (h : ∀ a ∈ args, ∃ s, Writes s a) :
    ∃ s, Writes s (.func (String.ofList (cs ++ List.replicate primes '\'')) args) := by
  obtain ⟨texts, s, hlatex, hlength, hchars, halike⟩ := exists_writes_all hne h
  let f : Name := ⟨cs, hword, primes⟩
  have hnegation : f.text ≠ negation := f.text_ne_negation
  have hcall : Latex.call f.text args texts =
      functionName f.text ++ grouped (", ".intercalate texts) := by
    unfold Latex.call
    split
    · rw [if_neg hnegation, String.intercalate_singleton]
    · rfl
  have htext : Latex.call f.text args texts = String.ofList (Formula.call f s).chars := by
    rw [hcall, f.functionName_text, hchars]
    simp [grouped, opening, closing, ← String.toList_inj]
  have hfunc : (Expr.func f.text args).latex = .ok (String.ofList (Formula.call f s).chars) := by
    rw [Expr.latex, hlatex, ← htext]
    rfl
  exact ⟨_, .of_unit (u := .call f s) hfunc (Alike.func_all f.text halike [])⟩

/-- A sum groups differences, a product groups sums and differences, and a difference groups
nothing, as far as the ranks of operators go. -/
theorem grouped_signed {e : Expr} (he : e.Proper) (isLeft : Bool) :
    Expr.grouped .add e isLeft = isDifference e ∧ Expr.grouped .sub e isLeft = false ∧
      Expr.grouped .mul e isLeft = isSum e := by
  cases e with
  | num | const | var | func | hole => exact ⟨rfl, rfl, rfl⟩
  | bin op l r =>
    have hop : op.isKnown = true := (Expr.proper_bin_iff.mp he).1
    cases op with
    | other symbol => cases hop
    | add | sub | mul | div | pow => cases isLeft <;> exact ⟨rfl, rfl, rfl⟩

/-- A sum, a difference or a product is written with its sign between the operands. -/
theorem binary_of_signed {op : Op} {l r : Expr} (left right : String)
    (hop : op = .add ∨ op = .sub ∨ op = .mul) (hl : l.Proper) (hr : r.Proper) :
    binary op l r left right =
      .ok (joined op (if Expr.grouped op l true then grouped left else left)
        (if Expr.grouped op r false || (op == .sub && isSum r) then grouped right else right)) := by
  have hknown : op.isKnown = true := by rcases hop with rfl | rfl | rfl <;> rfl
  have hleft := Expr.isGrouped_eq_ok true hknown hl
  have hright := Expr.isGrouped_eq_ok false hknown hr
  rcases hop with rfl | rfl | rfl <;>
    simp only [binary, hleft, hright, bind, Except.bind, pure, Except.pure]

section

variable {l r : Expr} {s t : Formula .sum}

theorem exists_writes_add (hl : l.Proper) (hr : r.Proper) (hs : Writes s l) (ht : Writes t r) :
    ∃ s, Writes s (.bin .add l r) := by
  obtain ⟨a, ha, halike, hadded⟩ := hs.term
  obtain ⟨b, hb, halike', hadded'⟩ := ht.term
  have hlatex : (Expr.bin .add l r).latex = .ok (String.ofList (a.joinAll false b).chars) := by
    rw [Expr.latex, hs.latex, ht.latex, chars_joinAll]
    have hsub : (Op.add == Op.sub) = false := rfl
    simp only [bind, Except.bind, binary_of_signed _ _ (.inl rfl) hl hr, (grouped_signed hl true).1,
      (grouped_signed hr false).1, hsub, Bool.false_and, Bool.or_false, ha, hb]
    simp [joined, Op.symbol, signChars, ← String.toList_inj]
  refine ⟨_, hlatex, ?_, ?_⟩
  -- The terms of the right operand are read as joined to the left one, one by one.
  · rw [meaning_joinAll]
    exact (Alike.append Alike.add_assoc hadded').trans (.bin .add halike halike')
  · intro x hx
    simp only [meaning_joinAll, Chain.append, List.mem_append, List.mem_cons] at hx
    rcases hx with hx | rfl | hx
    · exact hadded x hx
    · rfl
    · exact hadded' x hx

theorem exists_writes_sub (hl : l.Proper) (hr : r.Proper) (hs : Writes s l) (ht : Writes t r) :
    ∃ s, Writes s (.bin .sub l r) := by
  obtain ⟨p, hp, halike⟩ := ht.operand
  have hlatex : (Expr.bin .sub l r).latex =
      .ok (String.ofList (s.joinAll true (whole p)).chars) := by
    rw [Expr.latex, hs.latex, ht.latex, chars_joinAll]
    simp only [bind, Except.bind, binary_of_signed _ _ (.inr (.inl rfl)) hl hr,
      (grouped_signed hl true).2.1, (grouped_signed hr false).2.1, beq_self_eq_true, Bool.false_or,
      Bool.true_and, Bool.false_eq_true, if_false, hp]
    simp [joined, Op.symbol, signChars, ← String.toList_inj]
  -- The right operand is one term, so it is read as it was meant.
  refine ⟨_, hlatex, ?_, trivial⟩
  rw [meaning_joinAll, meaning, Chain.value_append_singleton]
  exact .bin .sub hs.alike halike

theorem exists_writes_mul (hl : l.Proper) (hr : r.Proper) (hs : Writes s l) (ht : Writes t r) :
    ∃ s, Writes s (.bin .mul l r) := by
  obtain ⟨p, hp, halike⟩ := hs.operand
  obtain ⟨q, hq, halike'⟩ := ht.operand
  have hlatex : (Expr.bin .mul l r).latex = .ok (String.ofList (whole (p.timesAll q)).chars) := by
    rw [Expr.latex, hs.latex, ht.latex, chars, chars_timesAll]
    have hsub : (Op.mul == Op.sub) = false := rfl
    simp only [bind, Except.bind, binary_of_signed _ _ (.inr (.inr rfl)) hl hr,
      (grouped_signed hl true).2.2, (grouped_signed hr false).2.2, hsub, Bool.false_and,
      Bool.or_false, hp, hq]
    simp [joined, dot, ← String.toList_inj]
  refine ⟨_, hlatex, ?_, p.timesAll q, rfl⟩
  rw [meaning, meaning_timesAll, Chain.value_singleton]
  exact (Alike.append Alike.mul_assoc (op_of_mem_product q)).trans (.bin .mul halike halike')

theorem exists_writes_div (hs : Writes s l) (ht : Writes t r) : ∃ s, Writes s (.bin .div l r) := by
  have hlatex : (Expr.bin .div l r).latex = .ok (String.ofList (fraction s t).chars) := by
    rw [Expr.latex, hs.latex, ht.latex]
    simp [bind, Except.bind, binary, braced, ← String.toList_inj]
  exact ⟨_, .of_unit hlatex (.bin .div hs.alike ht.alike)⟩

theorem exists_writes_pow (hs : Writes s l) (ht : Writes t r) : ∃ s, Writes s (.bin .pow l r) := by
  obtain ⟨b, hb, halike⟩ := hs.base
  have hlatex : (Expr.bin .pow l r).latex = .ok (String.ofList (power b t).chars) := by
    rw [Expr.latex, hs.latex, ht.latex]
    simp [bind, Except.bind, binary, braced, hb, ← String.toList_inj]
  exact ⟨_, .of_unit hlatex (.bin .pow halike ht.alike)⟩

end

/-! ## 6. One source, one meaning -/

/-- **Every expression that can be typeset is written as a formula that says the same.** -/
theorem exists_writes {e : Expr} (h : Typeset e) : ∃ s, Writes s e := by
  induction h with
  | num hnumber => exact exists_writes_num hnumber
  | const hc => exact exists_writes_const hc
  | var hword hvar => exact exists_writes_var hword hvar
  | neg _ ih => exact exists_writes_neg ih
  | call primes hword hne _ ih => exact exists_writes_call primes hword hne ih
  | @bin op l r hop hl hr ihl ihr =>
    obtain ⟨s, hs⟩ := ihl
    obtain ⟨t, ht⟩ := ihr
    cases op with
    | add => exact exists_writes_add hl.proper hr.proper hs ht
    | sub => exact exists_writes_sub hl.proper hr.proper hs ht
    | mul => exact exists_writes_mul hl.proper hr.proper hs ht
    | div => exact exists_writes_div hs ht
    | pow => exact exists_writes_pow hs ht
    | other symbol => cases hop

/-- **Two expressions with one source are alike.** -/
theorem Writes.alike_of_latex_eq {d e : Expr} {s t : Formula .sum} (hd : Writes s d)
    (he : Writes t e) (h : d.latex = e.latex) : Alike d e := by
  rw [hd.latex, he.latex] at h
  obtain rfl : s = t := Formula.chars_injective (String.ofList_injective (Except.ok.inj h))
  exact hd.alike.symm.trans he.alike

end Latex

/-! ## 7. Values -/

section

variable {R : RealReading} {env : String → ℝ}

/-- A negated number stands for the opposite real number. -/
theorem realOf?_neg {v : Float} (h : v.isNaN = false) : realOf? (-v) = (realOf? v).map (-·) := by
  unfold realOf?
  rw [unpack_neg h]
  generalize v.toModel.unpack = u
  cases u with
  | notANumber | infinity s => rfl
  | zero s => simp [Float.Model.UnpackedFloat.neg]
  | finite s m e hm =>
    cases s <;> simp [Float.Model.UnpackedFloat.neg, Float.Model.UnpackedFloat.Sign.apply]

theorem RealReading.valueAll?_congr {a a' : Expr} (h : R.value? env a = R.value? env a')
    (after : List Expr) : ∀ before : List Expr,
      R.valueAll? env (before ++ a :: after) = R.valueAll? env (before ++ a' :: after)
  | [] => by simp only [List.nil_append, RealReading.valueAll?, h]
  | b :: before => by
    simp only [List.cons_append, RealReading.valueAll?, valueAll?_congr h after before]

/-- An operator that is associative on the reals is associative in expressions. -/
theorem RealReading.value?_assoc {op : Op} {f : ℝ → ℝ → ℝ}
    (hop : ∀ x y, R.apply op x y = some (f x y))
    (hassoc : ∀ x y z, f x (f y z) = f (f x y) z) (a b c : Expr) :
    R.value? env (.bin op a (.bin op b c)) = R.value? env (.bin op (.bin op a b) c) := by
  simp only [RealReading.value?]
  cases R.value? env a <;> cases R.value? env b <;> cases R.value? env c <;>
    simp [hop, hassoc]

/-- **Alike expressions have the same value**, in every reading in which negation negates. -/
theorem Alike.value_eq {d e : Expr} (h : Alike d e)
    (hneg : ∀ x, R.func negation [x] = some (-x)) : R.value? env d = R.value? env e := by
  induction h with
  | refl e => rfl
  | symm _ ih => exact ih.symm
  | trans _ _ ih ih' => exact ih.trans ih'
  | bin op _ _ ihl ihr => rw [RealReading.value?, RealReading.value?, ihl, ihr]
  | func f before after _ ih =>
    rw [RealReading.value?, RealReading.value?, R.valueAll?_congr ih after before]
  | add_assoc a b c => exact R.value?_assoc (fun x y => rfl) (fun x y z => by ring) a b c
  | mul_assoc a b c => exact R.value?_assoc (fun x y => rfl) (fun x y z => by ring) a b c
  | @negative v hv =>
    simp only [Expr.neg, RealReading.value?, RealReading.valueAll?, realOf?_neg (isNaN_of_pos hv)]
    cases realOf? v <;> simp [hneg]
  | zero => rfl

end

/-! ## 8. Formulas are unambiguous -/

/-- **Two expressions that are shown as the same formula are alike**, and so they have the same
value wherever negation negates.  Each of them is shown as a formula. -/
theorem latex_unambiguous {d e : Expr} (hd : Typeset d) (he : Typeset e) :
    ∃ s t, d.latex = .ok s ∧ e.latex = .ok t ∧
      (s = t → Alike d e ∧ ∀ (R : RealReading) (env : String → ℝ),
        (∀ x, R.func negation [x] = some (-x)) → R.value? env d = R.value? env e) := by
  obtain ⟨S, hS⟩ := Latex.exists_writes hd
  obtain ⟨T, hT⟩ := Latex.exists_writes he
  refine ⟨_, _, hS.latex, hT.latex, fun hsame => ?_⟩
  have halike : Alike d e :=
    hS.alike_of_latex_eq hT (hS.latex.trans ((congrArg Except.ok hsame).trans hT.latex.symm))
  exact ⟨halike, fun R env hneg => halike.value_eq hneg⟩

/-- The sum `x + (-1 + y)`, in which one is negated. -/
def sumOfNegation : Expr := .bin .add (.var "x") (.bin .add (.neg (.num 1.0)) (.var "y"))

/-- The sum `(x + -1) + y`, in which minus one is a number. -/
def sumOfNegative : Expr := .bin .add (.bin .add (.var "x") (.num (-1.0))) (.var "y")

/-- The two sums are shown as one formula, and they are alike. -/
theorem sumOfNegation_alike_sumOfNegative :
    Typeset sumOfNegation ∧ Typeset sumOfNegative ∧
      sumOfNegation.latex = .ok "x + -1 + y" ∧ sumOfNegative.latex = .ok "x + -1 + y" ∧
      Alike sumOfNegation sumOfNegative := by
  have hx : Typeset (.var "x") :=
    .var ⟨by decide, List.all_eq_true.mp (by decide)⟩ (by decide)
  have hy : Typeset (.var "y") :=
    .var ⟨by decide, List.all_eq_true.mp (by decide)⟩ (by decide)
  have hone : Typeset (.num 1.0) := .num (by decide +kernel)
  have hminus : Typeset (.num (-1.0)) := .num (by decide +kernel)
  have hd : Typeset sumOfNegation := .bin rfl hx (.bin rfl (.neg hone) hy)
  have he : Typeset sumOfNegative := .bin rfl (.bin rfl hx hminus) hy
  have hdlatex : sumOfNegation.latex = .ok "x + -1 + y" := by decide +kernel
  have helatex : sumOfNegative.latex = .ok "x + -1 + y" := by decide +kernel
  obtain ⟨s, t, hs, ht, h⟩ := latex_unambiguous hd he
  have hsame : s = t :=
    Except.ok.inj ((hs.symm.trans hdlatex).trans (helatex.symm.trans ht))
  exact ⟨hd, he, hdlatex, helatex, (h hsame).1⟩

end Fluxion
