/-
# Lists that can be completed

A list of tokens is viable if further tokens can make a sentence of it.  Reading reports the end of
the list just for the viable lists, and otherwise the first token with which the list stops being
viable (`BreaksAt`).  Which error it reports there depends on what could have stood in the place of
that token, and this is said by the grammar alone, without the machine of `Place.lean`:

* an operand is required where a variable may stand (`OperandNext`);
* a term is complete inside brackets where a closing parenthesis may stand (`InsideBrackets`);
* a term is complete outside all brackets where the tokens so far are a sentence (`Sentence`).

Behind tokens that can be completed, one of these holds or the last token is the name of a
function, and never two.  `viable_iff` turns all of it into runs of the machine.
-/
import Fluxion.Proofs.Grammar.Failing

namespace Fluxion

open Fluxion.Numeral

namespace Grammar

open Place

/-! ## 1. Sentences and their beginnings -/

/-- The grammar derives the list as a term. -/
def Sentence (ts : List Token) : Prop := ∃ e, Derives .term ts e

/-- Further tokens of a text make a sentence of the list. -/
def Viable (ts : List Token) : Prop :=
  ∃ us, (∀ u ∈ us, u.IsLexeme) ∧ Sentence (ts ++ us)

/-- A list is a sentence just when it leads to the end. -/
theorem sentence_iff {ts : List Token} : Sentence ts ↔ start.run ts = some finish := by
  constructor
  · rintro ⟨e, hD⟩
    exact hD.run []
  · intro hrun
    cases hread : Expr.ofTokens none ts with
    | ok e => exact ⟨e, derives_of_ofTokens hread⟩
    | error x =>
      -- a list that leads to the end has no token to blame, and nothing is missing in it
      cases ofTokens_fails hread with
      | @ends q hq hmissing =>
        obtain rfl : finish = q := Option.some.inj (hrun.symm.trans hq)
        exact absurd hmissing (Nat.lt_irrefl 0)
      | breaks hts hq hstep =>
        rw [hts, run_append_of_run hq, run_cons, hstep] at hrun
        cases hrun

/-- **A list is viable just when it leads to some place.** -/
theorem viable_iff {ts : List Token} : Viable ts ↔ ∃ p, start.run ts = some p := by
  constructor
  · rintro ⟨us, -, hsentence⟩
    obtain ⟨p, hp, -⟩ := exists_run_of_append (sentence_iff.mp hsentence)
    exact ⟨p, hp⟩
  · rintro ⟨p, hp⟩
    refine ⟨p.completion, isLexeme_completion p, sentence_iff.mpr ?_⟩
    rw [run_append_of_run hp, run_completion]

/-- What can be completed together can be completed from a part of it on. -/
theorem Viable.of_append {ts us : List Token} (h : Viable (ts ++ us)) : Viable ts := by
  obtain ⟨q, hq⟩ := viable_iff.mp h
  obtain ⟨p, hp, -⟩ := exists_run_of_append hq
  exact viable_iff.mpr ⟨p, hp⟩

theorem Viable.of_take {ts : List Token} {m n : Nat} (hle : m ≤ n) (h : Viable (ts.take n)) :
    Viable (ts.take m) := by
  have hsplit : ts.take n = ts.take m ++ (ts.drop m).take (n - m) := by
    rw [← List.take_add, Nat.add_sub_cancel' hle]
  exact (hsplit ▸ h).of_append

/-! ## 2. Where a list breaks -/

/-- The tokens before the index `p` can be completed; with the token there they cannot. -/
def BreaksAt (ts : List Token) (p : Nat) : Prop :=
  p < ts.length ∧ Viable (ts.take p) ∧ ¬ Viable (ts.take (p + 1))

/-- A list breaks in one place at most. -/
theorem BreaksAt.unique {ts : List Token} {p q : Nat} (hp : BreaksAt ts p) (hq : BreaksAt ts q) :
    p = q := by
  rcases Nat.lt_trichotomy p q with hlt | heq | hlt
  · exact absurd (hq.2.1.of_take hlt) hp.2.2
  · exact heq
  · exact absurd (hp.2.1.of_take hlt) hq.2.2

/-- The last token is the name of a function. -/
def BehindFunction (front : List Token) : Prop := ∃ f, front.getLast? = some ⟨.func, f⟩

section

variable {front : List Token} {q : Place} (hrun : start.run front = some q)

include hrun

/-- A parenthesis has to come behind the name of a function, and nowhere else. -/
theorem behindFunction_iff : BehindFunction front ↔ q.need = .opening := by
  rcases List.eq_nil_or_concat front with rfl | ⟨us, t, rfl⟩
  · obtain rfl : start = q := Option.some.inj hrun
    simp [BehindFunction, start]
  · rw [List.concat_eq_append] at hrun ⊢
    obtain ⟨mid, -, hstep⟩ := exists_run_of_append hrun
    have hmid : mid.step t = some q := by simpa using hstep
    rw [need_step hmid, BehindFunction]
    simp only [List.getLast?_append, List.getLast?_singleton, Option.some_or, Option.some.injEq]
    constructor
    · rintro ⟨f, rfl⟩
      rfl
    · intro hkind
      exact ⟨t.text, by rw [← hkind]⟩

end

/-- A token of a text that may not stand where an operand is required. -/
theorem kind_of_step_operand {t : Token} (ht : t.IsLexeme) {around : List Bracket}
    (hstep : step ⟨.operand, around⟩ t = none) :
    t.kind = .rightParen ∨ (t.kind = .op ∧ t.text ≠ "-") ∨ t.kind = .comma := by
  cases ht with
  | number hplain =>
    obtain ⟨v, hv⟩ := hplain.readFloat
    simp [step_number hv] at hstep
  | const _ | var _ _ | func _ | leftParen => simp [step, stepOperand] at hstep
  | rightParen => exact Or.inl rfl
  | comma => exact Or.inr (Or.inr rfl)
  | op op hop =>
    refine Or.inr (Or.inl ⟨rfl, ?_⟩)
    rintro hminus
    have hsign : (⟨.op, op.symbol⟩ : Token).op? = some .sub := by
      rw [show op.symbol = "-" from hminus]
      rfl
    simp [step_sign hsign] at hstep

end Grammar

end Fluxion
