/-
# The expressions that a text can denote

Of all expressions only some come from a text.  Their numbers are the values of plain numerals,
their constants are the two known ones, their names are words of letters, a function has at least
one argument, and their operators are the five known ones.  `Expr.Readable` collects this;
`readable_of_ofText` shows it of every expression that was read, by induction on the derivation.
-/
import Fluxion.Derivation
import Fluxion.Proofs.Expr.Proper
import Fluxion.Proofs.Grammar.Reading

namespace Fluxion

open Fluxion.Numeral

/-- An expression that a text can denote. -/
inductive Expr.Readable : Expr → Prop where
  | num {cs : List Char} {v : Float} :
      IsPlain cs → readFloat (String.ofList cs) = some v → Readable (.num v)
  | const {c : String} : c ∈ Scan.constants → Readable (.const c)
  | var {cs : List Char} :
      IsWord cs → String.ofList cs ∉ Scan.constants → Readable (.var (String.ofList cs))
  | neg {e : Expr} : Readable e → Readable (.neg e)
  | call {cs : List Char} {args : List Expr} :
      IsWord cs → args ≠ [] → (∀ a ∈ args, Readable a) →
      Readable (.func (String.ofList cs) args)
  | bin {op : Op} {l r : Expr} :
      op.isKnown = true → Readable l → Readable r → Readable (.bin op l r)

/-- Every number of an expression that a text can denote has a numeral. -/
theorem Expr.Readable.exists_numeral {e : Expr} (he : e.Readable) {v : Float}
    (hv : Expr.num v ∈ e.parts) :
    ∃ cs, IsPlain cs ∧ readFloat (String.ofList cs) = some v := by
  induction he with
  | @num cs w hplain hread =>
    obtain ⟨⟩ := Expr.mem_parts_num.mp hv
    exact ⟨cs, hplain, hread⟩
  | const _ => simp at hv
  | var _ _ => simp at hv
  | neg _ ih => exact ih (by simpa [Expr.neg] using hv)
  | call _ _ _ ih =>
    obtain ⟨a, ha, hva⟩ := (Expr.mem_parts_func.mp hv).resolve_left (by simp)
    exact ih a ha hva
  | bin _ _ _ ihl ihr =>
    rcases (Expr.mem_parts_bin.mp hv).resolve_left (by simp) with hvl | hvr
    · exact ihl hvl
    · exact ihr hvr

/-- A text denotes no holes and no foreign operators. -/
theorem Expr.Readable.proper {e : Expr} (he : e.Readable) : e.Proper := by
  induction he with
  | num _ _ => exact proper_num _
  | const _ => exact proper_const _
  | var _ _ => exact proper_var _
  | neg _ ih => exact proper_func_iff.mpr (by simpa using ih)
  | call _ _ _ ih => exact proper_func_iff.mpr ih
  | bin hop _ _ ihl ihr => exact proper_bin_iff.mpr ⟨hop, ihl, ihr⟩

/-- No word is the name of negation. -/
theorem IsWord.ne_negation {cs : List Char} (h : IsWord cs) : String.ofList cs ≠ negation := by
  intro heq
  have hlist : cs = ['-'] := by
    rw [← String.toList_ofList (l := cs), heq]
    rfl
  have hletter : '-'.isAlpha = true := h.2 '-' (by simp [hlist])
  exact absurd hletter (by decide)

namespace Grammar

theorem isKnown_of_isAdditive {op : Op} (h : isAdditive op = true) : op.isKnown = true := by
  cases op <;> simp_all [isAdditive, Op.isKnown]

theorem isKnown_of_isMultiplicative {op : Op} (h : isMultiplicative op = true) :
    op.isKnown = true := by
  cases op <;> simp_all [isMultiplicative, Op.isKnown]

/-- What lexemes derive is readable. -/
theorem Derives.readable {s : Symbol} {ts : List Token} {e : Expr} (h : Derives s ts e)
    (hts : ∀ t ∈ ts, t.IsLexeme) : e.Readable := by
  induction h with
  | ofFactor _ ih | ofPower _ ih | ofUnary _ ih | ofPrimary _ ih => exact ih hts
  | sum _ _ hacc _ ihl ihr =>
    exact .bin (isKnown_of_isAdditive hacc) (ihl fun t ht => hts t (by simp [ht]))
      (ihr fun t ht => hts t (by simp [ht]))
  | product _ _ hacc _ ihl ihr =>
    exact .bin (isKnown_of_isMultiplicative hacc) (ihl fun t ht => hts t (by simp [ht]))
      (ihr fun t ht => hts t (by simp [ht]))
  | raise _ _ _ ihl ihr =>
    exact .bin rfl (ihl fun t ht => hts t (by simp [ht])) (ihr fun t ht => hts t (by simp [ht]))
  | sign _ _ ih => exact .neg (ih fun t ht => hts t (by simp [ht]))
  | number hread =>
    have hlexeme := hts _ List.mem_cons_self
    generalize htext : (⟨.number, _⟩ : Token) = t at hlexeme
    cases hlexeme with
    | number hplain =>
      obtain ⟨-, rfl⟩ := Token.mk.inj htext
      exact .num hplain hread
    | const | var | func | leftParen | rightParen | comma | op => cases htext
  | const c =>
    have hlexeme := hts _ List.mem_cons_self
    generalize htext : (⟨.const, c⟩ : Token) = t at hlexeme
    cases hlexeme with
    | const hmem =>
      obtain ⟨-, rfl⟩ := Token.mk.inj htext
      exact .const hmem
    | number | var | func | leftParen | rightParen | comma | op => cases htext
  | var x =>
    have hlexeme := hts _ List.mem_cons_self
    generalize htext : (⟨.var, x⟩ : Token) = t at hlexeme
    cases hlexeme with
    | var hword hnot =>
      obtain ⟨-, rfl⟩ := Token.mk.inj htext
      exact .var hword hnot
    | number | const | func | leftParen | rightParen | comma | op => cases htext
  | @call f opening closing ts e more _ _ _ _ _ ih ihall =>
    have hlexeme := hts _ List.mem_cons_self
    generalize htext : (⟨.func, f⟩ : Token) = t at hlexeme
    cases hlexeme with
    | func hword =>
      obtain ⟨-, rfl⟩ := Token.mk.inj htext
      refine .call hword (by simp) ?_
      intro a ha
      rcases List.mem_cons.mp ha with rfl | ha
      · exact ih fun t ht => hts t (by simp [ht])
      · obtain ⟨m, hm, rfl⟩ := List.mem_map.mp ha
        refine ihall m hm fun t ht => hts t ?_
        have hmem : t ∈ Further.all more :=
          List.mem_flatMap.mpr ⟨m, hm, List.mem_cons_of_mem _ ht⟩
        simp [hmem]
    | number | const | var | leftParen | rightParen | comma | op => cases htext
  | group _ _ _ ih => exact ih fun t ht => hts t (by simp [ht])

end Grammar

/-- A text is read through its tokens. -/
theorem ofText_eq_ok_iff {s : String} {e : Expr} :
    (Expr.ofText none s).1 = .ok e ↔
      ∃ ts, Token.ofText s = .ok ts ∧ Grammar.Derives .term ts e := by
  unfold Expr.ofText
  cases htokens : Token.ofText s with
  | error x => simp
  | ok ts =>
    simp only [Except.ok.injEq, exists_eq_left']
    cases hread : Expr.ofTokens none ts with
    | error x =>
      simp only [reduceCtorEq, false_iff]
      intro hD
      rw [Grammar.ofTokens_of_derives hD] at hread
      cases hread
    | ok e' =>
      simp only [Except.ok.injEq]
      constructor
      · rintro rfl
        exact Grammar.derives_of_ofTokens hread
      · intro hD
        rw [Grammar.ofTokens_of_derives hD] at hread
        exact (Except.ok.inj hread).symm

/-- **What a text denotes is readable**, whatever the limit on nesting. -/
theorem readable_of_ofText {limit : Option Nat} {s : String} {e : Expr}
    (h : (Expr.ofText limit s).1 = .ok e) : e.Readable := by
  unfold Expr.ofText at h
  cases htokens : Token.ofText s with
  | error x => simp [htokens] at h
  | ok ts =>
    cases hread : Expr.ofTokens limit ts with
    | error x => simp [htokens, hread] at h
    | ok e' =>
      obtain rfl : e' = e := by simpa [htokens, hread] using h
      exact (Grammar.derives_of_ofTokens hread).readable (isLexeme_of_ofText htokens)

end Fluxion
