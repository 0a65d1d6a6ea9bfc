/-
# The grammar as a relation

`Grammar/Reader.lean` reads a token list from left to right.  This file states the grammar itself,
without any reading: `Derives s ts e` says that the symbol `s` derives the whole list `ts`, and
that `e` is the tree of the derivation.

The two rules that group to the left are stated with the symbol itself on the left
(`term ::= term "+" factor`), the one that groups to the right with the symbol itself on the right
(`power ::= unary "^" power`).  `Chain` is what the first two have in common, and
`derives_term_iff` and `derives_factor_iff` show a term and a factor as chains.
-/
import Fluxion.Grammar.Reader

namespace Fluxion

namespace Grammar

/-! ## 1. Derivations -/

/-- The symbols of the grammar. -/
inductive Symbol where
  | term
  | factor
  | power
  | unary
  | primary
deriving DecidableEq, Repr

/-- An argument of a call after the first one: its comma, its tokens and its tree. -/
structure Further where
  comma : Token
  tokens : List Token
  expr : Expr

/-- The tokens of further arguments, commas included. -/
def Further.all (more : List Further) : List Token :=
  more.flatMap fun m => m.comma :: m.tokens

/-- `Derives s ts e`: the symbol `s` derives the tokens `ts`, with the tree `e`. -/
inductive Derives : Symbol → List Token → Expr → Prop where
  /-- `term ::= factor` -/
  | ofFactor {ts : List Token} {e : Expr} : Derives .factor ts e → Derives .term ts e
  /-- `term ::= term ("+" | "-") factor` -/
  | sum {ts us : List Token} {t : Token} {op : Op} {l r : Expr} :
      Derives .term ts l → t.op? = some op → isAdditive op = true → Derives .factor us r →
      Derives .term (ts ++ t :: us) (.bin op l r)
  /-- `factor ::= power` -/
  | ofPower {ts : List Token} {e : Expr} : Derives .power ts e → Derives .factor ts e
  /-- `factor ::= factor ("*" | "/") power` -/
  | product {ts us : List Token} {t : Token} {op : Op} {l r : Expr} :
      Derives .factor ts l → t.op? = some op → isMultiplicative op = true → Derives .power us r →
      Derives .factor (ts ++ t :: us) (.bin op l r)
  /-- `power ::= unary` -/
  | ofUnary {ts : List Token} {e : Expr} : Derives .unary ts e → Derives .power ts e
  /-- `power ::= unary "^" power` -/
  | raise {ts us : List Token} {t : Token} {l r : Expr} :
      Derives .unary ts l → t.op? = some .pow → Derives .power us r →
      Derives .power (ts ++ t :: us) (.bin .pow l r)
  /-- `unary ::= primary` -/
  | ofPrimary {ts : List Token} {e : Expr} : Derives .primary ts e → Derives .unary ts e
  /-- `unary ::= "-" unary` -/
  | sign {ts : List Token} {t : Token} {e : Expr} :
      t.op? = some .sub → Derives .unary ts e → Derives .unary (t :: ts) (.neg e)
  /-- `primary ::= number` -/
  | number {text : String} {v : Float} :
      Numeral.readFloat text = some v → Derives .primary [⟨.number, text⟩] (.num v)
  /-- `primary ::= constant` -/
  | const (c : String) : Derives .primary [⟨.const, c⟩] (.const c)
  /-- `primary ::= variable` -/
  | var (x : String) : Derives .primary [⟨.var, x⟩] (.var x)
  /-- `primary ::= function "(" term ("," term)* ")"` -/
  | call {f : String} {opening closing : Token} {ts : List Token} {e : Expr}
      {more : List Further} :
      opening.kind = .leftParen → closing.kind = .rightParen → Derives .term ts e →
      (∀ m ∈ more, m.comma.kind = .comma) → (∀ m ∈ more, Derives .term m.tokens m.expr) →
      Derives .primary (⟨.func, f⟩ :: opening :: (ts ++ Further.all more ++ [closing]))
        (.func f (e :: more.map (·.expr)))
  /-- `primary ::= "(" term ")"` -/
  | group {opening closing : Token} {ts : List Token} {e : Expr} :
      opening.kind = .leftParen → closing.kind = .rightParen → Derives .term ts e →
      Derives .primary (opening :: (ts ++ [closing])) e

/-- No symbol derives the empty list. -/
theorem Derives.ne_nil {s : Symbol} {ts : List Token} {e : Expr} (h : Derives s ts e) :
    ts ≠ [] := by
  induction h with
  | ofFactor _ ih | ofPower _ ih | ofUnary _ ih | ofPrimary _ ih => exact ih
  | sum | product | raise => simp
  | sign | number | const | var | call | group => simp

/-- A primary does not begin with an operator. -/
theorem Derives.head_not_op {ts : List Token} {e : Expr} (h : Derives .primary ts e) :
    ∃ t us, ts = t :: us ∧ t.kind ≠ .op := by
  cases h with
  | number _ => exact ⟨_, _, rfl, by simp⟩
  | const _ => exact ⟨_, _, rfl, by simp⟩
  | var _ => exact ⟨_, _, rfl, by simp⟩
  | call _ _ _ _ _ => exact ⟨_, _, rfl, by simp⟩
  | group hopening _ _ => exact ⟨_, _, rfl, by simp [hopening]⟩

/-! ## 2. Chains -/

/-- Things derived by `operand`, joined from the left by operators of a class. -/
inductive Chain (accepts : Op → Bool) (operand : List Token → Expr → Prop) :
    List Token → Expr → Prop where
  | one {ts : List Token} {e : Expr} : operand ts e → Chain accepts operand ts e
  | more {ts us : List Token} {t : Token} {op : Op} {l r : Expr} :
      Chain accepts operand ts l → t.op? = some op → accepts op = true → operand us r →
      Chain accepts operand (ts ++ t :: us) (.bin op l r)

/-- A term is a chain of factors. -/
theorem derives_term_iff {ts : List Token} {e : Expr} :
    Derives .term ts e ↔ Chain isAdditive (Derives .factor) ts e := by
  constructor
  · intro h
    generalize hs : Symbol.term = s at h
    induction h with
    | ofFactor hfactor => exact .one hfactor
    | sum _ hop hacc hr ihl => exact .more (ihl hs) hop hacc hr
    | ofPower | product | ofUnary | raise | ofPrimary | sign | number | const | var | call
    | group => cases hs
  · intro h
    induction h with
    | one hfactor => exact .ofFactor hfactor
    | more _ hop hacc hr ihl => exact .sum ihl hop hacc hr

/-- A factor is a chain of powers. -/
theorem derives_factor_iff {ts : List Token} {e : Expr} :
    Derives .factor ts e ↔ Chain isMultiplicative (Derives .power) ts e := by
  constructor
  · intro h
    generalize hs : Symbol.factor = s at h
    induction h with
    | ofPower hpower => exact .one hpower
    | product _ hop hacc hr ihl => exact .more (ihl hs) hop hacc hr
    | ofFactor | sum | ofUnary | raise | ofPrimary | sign | number | const | var | call
    | group => cases hs
  · intro h
    induction h with
    | one hpower => exact .ofPower hpower
    | more _ hop hacc hr ihl => exact .product ihl hop hacc hr

end Grammar

end Fluxion
