/-
# The tokens of the flat form

`Expr.flat` writes an expression as one text.  `Expr.shown` lists the tokens of that text, by the
same recursion, and `flat_spells` says that scanning the text gives just these tokens.  From here
on the flat form is a list of tokens, and no character of it matters any more.

Numbers are the only leaves whose text is not one token for sure: a number that is written with an
exponent falls apart, and infinity is written as a word.  So the tokens of a number are taken to
be what its text is scanned as (`numberTokens`).
-/
import Fluxion.Expr.Flat
import Fluxion.Proofs.Expr.Proper
import Fluxion.Proofs.Grammar.Readable
import Fluxion.Proofs.Token.Spelling

namespace Fluxion

open Fluxion.Numeral Fluxion.Scan

namespace Expr

/-! ## 1. The tokens -/

/-- The tokens of a number's text. -/
def numberTokens (v : Float) : List Token := (Token.ofText (numberText v)).toOption.getD []

/-- The tokens of an operand, with parentheses or bare. -/
def operandTokens (grouped : Bool) (ts : List Token) : List Token :=
  if grouped then ⟨.leftParen, "("⟩ :: (ts ++ [⟨.rightParen, ")"⟩]) else ts

/-- The token in front of an argument list; negation is written with its operator. -/
def headToken (f : String) : Token := if f = negation then ⟨.op, f⟩ else ⟨.func, f⟩

mutual
/-- The tokens of the flat form. -/
def shown : Expr → List Token
  | num v => numberTokens v
  | const c => [⟨.const, c⟩]
  | var x => [⟨.var, x⟩]
  | func f args => headToken f :: operandTokens true (shownAll args)
  | bin op l r =>
    operandTokens (grouped op l true) l.shown ++
      ⟨.op, op.symbol⟩ :: operandTokens (grouped op r false) r.shown
  | hole => []

/-- The tokens of several flat forms with commas between them. -/
def shownAll : List Expr → List Token
  | [] => []
  | [e] => e.shown
  | e :: d :: ds => e.shown ++ ⟨.comma, ","⟩ :: shownAll (d :: ds)
end

/-- A number whose text is spelled by some tokens has these tokens. -/
theorem numberTokens_eq {v : Float} {ts : List Token} (h : Spells (numberText v).toList ts) :
    numberTokens v = ts := by
  have htokens : Token.ofText (numberText v) = .ok ts := by
    have hspelt := h.ofText
    rwa [String.ofList_toList] at hspelt
  rw [numberTokens, htokens]
  rfl

end Expr

/-! ## 2. Scanning the flat form -/

namespace Scan

theorem completes_open : Completes ['('] [⟨.leftParen, "("⟩] := completes_symbol rfl

/-- A piece in parentheses is closed. -/
theorem Spells.paren {cs : List Char} {ts : List Token} (h : Spells cs ts) :
    Completes ('(' :: (cs ++ [')'])) (Expr.operandTokens true ts) := by
  have hclosed : Completes (cs ++ [')']) (ts ++ [⟨.rightParen, ")"⟩]) :=
    h.symbol (Or.inl rfl) rfl
  exact completes_open.append hclosed

theorem Spells.operand {text : String} {ts : List Token} (h : Spells text.toList ts)
    (grouped : Bool) :
    Spells (if grouped then parenthesised text else text).toList
      (Expr.operandTokens grouped ts) := by
  cases grouped with
  | false => exact h
  | true =>
    have htext : (parenthesised text).toList = '(' :: (text.toList ++ [')']) := by
      simp [parenthesised]
    rw [if_pos rfl, htext]
    exact h.paren.spells

/-- A known operator between blanks closes what is open. -/
theorem Spells.op {text : String} {ts : List Token} (h : Spells text.toList ts) {op : Op}
    (hop : op.isKnown = true) :
    Completes (text ++ " " ++ op.symbol ++ " ").toList (ts ++ [⟨.op, op.symbol⟩]) := by
  have hbetween : ∀ c : Char, symbolToken? c = some ⟨.op, String.singleton c⟩ →
      Completes (text ++ " " ++ String.singleton c ++ " ").toList
        (ts ++ [⟨.op, String.singleton c⟩]) := by
    intro c hc
    have hjoined := (h.blank.append (completes_symbol hc)).append completes_blank
    simpa using hjoined
  cases op with
  | add => exact hbetween '+' rfl
  | sub => exact hbetween '-' rfl
  | mul => exact hbetween '*' rfl
  | div => exact hbetween '/' rfl
  | pow => exact hbetween '^' rfl
  | other s => cases hop

end Scan

/-- Arguments between commas. -/
theorem shownAll_spells {args : List Expr}
    (h : ∀ a ∈ args, ∃ text, a.flat = .ok text ∧ Spells text.toList a.shown) :
    ∃ texts, Expr.flatAll args = .ok texts ∧ texts.length = args.length ∧
      Spells (", ".intercalate texts).toList (Expr.shownAll args) := by
  induction args with
  | nil => exact ⟨[], rfl, rfl, Completes.nil.spells⟩
  | cons a args ih =>
    obtain ⟨text, hflat, hspells⟩ := h a List.mem_cons_self
    obtain ⟨texts, hflats, hlength, hspells'⟩ := ih fun d hd => h d (List.mem_cons_of_mem a hd)
    refine ⟨text :: texts, by rw [Expr.flatAll, hflat, hflats]; rfl, by simp [hlength], ?_⟩
    cases args with
    | nil =>
      obtain rfl : texts = [] := List.eq_nil_of_length_eq_zero hlength
      rw [String.intercalate_singleton]
      exact hspells
    | cons d ds =>
      obtain ⟨text', texts', rfl⟩ := List.exists_cons_of_length_eq_add_one hlength
      have hcomma : Completes (text.toList ++ [',']) (a.shown ++ [⟨.comma, ","⟩]) :=
        hspells.symbol (Or.inr rfl) rfl
      have hjoined := (hcomma.append completes_blank).append_spells hspells'
      rw [String.intercalate_cons_cons]
      simpa [Expr.shownAll] using hjoined

/-- The text of an expression that can be read spells its tokens, provided that the texts of its
numbers do. -/
theorem flat_spells {e : Expr} (h : e.Readable)
    (hnum : ∀ v, .num v ∈ e.parts → Spells (numberText v).toList (Expr.numberTokens v)) :
    ∃ text, e.flat = .ok text ∧ Spells text.toList e.shown := by
  induction h with
  | @num cs v _ _ => exact ⟨numberText v, rfl, hnum v (Expr.mem_parts_self _)⟩
  | @const c hc => exact ⟨c, rfl, spells_lexeme (.const hc) (by simp)⟩
  | @var cs hword hnot =>
    exact ⟨String.ofList cs, rfl, spells_lexeme (.var hword hnot) (by simp)⟩
  | @neg e _ ih =>
    obtain ⟨text, hflat, hspells⟩ := ih fun v hv => hnum v (by simp [Expr.neg, hv])
    refine ⟨"-" ++ parenthesised text, ?_, ?_⟩
    · simp [Expr.neg, Expr.flat, Expr.flatAll, hflat, negation, bind, Except.bind, pure,
        Except.pure]
    · have hsign : Completes ['-'] [⟨.op, "-"⟩] := completes_symbol rfl
      have hjoined := hsign.append_spells (hspells.operand true)
      simpa [Expr.neg, Expr.shown, Expr.shownAll, Expr.headToken, negation] using hjoined
  | @call cs args hword hne _ ih =>
    obtain ⟨texts, hflats, -, hspells⟩ := shownAll_spells fun a ha =>
      ih a ha fun v hv => hnum v (by simp only [Expr.mem_parts_func]; exact Or.inr ⟨a, ha, hv⟩)
    refine ⟨String.ofList cs ++ parenthesised (", ".intercalate texts), ?_, ?_⟩
    · simp [Expr.flat, hflats, bind, Except.bind, pure, Except.pure]
    · have hhead : String.ofList cs ≠ negation := hword.ne_negation
      have hclosed := hspells.symbol (Or.inl rfl) rfl
      have hjoined := (completes_call hword).append hclosed
      simpa [Expr.shown, Expr.headToken, hhead, Expr.operandTokens, parenthesised] using
        hjoined.spells
  | @bin op l r hop hl hr ihl ihr =>
    obtain ⟨left, hleft, hspellsl⟩ := ihl fun v hv => hnum v (by simp [hv])
    obtain ⟨right, hright, hspellsr⟩ := ihr fun v hv => hnum v (by simp [hv])
    have hflat : (Expr.bin op l r).flat =
        .ok ((if Expr.grouped op l true then parenthesised left else left) ++ " " ++ op.symbol ++
          " " ++ (if Expr.grouped op r false then parenthesised right else right)) := by
      simp [Expr.flat, hleft, hright, Expr.isGrouped_eq_ok true hop hl.proper,
        Expr.isGrouped_eq_ok false hop hr.proper, bind, Except.bind, pure, Except.pure]
    refine ⟨_, hflat, ?_⟩
    have hjoined := ((hspellsl.operand (Expr.grouped op l true)).op hop).append_spells
      (hspellsr.operand (Expr.grouped op r false))
    rw [String.toList_append, Expr.shown, ← List.singleton_append, ← List.append_assoc]
    exact hjoined

end Fluxion
