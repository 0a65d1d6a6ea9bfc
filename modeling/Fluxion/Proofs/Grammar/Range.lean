/-
# What comes of a text

Reading a text gives an expression or an error, and this file says exactly which.

The expressions are the readable ones.  That no other is read is `readable_of_ofText`; that each
of them is read takes a text, and here it is the one with parentheses around every operator and
its operands (`Expr.bracketed`).  Its tokens derive the expression whatever the ranks of the
operators, because a bracketed operand is at most a unary, and they are well formed, so that
`Token.spaced` turns them into the text.  The numbers are not written by `numberText`, which
falls back on exponents; any numerals will do.

The errors are those of the scan and five classes of the grammar.  The other two cannot occur: no
limit stands in the way, and what the scan emits as a number is a numeral.  Nor is an opening
parenthesis ever missed, since the scan sees it before it calls a word a function.
-/
import Fluxion.Proofs.Flat.RoundTrip
import Fluxion.Proofs.Grammar.Viable
import Fluxion.Proofs.Token.Spaced

namespace Fluxion

open Fluxion.Numeral Fluxion.Grammar Fluxion.Token

/-! ## 1. The text with all parentheses -/

namespace Expr

section

variable (numeral : Float → String)

mutual
/-- The tokens of the text that has parentheses around every operator and its operands; `numeral`
writes the numbers. -/
def bracketed : Expr → List Token
  | num v => [⟨.number, numeral v⟩]
  | const c => [⟨.const, c⟩]
  | var x => [⟨.var, x⟩]
  | func f args => headToken f :: operandTokens true (bracketedAll args)
  | bin op l r => operandTokens true (l.bracketed ++ ⟨.op, op.symbol⟩ :: r.bracketed)
  | hole => []

/-- The tokens of several such texts with commas between them. -/
def bracketedAll : List Expr → List Token
  | [] => []
  | [e] => e.bracketed
  | e :: d :: ds => e.bracketed ++ ⟨.comma, ","⟩ :: bracketedAll (d :: ds)
end

/-- The numbers of the expression are written as numerals that denote them. -/
def WritesNumbers (e : Expr) : Prop :=
  ∀ v, num v ∈ e.parts →
    ∃ cs, IsPlain cs ∧ numeral v = String.ofList cs ∧ readFloat (numeral v) = some v

variable {numeral}

theorem bracketedAll_cons (e : Expr) (es : List Expr) :
    bracketedAll numeral (e :: es) =
      e.bracketed numeral ++
        Further.all (es.map fun d => ⟨⟨.comma, ","⟩, d.bracketed numeral, d⟩) := by
  induction es generalizing e with
  | nil => simp [bracketedAll, Further.all]
  | cons d ds ih =>
    rw [bracketedAll, ih d]
    simp [Further.all]

theorem WritesNumbers.func {f : String} {args : List Expr}
    (h : (func f args).WritesNumbers numeral) : ∀ a ∈ args, a.WritesNumbers numeral :=
  fun a ha v hv => h v (mem_parts_func.mpr (Or.inr ⟨a, ha, hv⟩))

theorem WritesNumbers.bin {op : Op} {l r : Expr} (h : (bin op l r).WritesNumbers numeral) :
    l.WritesNumbers numeral ∧ r.WritesNumbers numeral :=
  ⟨fun v hv => h v (by simp [hv]), fun v hv => h v (by simp [hv])⟩

/-- **The bracketed text of an expression derives it.** -/
theorem bracketed_derives {e : Expr} (he : e.Readable) (hnum : e.WritesNumbers numeral) :
    Derives .unary (e.bracketed numeral) e := by
  induction he with
  | @num cs v _ _ =>
    obtain ⟨_, -, -, hread⟩ := hnum v (mem_parts_self _)
    exact .ofPrimary (.number hread)
  | @const c _ => exact .ofPrimary (.const c)
  | var _ _ => exact .ofPrimary (.var _)
  | neg _ ih => exact .sign rfl (.ofPrimary (ih (hnum.func _ (by simp))).paren)
  | @call cs args hword hne _ ih =>
    obtain ⟨a, more, rfl⟩ := List.exists_cons_of_ne_nil hne
    have hterm : ∀ d ∈ a :: more, Derives .term (d.bracketed numeral) d := fun d hd =>
      (ih d hd (hnum.func d hd)).lift (by decide)
    have hname : String.ofList cs ≠ negation := hword.ne_negation
    have hcall := derives_call (String.ofList cs) hterm
    rw [← bracketedAll_cons, List.map_id'] at hcall
    simpa [bracketed, headToken, hname] using Derives.ofPrimary hcall
  | @bin op l r hop _ _ ihl ihr =>
    have hl := (ihl hnum.bin.1).lift (one_le_leftSymbol op)
    have hr := (ihr hnum.bin.2).lift (one_le_rightSymbol op)
    exact .ofPrimary (Op.derives_bin hop hl hr).paren

theorem wellFormed_paren {ts : List Token} (h : WellFormed ts) :
    WellFormed (operandTokens true ts) :=
  .cons .leftParen (by simp) (h.append (.cons .rightParen (by simp) .nil))

theorem wellFormed_bracketedAll {es : List Expr}
    (h : ∀ e ∈ es, WellFormed (e.bracketed numeral)) :
    WellFormed (bracketedAll numeral es) := by
  induction es with
  | nil => exact .nil
  | cons e es ih =>
    have hall := ih fun d hd => h d (List.mem_cons_of_mem e hd)
    have he := h e List.mem_cons_self
    cases es with
    | nil => exact he
    | cons d ds => exact he.append (.cons .comma (by simp) hall)

/-- **It is a text**: its tokens are well formed. -/
theorem wellFormed_bracketed {e : Expr} (he : e.Readable) (hnum : e.WritesNumbers numeral) :
    WellFormed (e.bracketed numeral) := by
  induction he with
  | @num cs v _ _ =>
    obtain ⟨ds, hplain, hnumeral, -⟩ := hnum v (mem_parts_self _)
    rw [bracketed, hnumeral]
    exact .cons (.number hplain) (by simp) .nil
  | const hc => exact .cons (.const hc) (by simp) .nil
  | var hword hnot => exact .cons (.var hword hnot) (by simp) .nil
  | neg _ ih =>
    exact .cons (.op .sub rfl) (by decide) (wellFormed_paren (ih (hnum.func _ (by simp))))
  | @call cs args hword _ _ ih =>
    have hargs := wellFormed_paren (wellFormed_bracketedAll fun a ha => ih a ha (hnum.func a ha))
    have hname : String.ofList cs ≠ negation := hword.ne_negation
    simp only [bracketed, headToken, hname, if_false]
    refine ⟨?_, fun _ => rfl, hargs.callsOpened⟩
    intro t ht
    rcases List.mem_cons.mp ht with rfl | ht
    · exact .func hword
    · exact hargs.lexemes t ht
  | @bin op l r hop _ _ ihl ihr =>
    exact wellFormed_paren
      ((ihl hnum.bin.1).append (.cons (.op op hop) (by simp) (ihr hnum.bin.2)))

/-- The text is read as the expression. -/
theorem ofText_bracketed {e : Expr} (he : e.Readable) (hnum : e.WritesNumbers numeral) :
    (Expr.ofText none (spaced (e.bracketed numeral))).1 = .ok e := by
  have htokens : Token.ofText (spaced (e.bracketed numeral)) = .ok (e.bracketed numeral) := by
    have hspelt := (wellFormed_bracketed he hnum).spells.ofText
    rwa [String.ofList_toList] at hspelt
  exact ofText_eq_ok_iff.mpr ⟨_, htokens, (bracketed_derives he hnum).lift (by decide)⟩

end

theorem Readable.exists_writesNumbers {e : Expr} (he : e.Readable) :
    ∃ numeral, e.WritesNumbers numeral := by
  classical
  refine ⟨fun v => if h : Expr.num v ∈ e.parts then
    String.ofList (he.exists_numeral h).choose else "", fun v hv => ?_⟩
  obtain ⟨hplain, hread⟩ := (he.exists_numeral hv).choose_spec
  exact ⟨_, hplain, by simp [hv], by simpa [hv] using hread⟩

end Expr

/-! ## 2. The errors -/

namespace Grammar

/-- The classes of errors that a text can cause. -/
def reported : List String :=
  ["EndOfStream", "UnclosedParen", "MissingParen", "UnexpectedOperator", "UnexpectedTokens"]

/-- The error is of one of these classes, and a bracket that is missed is a closing one. -/
def IsReported (x : GrammarError) : Prop :=
  x.label ∈ reported ∧ ∀ kind t, x = .bracketExpected kind t → kind = .rightParen

/-- **The tokens of a text fail with one of the reported errors.** -/
theorem isReported_of_ofTokens {ts : List Token} {x : GrammarError} (hts : WellFormed ts)
    (h : Expr.ofTokens none ts = .error x) : IsReported x := by
  cases ofTokens_fails h with
  | ends _ _ => exact ⟨by decide, by simp⟩
  | @breaks us vs t q hsplit hrun hstep =>
    have ht : t.IsLexeme := hts.lexemes t (by simp [hsplit])
    obtain ⟨need, around⟩ := q
    cases need with
    | operand =>
      rcases kind_of_step_operand ht hstep with hkind | ⟨hkind, -⟩ | hkind <;>
        simp [IsReported, reported, Place.error, hkind, GrammarError.label]
    | opening =>
      -- the scan has put a parenthesis there
      obtain ⟨f, hlast⟩ := (behindFunction_iff hrun).mpr rfl
      have hkind : t.kind = .leftParen := (hsplit ▸ hts.callsOpened).behind hlast
      rw [Place.step_opening hkind] at hstep
      cases hstep
    | nothing =>
      cases around <;> simp [IsReported, reported, Place.error, GrammarError.label]

end Grammar

/-! ## 3. All that comes of a text -/

/-- **What comes of a text.**  Without a limit on the depth a text is read as a readable
expression, whose numbers are neither negative nor not numbers, or the scan fails, or the grammar
with one of the reported errors.  And every readable expression comes of a text: it can be written
with all parentheses and whatever numerals its numbers have, of which there are some. -/
theorem ofText_range (s : String) (e : Expr) :
    ((∃ d, (Expr.ofText none s).1 = .ok d ∧ d.Readable ∧
        ∀ v, .num v ∈ d.parts → isNegative v = false ∧ v.isNaN = false) ∨
      (∃ x, (Expr.ofText none s).1 = .error (.scan x)) ∨
      ∃ x, (Expr.ofText none s).1 = .error (.grammar x) ∧ IsReported x) ∧
    (e.Readable → (∃ numeral, e.WritesNumbers numeral) ∧
      ∀ numeral, e.WritesNumbers numeral →
        (Expr.ofText none (spaced (e.bracketed numeral))).1 = .ok e) := by
  constructor
  · cases hread : (Expr.ofText none s).1 with
    | ok d =>
      have hd : d.Readable := readable_of_ofText hread
      refine Or.inl ⟨d, rfl, hd, fun v hv => ?_⟩
      have hunsigned : Unsigned v := hd.unsigned v hv
      exact ⟨hunsigned.isNegative_eq_false, hunsigned.isNaN_eq_false⟩
    | error f =>
      unfold Expr.ofText at hread
      cases htokens : Token.ofText s with
      | error x =>
        rw [htokens] at hread
        cases hread
        exact Or.inr (Or.inl ⟨x, rfl⟩)
      | ok ts =>
        rw [htokens] at hread
        cases hfails : Expr.ofTokens none ts with
        | ok d => simp [hfails] at hread
        | error x =>
          obtain rfl : Failure.grammar x = f := by simpa [hfails] using hread
          have hts : WellFormed ts := wellFormed_of_ofText htokens
          exact Or.inr (Or.inr ⟨x, rfl, isReported_of_ofTokens hts hfails⟩)
  · intro he
    exact ⟨he.exists_writesNumbers, fun numeral hnum => Expr.ofText_bracketed he hnum⟩

end Fluxion
