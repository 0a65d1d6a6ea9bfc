/-
# From tokens to an expression

    term    ::= factor (("+" | "-") factor)*        grouped to the left
    factor  ::= power (("*" | "/") power)*          grouped to the left
    power   ::= unary ("^" unary)*                  grouped to the right
    unary   ::= "-" unary | primary
    primary ::= number | constant | variable
              | function "(" term ("," term)* ")" | "(" term ")"

Each rule is a reader: it takes the tokens from its place on and gives an expression with the
tokens left over, which are fewer.  The rules above `unary` take the reader of their operands as
an argument; only `unary` refers to itself, once for each nested sign, parenthesis or call, so it
is defined by recursion on the number of such levels that are still allowed.  A list of `n` tokens
nests less than `n` levels deep, so `n` levels are no restriction.

Readers decide by the next token alone and never go back, hence the first error is the one that
is reported.
-/
import Fluxion.Numeral.Literal
import Fluxion.Token.Basic

namespace Fluxion

/-! ## 1. Errors -/

/-- Why a token list is not an expression. -/
inductive GrammarError where
  /-- The tokens end where more are needed. -/
  | unexpectedEnd
  /-- A bracket is needed, and another token stands there. -/
  | bracketExpected (expected : Kind) (found : Token)
  /-- A closing parenthesis stands in place of an operand. -/
  | operandExpected (index : Nat)
  /-- An operator stands in place of an operand. -/
  | strayOperator (symbol : String) (index : Nat)
  /-- Another token stands in place of an operand. -/
  | strayToken (found : Token) (index : Nat)
  /-- Tokens follow the expression. -/
  | trailing (found : Token) (index : Nat)
  /-- The expression nests deeper than allowed. -/
  | nestingTooDeep
  /-- A number token whose text is no numeral. -/
  | badNumeral (text : String)
deriving DecidableEq, Repr

namespace GrammarError

/-- The class that reports name the error by. -/
def label : GrammarError → String
  | unexpectedEnd => "EndOfStream"
  | bracketExpected .. => "MissingParen"
  | operandExpected _ => "UnclosedParen"
  | strayOperator .. => "UnexpectedOperator"
  | strayToken .. => "UnexpectedTokens"
  | trailing .. => "UnexpectedTokens"
  | nestingTooDeep => "NestingTooDeep"
  | badNumeral _ => "ValueError"

/-- The text that reports the error. -/
def message : GrammarError → String
  | unexpectedEnd => "Unexpected end of input"
  | bracketExpected expected found => "Expected " ++ expected.label ++ ", got " ++ found.display
  | operandExpected i => "Missing operand before ')' at token " ++ toString i
  | strayOperator s i =>
    "Unexpected operator " ++ Text.quoted s ++ " at token " ++ toString i
  | strayToken t i => "Unexpected token " ++ t.display ++ " at token " ++ toString i
  | trailing t i => "Unexpected trailing input at token " ++ toString i ++ ": " ++ t.display
  | nestingTooDeep => "Expression nested too deeply"
  | badNumeral s => "could not convert string to float: " ++ Text.quoted s

end GrammarError

namespace Grammar

/-! ## 2. Readers -/

/-- What reading something at the start of `ts` gives: the thing and the tokens left over, fewer
than before, or an error. -/
abbrev Reading (α : Type) (ts : List Token) : Type :=
  Except GrammarError (α × { rest : List Token // rest.length < ts.length })

/-- A reader of expressions. -/
abbrev Reader : Type := (ts : List Token) → Reading Expr ts

/-- A reading of the end of a list, seen as a reading of the longer list; `f` completes what was
read. -/
def Reading.widen {α β : Type} {ts us : List Token} (f : α → β) (h : ts.length ≤ us.length) :
    Reading α ts → Reading β us
  | .error e => .error e
  | .ok (a, ⟨rest, lt⟩) => .ok (f a, ⟨rest, Nat.lt_of_lt_of_le lt h⟩)

/-- Addition and subtraction. -/
def isAdditive (op : Op) : Bool := op == .add || op == .sub

/-- Multiplication and division. -/
def isMultiplicative (op : Op) : Bool := op == .mul || op == .div

/-- The token is an operator of the given class. -/
def accepted? (accepts : Op → Bool) (t : Token) : Option Op :=
  t.op?.filter accepts

/-- Goes on after the operand `left`: further operands, each after an accepted operator, are
joined to it from the left. -/
def chainFrom (accepts : Op → Bool) (operand : Reader) (left : Expr) (ts : List Token) :
    Except GrammarError (Expr × { rest : List Token // rest.length ≤ ts.length }) :=
  match ts with
  | [] => .ok (left, ⟨[], Nat.le_refl _⟩)
  | t :: ts =>
    match accepted? accepts t with
    | none => .ok (left, ⟨t :: ts, Nat.le_refl _⟩)
    | some op =>
      match operand ts with
      | .error e => .error e
      | .ok (right, ⟨rest, _⟩) =>
        match chainFrom accepts operand (.bin op left right) rest with
        | .error e => .error e
        | .ok (e, ⟨rest', _⟩) => .ok (e, ⟨rest', by simp only [List.length_cons]; omega⟩)
termination_by ts.length
decreasing_by simp only [List.length_cons]; omega

/-- Operands joined from the left by accepted operators. -/
def chain (accepts : Op → Bool) (operand : Reader) : Reader := fun ts =>
  match operand ts with
  | .error e => .error e
  | .ok (left, ⟨rest, _⟩) =>
    match chainFrom accepts operand left rest with
    | .error e => .error e
    | .ok (e, ⟨rest', _⟩) => .ok (e, ⟨rest', by omega⟩)

/-- Operands joined from the right by the power operator. -/
def power (operand : Reader) (ts : List Token) : Reading Expr ts :=
  match operand ts with
  | .error e => .error e
  | .ok (base, ⟨[], h⟩) => .ok (base, ⟨[], h⟩)
  | .ok (base, ⟨t :: rest, h⟩) =>
    match accepted? (· == .pow) t with
    | none => .ok (base, ⟨t :: rest, h⟩)
    | some op =>
      Reading.widen (.bin op base) (by simp only [List.length_cons] at h; omega)
        (power operand rest)
termination_by ts.length
decreasing_by simp only [List.length_cons] at h; omega

/-- Powers joined by multiplication and division. -/
def factor (operand : Reader) : Reader := chain isMultiplicative (power operand)

/-- Factors joined by addition and subtraction. -/
def term (operand : Reader) : Reader := chain isAdditive (factor operand)

/-- Takes the bracket of the given kind off the front. -/
def bracket (kind : Kind) (ts : List Token) : Reading Unit ts :=
  match ts with
  | [] => .error .unexpectedEnd
  | t :: rest =>
    if t.kind = kind then .ok ((), ⟨rest, Nat.lt_succ_self _⟩)
    else .error (.bracketExpected kind t)

/-- Terms with commas between them. -/
def arguments (operand : Reader) (ts : List Token) : Reading (List Expr) ts :=
  match term operand ts with
  | .error e => .error e
  | .ok (first, ⟨[], h⟩) => .ok ([first], ⟨[], h⟩)
  | .ok (first, ⟨t :: rest, h⟩) =>
    if t.kind = .comma then
      Reading.widen (first :: ·) (by simp only [List.length_cons] at h; omega)
        (arguments operand rest)
    else .ok ([first], ⟨t :: rest, h⟩)
termination_by ts.length
decreasing_by simp only [List.length_cons] at h; omega

/-- What `body` reads, with a closing parenthesis after it. -/
def closing {α : Type} {ts : List Token} (body : Reading α ts) : Reading α ts :=
  match body with
  | .error e => .error e
  | .ok (a, ⟨rest, h⟩) =>
    Reading.widen (fun _ => a) (Nat.le_of_lt h) (bracket .rightParen rest)

/-- The expression that a number token denotes. -/
def number (text : String) : Except GrammarError Expr :=
  match Numeral.readFloat text with
  | some v => .ok (.num v)
  | none => .error (.badNumeral text)

/-- The index of a token in a list of `total` tokens, given those after it. -/
def indexBefore (total : Nat) (after : List Token) : Nat := total - (after.length + 1)

/-- A primary; `total` is the number of tokens of the whole list. -/
def primary (total : Nat) (operand : Reader) : Reader
  | [] => .error .unexpectedEnd
  | t :: ts =>
    match t.kind with
    | .number => (number t.text).map fun e => (e, ⟨ts, Nat.lt_succ_self _⟩)
    | .const => .ok (.const t.text, ⟨ts, Nat.lt_succ_self _⟩)
    | .var => .ok (.var t.text, ⟨ts, Nat.lt_succ_self _⟩)
    | .func =>
      match bracket .leftParen ts with
      | .error e => .error e
      | .ok (_, ⟨rest, h⟩) =>
        Reading.widen (.func t.text) (by simp only [List.length_cons]; omega)
          (closing (arguments operand rest))
    | .leftParen =>
      Reading.widen id (by simp only [List.length_cons]; omega) (closing (term operand ts))
    | .rightParen => .error (.operandExpected (indexBefore total ts))
    | .op => .error (.strayOperator t.text (indexBefore total ts))
    | .comma => .error (.strayToken t (indexBefore total ts))
    | .other _ => .error (.strayToken t (indexBefore total ts))

/-- A primary with any number of signs in front, nested at most the given number of levels. -/
def unary (total : Nat) : Nat → Reader
  | _, [] => .error .unexpectedEnd
  | 0, _ :: _ => .error .nestingTooDeep
  | depth + 1, t :: ts =>
    match accepted? (· == .sub) t with
    | some _ =>
      Reading.widen .neg (by simp only [List.length_cons]; omega) (unary total depth ts)
    | none => primary total (unary total depth) (t :: ts)

/-! ## 3. Whole lists -/

/-- The number of levels allowed for a list: the limit, or as many as the list can need. -/
def levels (limit : Option Nat) (ts : List Token) : Nat := limit.getD ts.length

/-- Reads a term at the start of a list. -/
def readTerm (limit : Option Nat) : Reader := fun ts =>
  term (unary ts.length (levels limit ts)) ts

end Grammar

open Grammar in
/-- The expression that a token list denotes, if it nests within the limit. -/
def Expr.ofTokens (limit : Option Nat) (ts : List Token) : Except GrammarError Expr :=
  match readTerm limit ts with
  | .error e => .error e
  | .ok (e, ⟨[], _⟩) => .ok e
  | .ok (_, ⟨t :: rest, _⟩) => .error (.trailing t (indexBefore ts.length rest))

end Fluxion
