/-
# Tokens

A token is a piece of the input with the kind of thing it is.  The eight kinds that reading a
text produces are those of the grammar; a token list that is handed in ready-made may name any
other kind, which then fits nowhere.
-/
import Fluxion.Expr.Basic
import Fluxion.Text.Quoted

namespace Fluxion

/-- What a token is. -/
inductive Kind where
  | number
  | const
  | var
  | func
  | leftParen
  | rightParen
  | comma
  | op
  | other (label : String)
deriving DecidableEq, Repr, Inhabited

namespace Kind

/-- The label that a kind is shown with. -/
def label : Kind → String
  | number => "NUMBER"
  | const => "CONST"
  | var => "VAR"
  | func => "FUNC"
  | leftParen => "LPAREN"
  | rightParen => "RPAREN"
  | comma => "COMMA"
  | op => "OP"
  | other s => s

/-- The kinds of the grammar. -/
def all : List Kind := [number, const, var, func, leftParen, rightParen, comma, op]

/-- The kind with the given label. -/
def ofLabel (s : String) : Kind :=
  (all.find? (·.label = s)).getD (other s)

end Kind

/-- A piece of the input and its kind. -/
structure Token where
  kind : Kind
  text : String
deriving DecidableEq, Repr, Inhabited

namespace Token

/-- A token as messages show it. -/
def display (t : Token) : String :=
  "(" ++ Text.quoted t.kind.label ++ ", " ++ Text.quoted t.text ++ ")"

/-- A token list as messages show it. -/
def displayAll (ts : List Token) : String :=
  "[" ++ ", ".intercalate (ts.map display) ++ "]"

/-- The operator that an operator token stands for. -/
def op? (t : Token) : Option Op :=
  if t.kind = .op then some (Op.ofSymbol t.text) else none

end Token

end Fluxion
