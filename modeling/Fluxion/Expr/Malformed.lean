/-
# Malformed expressions

An expression that no reader would make can hold a foreign operator or a hole.  An analysis that
meets one where it needs a meaning stops and names it.
-/
import Fluxion.Expr.Basic
import Fluxion.Text.Quoted

namespace Fluxion

/-- What an analysis cannot make sense of. -/
inductive Malformed where
  /-- An operator without a rank, a name or a meaning. -/
  | unknownOperator (symbol : String)
  /-- A hole in place of an expression. -/
  | missing
deriving DecidableEq, Repr

/-- The text that reports it: the symbol between quotes, or a sentence about the hole. -/
def Malformed.message : Malformed → String
  | unknownOperator s => Text.quoted s
  | missing => "Unknown expression: None"

end Fluxion
