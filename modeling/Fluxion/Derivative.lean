/-
# The derivative

`Expr.derivative` applies the rules of differentiation and nothing else: it does not simplify.
A variable has derivative one when it is the variable of differentiation, or when none is named,
and zero otherwise.  A function is differentiated by the chain rule; one without a rule of its
own gets a prime after its name.

The rules work on known operators and on functions of one argument.  Operands are differentiated
in a fixed order, which decides the error when several of them have no derivative.
-/
import Fluxion.Expr.Malformed

namespace Fluxion

/-- Why an expression has no derivative. -/
inductive DerivativeError where
  /-- There is no rule for functions of that many arguments. -/
  | wrongArity (function : String) (given : Nat)
  /-- There is no rule for the operator. -/
  | unknownOperator (symbol : String)
  /-- An expression is missing. -/
  | missing
deriving DecidableEq, Repr

namespace DerivativeError

/-- The text that reports the error. -/
def message : DerivativeError → String
  | wrongArity f n =>
    "Cannot differentiate " ++ f ++ "() with " ++ toString n ++ " arguments"
  | unknownOperator s => "Unknown operator: " ++ Text.quoted s
  | missing => Malformed.missing.message

end DerivativeError

namespace Derivative

/-- The derivative of a function at its argument. -/
def outer (f : String) (a : Expr) : Expr :=
  if f = negation then .num (-1.0)
  else if f = "sin" then .func "cos" [a]
  else if f = "cos" then .bin .mul (.num (-1.0)) (.func "sin" [a])
  else if f = "tan" then .bin .pow (.func "sec" [a]) (.num 2.0)
  else if f = "ln" then .bin .div (.num 1.0) a
  else .func (f ++ "'") [a]

/-- The product rule; `dl` and `dr` are the derivatives of the factors. -/
def product (l r dl dr : Expr) : Expr :=
  .bin .add (.bin .mul l dr) (.bin .mul r dl)

/-- The quotient rule. -/
def quotient (l r dl dr : Expr) : Expr :=
  .bin .div (.bin .sub (.bin .mul r dl) (.bin .mul l dr)) (.bin .pow r (.num 2.0))

/-- The power rule for an arbitrary exponent. -/
def power (l r dl dr : Expr) : Expr :=
  .bin .mul (.bin .pow l r)
    (.bin .add (.bin .mul dr (.func "ln" [l])) (.bin .div (.bin .mul r dl) l))

end Derivative

/-- The derivative by the given variable, or by every variable if none is given. -/
def Expr.derivative (wrt : Option String) : Expr → Except DerivativeError Expr
  | num _ | const _ => .ok (.num 0.0)
  | var x => .ok (.num (if wrt = none ∨ wrt = some x then 1.0 else 0.0))
  | func f [a] => do
    let da ← a.derivative wrt
    return .bin .mul da (Derivative.outer f a)
  | func f args => .error (.wrongArity f args.length)
  | bin .add l r => do
    let dl ← l.derivative wrt
    let dr ← r.derivative wrt
    return .bin .add dl dr
  | bin .sub l r => do
    let dl ← l.derivative wrt
    let dr ← r.derivative wrt
    return .bin .sub dl dr
  | bin .mul l r => do
    let dr ← r.derivative wrt
    let dl ← l.derivative wrt
    return Derivative.product l r dl dr
  | bin .div l r => do
    let dl ← l.derivative wrt
    let dr ← r.derivative wrt
    return Derivative.quotient l r dl dr
  | bin .pow l r => do
    let dr ← r.derivative wrt
    let dl ← l.derivative wrt
    return Derivative.power l r dl dr
  | bin (.other s) _ _ => .error (.unknownOperator s)
  | hole => .error .missing

end Fluxion
