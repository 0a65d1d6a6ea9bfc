/-
# The rules of simplification

Three kinds of rules replace a node whose operands are already simplified.

* **Folding**: two numbers joined by an operator become the number that floating-point arithmetic
  gives.  Division by zero and undefined powers give an infinity or no number, as that arithmetic
  lays down.
* **Identities**: a sum with zero, a product with zero or one, a quotient with zero above or one
  below, a power with exponent zero or one or with base one.  A quotient with the number zero
  below and anything but a number above has no value and is an error.
* **Special values**: `sin` at zero and at `pi`, `ln` at zero and at `e`.

Each rule looks at one node only.  Zero is recognised whatever its sign.
-/
import Fluxion.Expr.Malformed
import Fluxion.Numeral.Power

namespace Fluxion

/-! ## 1. Errors -/

/-- Why an expression has no simplified form. -/
inductive EvalError where
  /-- Something that is not a number stands over the number zero. -/
  | divisionByZero
  /-- A function of one argument was called with another number of them. -/
  | wrongArity (function : String) (given : Nat)
  /-- Passes were still changing the expression when the allowed number of them was used up. -/
  | noFixedPoint (passes : Int)
deriving DecidableEq, Repr

namespace EvalError

/-- The class that reports name the error by. -/
def label : EvalError → String
  | divisionByZero => "DivisionByZero"
  | wrongArity .. => "WrongArguments"
  | noFixedPoint _ => "EvaluationError"

/-- The text that reports the error. -/
def message : EvalError → String
  | divisionByZero => "Division by zero"
  | wrongArity f n =>
    f ++ "() takes exactly one argument (" ++ toString n ++ " given)"
  | noFixedPoint n => "No fixed point after " ++ toString n ++ " passes"

end EvalError

/-- Why simplification stops: the expression has no value, or it is malformed. -/
inductive ReduceError where
  | evaluation (e : EvalError)
  | malformed (m : Malformed)
deriving DecidableEq, Repr

/-! ## 2. Folding -/

/-- The number that an operator makes of two numbers. -/
def Op.apply (op : Op) (a b : Float) : Except Malformed Float :=
  match op with
  | .add => .ok (a + b)
  | .sub => .ok (a - b)
  | .mul => .ok (a * b)
  | .div => .ok (a / b)
  | .pow => .ok (Numeral.power a b)
  | .other s => .error (.unknownOperator s)

namespace Reduction

/-! ## 3. Identities -/

/-- What an identity of the operator makes of two operands, if one applies. -/
def identity? (op : Op) (l r : Expr) : Except EvalError (Option Expr) :=
  match op with
  | .add | .sub =>
    if l.isNumber 0.0 then .ok (some r)
    else if r.isNumber 0.0 then .ok (some l)
    else .ok none
  | .mul =>
    if l.isNumber 1.0 then .ok (some r)
    else if l.isNumber 0.0 then .ok (some (.num 0.0))
    else if r.isNumber 1.0 then .ok (some l)
    else if r.isNumber 0.0 then .ok (some (.num 0.0))
    else .ok none
  | .div =>
    if l.isNumber 0.0 then .ok (some (.num 0.0))
    else if r.isNumber 1.0 then .ok (some l)
    else if r.isNumber 0.0 then .error .divisionByZero
    else .ok none
  | .pow =>
    if l.isNumber 1.0 then .ok (some (.num 1.0))
    else if r.isNumber 0.0 then .ok (some (.num 1.0))
    else if r.isNumber 1.0 then .ok (some l)
    else .ok none
  | .other _ => .ok none

/-! ## 4. Special values -/

/-- The sine of zero and of `pi`. -/
def sineAt? : Expr → Option Float
  | .num v => if v == 0.0 then some 0.0 else none
  | .const c => if c = "pi" then some 0.0 else none
  | _ => none

/-- The logarithm at zero, which counts as zero, and at `e`. -/
def logarithmAt? : Expr → Option Float
  | .num v => if v == 0.0 then some 0.0 else none
  | .const c => if c = "e" then some 1.0 else none
  | _ => none

/-- The special values of a function, if it has any. -/
def specialRule? (f : String) : Option (Expr → Option Float) :=
  if f = "sin" then some sineAt?
  else if f = "ln" then some logarithmAt?
  else none

/-- The value of a function at the given arguments, if it is one of the special values.  The
functions that have such values take one argument. -/
def specialValue? (f : String) (args : List Expr) : Except EvalError (Option Float) :=
  match specialRule? f with
  | none => .ok none
  | some value =>
    match args with
    | [a] => .ok (value a)
    | _ => .error (.wrongArity f args.length)

/-! ## 5. Nodes -/

/-- What the rules make of two operands, if one applies.  Folding comes first, so a number over
the number zero is folded and is no error. -/
def joined? (op : Op) (l r : Expr) : Except ReduceError (Option Expr) :=
  match l, r with
  | .num a, .num b =>
    match op.apply a b with
    | .ok v => .ok (some (.num v))
    | .error m => .error (.malformed m)
  | l, r =>
    match identity? op l r with
    | .ok e => .ok e
    | .error x => .error (.evaluation x)

end Reduction

end Fluxion
