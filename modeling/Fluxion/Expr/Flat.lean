/-
# The flat form

The flat form writes an expression on one line: `x ^ 2 * sin(x)`.  Each operator has a rank, from
subtraction, which binds loosest, to power, which binds tightest.  A joined operand is put in
parentheses when its operator ranks below the one around it.  Operands of the same rank stay bare,
so `x - (y + z)` and `(x - y) + z` look alike; the one exception is a power whose base is a power,
which keeps `(2 ^ 3) ^ 2` apart from `2 ^ 3 ^ 2`.
-/
import Fluxion.Expr.Malformed
import Fluxion.Numeral.Format

namespace Fluxion

/-- How tightly an operator binds when it is shown. -/
def Op.rank : Op → Except Malformed Nat
  | .sub => .ok 0
  | .add => .ok 1
  | .mul => .ok 2
  | .div => .ok 3
  | .pow => .ok 4
  | .other s => .error (.unknownOperator s)

/-- The text between parentheses. -/
def parenthesised (s : String) : String := "(" ++ s ++ ")"

namespace Expr

/-- The operand of an operator needs parentheses around it; `isLeft` tells on which side it
stands. -/
def isGrouped (parent : Op) (operand : Expr) (isLeft : Bool) : Except Malformed Bool :=
  match operand with
  | bin op _ _ =>
    if isLeft && parent == .pow && op == .pow then .ok true
    else do
      let outer ← parent.rank
      let inner ← op.rank
      return inner < outer
  | _ => .ok false

mutual
/-- The flat form of an expression. -/
def flat : Expr → Except Malformed String
  | num v => .ok (Numeral.numberText v)
  | const c => .ok c
  | var x => .ok x
  | func f args => do
    let texts ← flatAll args
    return f ++ parenthesised (", ".intercalate texts)
  | bin op l r => do
    let left ← l.flat
    let right ← r.flat
    let groupLeft ← isGrouped op l true
    let groupRight ← isGrouped op r false
    let left := if groupLeft then parenthesised left else left
    let right := if groupRight then parenthesised right else right
    return left ++ " " ++ op.symbol ++ " " ++ right
  | hole => .error .missing

/-- The flat forms of several expressions. -/
def flatAll : List Expr → Except Malformed (List String)
  | [] => .ok []
  | e :: es => do
    let text ← e.flat
    let texts ← flatAll es
    return text :: texts
end

end Expr

end Fluxion
