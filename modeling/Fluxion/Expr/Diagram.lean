/-
# The diagram

The diagram shows one node per line, in the order "node, then its operands from left to right".
Lines drawn in front of the operands tell which node they belong to:

    Mul
     ├─Pow
     │   ├─x
     │   ╰─2
     ╰─sin
         ╰─x
-/
import Fluxion.Expr.Flat

namespace Fluxion

/-- The name that the diagram gives to an operator. -/
def Op.name : Op → Except Malformed String
  | .add => .ok "Add"
  | .sub => .ok "Sub"
  | .mul => .ok "Mul"
  | .div => .ok "Div"
  | .pow => .ok "Pow"
  | .other s => .error (.unknownOperator s)

namespace Expr

/-- The lines of an operand's diagram, tied to the node above; `last` tells that no operand
follows, so that the line ends there. -/
def branch (last : Bool) : List String → List String
  | [] => []
  | line :: more =>
    ((if last then " ╰─" else " ├─") ++ line) ::
      more.map ((if last then "    " else " │  ") ++ ·)

mutual
/-- The lines of the diagram. -/
def outline : Expr → Except Malformed (List String)
  | func f args => do
    let below ← outlineAll args
    return f :: below
  | bin op l r => do
    let name ← op.name
    let left ← l.outline
    let right ← r.outline
    return name :: (branch false left ++ branch true right)
  | e => do return [← e.flat]

/-- The lines below a node with the given operands. -/
def outlineAll : List Expr → Except Malformed (List String)
  | [] => .ok []
  | e :: es => do
    let lines ← e.outline
    let more ← outlineAll es
    return branch es.isEmpty lines ++ more
end

/-- The diagram of an expression; every line ends with a line feed. -/
def diagram (e : Expr) : Except Malformed String := do
  return "\n".intercalate (← e.outline) ++ "\n"

end Expr

end Fluxion
