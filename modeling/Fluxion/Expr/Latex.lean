/-
# The formula

The formula is the LaTeX source of an expression as it is typeset: fractions, raised exponents,
upright function names.  It has more parentheses than the flat form, so that a typeset formula is
not misread: around a joined or negated base of a power, around the joined operand of a negation,
and around a sum or difference that is subtracted.
-/
import Fluxion.Expr.Flat

namespace Fluxion

namespace Latex

/-- The functions that LaTeX has a command for. -/
def commands : List String := ["sin", "cos", "tan", "sec", "ln", "exp", "log"]

/-- Source text as one group. -/
def braced (s : String) : String := "\x7b" ++ s ++ "\x7d"

/-- Source text between parentheses that grow with it. -/
def grouped (s : String) : String := "\\left(" ++ s ++ "\\right)"

/-- A function name without the primes at its end, and those primes. -/
def splitPrimes (name : String) : String × String :=
  let tail := name.toList.reverse
  (String.ofList (tail.dropWhile (· = '\'')).reverse, String.ofList (tail.takeWhile (· = '\'')))

/-- The name of a function: its command, or the name set upright; primes follow. -/
def functionName (name : String) : String :=
  let (base, primes) := splitPrimes name
  if base ∈ commands then "\\" ++ base ++ primes
  else "\\operatorname" ++ braced base ++ primes

/-- The name of a constant. -/
def constantName (name : String) : String :=
  if name = "pi" then "\\pi" else name

/-- A number; infinity has a sign of its own. -/
def number (v : Float) : String :=
  if v.isInf then (if v < 0.0 then "-\\infty" else "\\infty") else Numeral.numberText v

/-- A function applied to arguments whose formulas are given.  A negated operand is grouped when
it is joined. -/
def call (f : String) (args : List Expr) (texts : List String) : String :=
  match args, texts with
  | [a], [t] =>
    if f = negation then "-" ++ (if a.isBin then grouped t else t)
    else functionName f ++ grouped t
  | _, _ => functionName f ++ grouped (", ".intercalate texts)

/-- The base of a power is grouped: it is joined or negated. -/
def groupsBase : Expr → Bool
  | .bin .. => true
  | .func f _ => f == negation
  | _ => false

/-- A sum or a difference, which is grouped when it is subtracted. -/
def isSum : Expr → Bool
  | .bin op _ _ => op == .add || op == .sub
  | _ => false

/-- Two formulas joined by an operator other than division and power. -/
def joined (op : Op) (left right : String) : String :=
  match op with
  | .mul => left ++ " \\cdot " ++ right
  | op => left ++ " " ++ op.symbol ++ " " ++ right

/-- Two operands, whose formulas are given, joined by an operator. -/
def binary (op : Op) (l r : Expr) (left right : String) : Except Malformed String :=
  match op with
  | .div => .ok ("\\frac" ++ braced left ++ braced right)
  | .pow => .ok (braced (if groupsBase l then grouped left else left) ++ "^" ++ braced right)
  | op => do
    let groupLeft ← Expr.isGrouped op l true
    let groupRight ← Expr.isGrouped op r false
    return joined op (if groupLeft then grouped left else left)
      (if groupRight || (op == .sub && isSum r) then grouped right else right)

end Latex

namespace Expr

mutual
/-- The LaTeX source of an expression. -/
def latex : Expr → Except Malformed String
  | num v => .ok (Latex.number v)
  | const c => .ok (Latex.constantName c)
  | var x => .ok x
  | func f args => do
    let texts ← latexAll args
    return Latex.call f args texts
  | bin op l r => do
    let left ← l.latex
    let right ← r.latex
    Latex.binary op l r left right
  | hole => .error .missing

/-- The LaTeX sources of several expressions. -/
def latexAll : List Expr → Except Malformed (List String)
  | [] => .ok []
  | e :: es => do
    let text ← e.latex
    let texts ← latexAll es
    return text :: texts
end

end Expr

end Fluxion
