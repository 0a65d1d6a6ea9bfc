/-
# Expressions

An expression is a number, a symbolic constant, a variable, a function applied to arguments, or
two expressions joined by a binary operator.  Negation is the function named `-` with one
argument; it has no operator of its own.

Expressions come from the reader, which knows five operators, or are handed in ready-made by a
caller, who may use any operator symbol and any name, and may leave a place empty.  So the type
has room for a foreign operator and for a hole, and each analysis says what it does with them.
-/
namespace Fluxion

/-! ## 1. Operators -/

/-- A binary operator: one of the five, or a foreign one known by its symbol only. -/
inductive Op where
  | add
  | sub
  | mul
  | div
  | pow
  | other (symbol : String)
deriving DecidableEq, Repr, Inhabited

namespace Op

/-- The symbol an operator is written with. -/
def symbol : Op → String
  | add => "+"
  | sub => "-"
  | mul => "*"
  | div => "/"
  | pow => "^"
  | other s => s

/-- The operator with the given symbol. -/
def ofSymbol (s : String) : Op :=
  if s = "+" then add
  else if s = "-" then sub
  else if s = "*" then mul
  else if s = "/" then div
  else if s = "^" then pow
  else other s

/-- The five operators that have a meaning. -/
def isKnown : Op → Bool
  | other _ => false
  | _ => true

theorem symbol_ofSymbol (s : String) : (ofSymbol s).symbol = s := by
  unfold ofSymbol
  repeat' split
  all_goals simp_all [symbol]

end Op

/-! ## 2. Expressions -/

/-- An arithmetic expression. -/
inductive Expr where
  /-- A number. -/
  | num (value : Float)
  /-- A symbolic constant, such as `pi`. -/
  | const (name : String)
  /-- A variable. -/
  | var (name : String)
  /-- A function applied to arguments. -/
  | func (name : String) (args : List Expr)
  /-- Two expressions joined by an operator. -/
  | bin (op : Op) (left right : Expr)
  /-- An empty place, where an expression is missing. -/
  | hole
deriving Inhabited

/-- The name of the function that negates its argument. -/
def negation : String := "-"

namespace Expr

/-- The negation of an expression. -/
def neg (e : Expr) : Expr := func negation [e]

/-- The root of the expression is an operator. -/
def isBin : Expr → Bool
  | bin .. => true
  | _ => false

/-- The expression is a number equal to `v`; zero equals zero whatever its sign. -/
def isNumber (v : Float) : Expr → Bool
  | num w => w == v
  | _ => false

mutual
/-- How many levels of nodes an expression has. -/
def height : Expr → Nat
  | func _ args => heightAll args + 1
  | bin _ l r => max l.height r.height + 1
  | _ => 1

/-- The height of the highest of several expressions, zero for none. -/
def heightAll : List Expr → Nat
  | [] => 0
  | e :: es => max e.height (heightAll es)
end

mutual
/-- How many nodes an expression has. -/
def size : Expr → Nat
  | func _ args => sizeAll args + 1
  | bin _ l r => l.size + r.size + 1
  | _ => 1

/-- How many nodes several expressions have together. -/
def sizeAll : List Expr → Nat
  | [] => 0
  | e :: es => e.size + sizeAll es
end

mutual
/-- The two expressions have the same structure, with equal numbers in the same places.  Numbers
are compared as numbers, so the two zeros are equal. -/
def same : Expr → Expr → Bool
  | num a, num b => a == b
  | const a, const b => a == b
  | var a, var b => a == b
  | func f as, func g bs => f == g && sameAll as bs
  | bin o l r, bin p l' r' => o == p && l.same l' && r.same r'
  | hole, hole => true
  | _, _ => false

/-- The two lists hold the same expressions in the same order. -/
def sameAll : List Expr → List Expr → Bool
  | [], [] => true
  | a :: as, b :: bs => a.same b && sameAll as bs
  | _, _ => false
end

/-! ## 3. Induction

A function's arguments form a list, so a property of all expressions is proved with the property
of every argument at hand. -/

/-- Induction on expressions, with the arguments of a function as members of their list. -/
theorem induct {P : Expr → Prop} (num : ∀ v, P (num v)) (const : ∀ c, P (const c))
    (var : ∀ x, P (var x)) (func : ∀ f args, (∀ a ∈ args, P a) → P (func f args))
    (bin : ∀ op l r, P l → P r → P (bin op l r)) (hole : P hole) : ∀ e, P e
  | .num v => num v
  | .const c => const c
  | .var x => var x
  | .func f args => func f args (all args)
  | .bin op l r =>
    bin op l r (induct num const var func bin hole l) (induct num const var func bin hole r)
  | .hole => hole
where
  /-- The property holds of every member of a list. -/
  all : ∀ es : List Expr, ∀ a ∈ es, P a
    | [], _, h => nomatch h
    | e :: es, a, h => by
      have head : P e := induct num const var func bin hole e
      have tail : ∀ d ∈ es, P d := all es
      rcases List.mem_cons.mp h with rfl | h
      · exact head
      · exact tail a h

theorem height_pos : ∀ e : Expr, 0 < e.height
  | num _ | const _ | var _ | hole => by simp [height]
  | func _ _ | bin _ _ _ => by simp [height]

theorem height_le_heightAll {e : Expr} : ∀ {es : List Expr}, e ∈ es → e.height ≤ heightAll es
  | d :: ds, h => by
    rcases List.mem_cons.mp h with rfl | h
    · exact Nat.le_max_left _ _
    · exact Nat.le_trans (height_le_heightAll h) (Nat.le_max_right _ _)

end Expr

end Fluxion
