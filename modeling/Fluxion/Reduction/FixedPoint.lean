/-
# Simplification to a fixed point

A **pass** goes over an expression once: it simplifies the operands of the root, each to its own
fixed point, from left to right, and then applies the rules to the root.  A **simplification**
repeats passes until one of them changes nothing, or until a cap on their number is reached.

A simplification works on the caller's expression.  Simplified operands are put in place of the
old ones as soon as they are ready, so the caller's expression changes even when an error stops
the work half-way; what replaces the root, on the other hand, reaches the caller through the
answer only.  So besides its answer a run tells what is left of the expression it was given.

The operands of a replaced root are operands it already had, or none, so the height of what is
being simplified never grows.  Nested simplifications are therefore defined by recursion on the
number of levels, which the height of the expression bounds.
-/
import Fluxion.Journal
import Fluxion.Reduction.Rules

namespace Fluxion

namespace Reduction

/-! ## 1. Results -/

/-- What a pass did to an expression. -/
inductive Change where
  /-- The root stays; `changed` tells whether an operand was changed. -/
  | kept (changed : Bool)
  /-- Another expression takes the place of the root. -/
  | replaced (result : Expr)

/-- The result of one pass. -/
structure Pass where
  outcome : Except ReduceError Change
  /-- The expression that was given, as the pass leaves it. -/
  source : Expr
  log : Journal

/-- The result of one pass over the arguments of a function. -/
structure ArgsPass where
  /-- Whether an argument was changed. -/
  outcome : Except ReduceError Bool
  args : List Expr
  log : Journal

/-- The result of a simplification. -/
structure Run where
  /-- The simplified expression, and whether it differs from the one that was given. -/
  answer : Except ReduceError (Expr × Bool)
  /-- The expression that was given, as the simplification leaves it. -/
  source : Expr
  log : Journal

/-! ## 2. One pass

The operands are simplified by `reduce`, which is an argument here. -/

/-- Simplifies arguments from left to right, up to the first error. -/
def passArgs (reduce : Expr → Run) : List Expr → ArgsPass
  | [] => ⟨.ok false, [], ∅⟩
  | a :: as =>
    let run := reduce a
    match run.answer with
    | .error x => ⟨.error x, run.source :: as, run.log⟩
    | .ok (a', changed) =>
      let rest := passArgs reduce as
      ⟨rest.outcome.map (changed || ·), a' :: rest.args, run.log ++ rest.log⟩

/-- One pass over a function call. -/
def passFunc (reduce : Expr → Run) (f : String) (args : List Expr) : Pass :=
  let inner := passArgs reduce args
  let source := .func f inner.args
  match inner.outcome with
  | .error x => ⟨.error x, source, inner.log⟩
  | .ok changed =>
    match specialValue? f inner.args with
    | .error x => ⟨.error (.evaluation x), source, inner.log⟩
    | .ok none => ⟨.ok (.kept changed), source, inner.log⟩
    | .ok (some v) =>
      ⟨.ok (.replaced (.num v)), source, inner.log ++ .record (.specialValue f v)⟩

/-- One pass over two operands. -/
def passBin (reduce : Expr → Run) (op : Op) (l r : Expr) : Pass :=
  let left := reduce l
  match left.answer with
  | .error x => ⟨.error x, .bin op left.source r, left.log⟩
  | .ok (l', leftChanged) =>
    let right := reduce r
    match right.answer with
    | .error x => ⟨.error x, .bin op l' right.source, left.log ++ right.log⟩
    | .ok (r', rightChanged) =>
      let log := left.log ++ right.log
      match joined? op l' r' with
      | .error x => ⟨.error x, .bin op l' r', log⟩
      | .ok (some e) => ⟨.ok (.replaced e), .bin op l' r', log⟩
      | .ok none => ⟨.ok (.kept (leftChanged || rightChanged)), .bin op l' r', log⟩

/-- One pass over an expression. -/
def pass (reduce : Expr → Run) : Expr → Pass
  | .func f args => passFunc reduce f args
  | .bin op l r => passBin reduce op l r
  | .hole => ⟨.error (.malformed .missing), .hole, ∅⟩
  | e => ⟨.ok (.kept false), e, ∅⟩

/-! ## 3. Passes up to a fixed point -/

/-- Repeats a pass: at most the given number of times after the `made` passes so far, which
changed something if `changed`.  What replaces a root is an operand that is simplified already, or
a number, so the passes after that leave the caller's expression alone. -/
def repeatPass (onePass : Expr → Pass) (cap : Int) : Nat → Nat → Bool → Expr → Run
  | 0, _, _, e => ⟨.error (.evaluation (.noFixedPoint cap)), e, ∅⟩
  | remaining + 1, made, changed, e =>
    let p := onePass e
    match p.outcome with
    | .error x => ⟨.error x, p.source, p.log⟩
    | .ok (.kept false) =>
      ⟨.ok (p.source, changed), p.source, p.log ++ .record (.fixedPoint (made + 1))⟩
    | .ok (.kept true) =>
      let run := repeatPass onePass cap remaining (made + 1) true p.source
      ⟨run.answer, run.source, p.log ++ run.log⟩
    | .ok (.replaced e') =>
      let run := repeatPass onePass cap remaining (made + 1) true e'
      ⟨run.answer, p.source, p.log ++ run.log⟩

/-- Simplification with at most `cap` passes at every level, for expressions of at most the given
height. -/
def reduceWithin (cap : Int) : Nat → Expr → Run
  | 0, e => ⟨.ok (e, false), e, ∅⟩
  | levels + 1, e =>
    repeatPass (pass (reduceWithin cap levels)) cap cap.toNat 0 false e

end Reduction

open Reduction

namespace Expr

/-- One pass over an expression, in which every nested simplification makes at most `cap`
passes. -/
def firstPass (cap : Int) (e : Expr) : Pass :=
  pass (reduceWithin cap e.height) e

/-- Simplifies an expression in one pass. -/
def reduceOnce (cap : Int) (e : Expr) : Run :=
  let p := e.firstPass cap
  let answer := p.outcome.map fun
    | .kept changed => (p.source, changed)
    | .replaced e' => (e', true)
  ⟨answer, p.source, p.log⟩

/-- Simplifies an expression with at most `passes` passes, or `cap` of them if no number is given;
every nested simplification makes at most `cap` passes. -/
def reduce (cap : Int) (passes : Option Int) (e : Expr) : Run :=
  let most := passes.getD cap
  repeatPass (pass (reduceWithin cap e.height)) most most.toNat 0 false e

end Expr

end Fluxion
