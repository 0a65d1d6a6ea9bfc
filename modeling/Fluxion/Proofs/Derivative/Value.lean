/-
# Reading expressions in a field

The value of an expression in a field: the four operations are those of the field, everything
else (numbers, constants, variables, functions of one argument, powers) is read as the reading
says.  Expressions that differentiation has no rule for are left out by `Expr.Supported`; what
they are worth does not matter.
-/
import Fluxion.Proofs.Expr.Proper
import Mathlib.Algebra.Field.Defs

namespace Fluxion

universe u

/-- What the leaves, the functions and the powers of an expression stand for in `K`. -/
structure Reading (K : Type u) where
  num : Float → K
  const : String → K
  var : String → K
  func : String → K → K
  pow : K → K → K

namespace Reading

variable {K : Type u} [Field K]

/-- The value of an expression. -/
def value (R : Reading K) : Expr → K
  | .num v => R.num v
  | .const c => R.const c
  | .var x => R.var x
  | .func f [a] => R.func f (R.value a)
  | .func _ _ => 0
  | .bin .add l r => R.value l + R.value r
  | .bin .sub l r => R.value l - R.value r
  | .bin .mul l r => R.value l * R.value r
  | .bin .div l r => R.value l / R.value r
  | .bin .pow l r => R.pow (R.value l) (R.value r)
  | .bin (.other _) _ _ => 0
  | .hole => 0

end Reading

/-- The expression is complete, its operators are the five known ones, and its functions have one
argument each. -/
structure Expr.Supported (e : Expr) : Prop where
  known : ∀ op l r, .bin op l r ∈ e.parts → op.isKnown = true
  unary : ∀ f args, .func f args ∈ e.parts → args.length = 1
  complete : .hole ∉ e.parts

namespace Expr

theorem supported_num (v : Float) : (num v).Supported := by
  constructor <;> simp

theorem supported_var (x : String) : (var x).Supported := by
  constructor <;> simp

/-- The supported expressions are the proper ones whose functions have one argument each. -/
theorem supported_iff {e : Expr} :
    e.Supported ↔ e.Proper ∧ ∀ f args, func f args ∈ e.parts → args.length = 1 :=
  ⟨fun h => ⟨⟨h.known, h.complete⟩, h.unary⟩, fun h => ⟨h.1.known, h.2, h.1.complete⟩⟩

/-- What has no other parts than a supported expression is supported. -/
theorem Supported.mono {d e : Expr} (h : e.Supported) (hparts : ∀ p ∈ d.parts, p ∈ e.parts) :
    d.Supported :=
  ⟨fun op l r hp => h.known op l r (hparts _ hp), fun f args hp => h.unary f args (hparts _ hp),
    fun hhole => h.complete (hparts _ hhole)⟩

theorem supported_func_iff {f : String} {args : List Expr} :
    (func f args).Supported ↔ ∃ a, args = [a] ∧ a.Supported := by
  constructor
  · intro h
    obtain ⟨a, rfl⟩ := List.length_eq_one_iff.mp (h.unary f args (mem_parts_self _))
    exact ⟨a, rfl, h.mono fun p hp => by simp [hp]⟩
  · rintro ⟨a, rfl, ha⟩
    refine ⟨fun op l r h => ha.known op l r (by simpa using h), ?_, by simpa using ha.complete⟩
    intro g args h
    rcases mem_parts_func.mp h with hroot | ⟨d, hd, hin⟩
    · obtain ⟨-, rfl⟩ := Expr.func.inj hroot
      rfl
    · obtain rfl := List.mem_singleton.mp hd
      exact ha.unary g args hin

theorem supported_bin_iff {op : Op} {l r : Expr} :
    (bin op l r).Supported ↔ op.isKnown = true ∧ l.Supported ∧ r.Supported := by
  constructor
  · intro h
    exact ⟨h.known op l r (mem_parts_self _), h.mono fun p hp => by simp [hp],
      h.mono fun p hp => by simp [hp]⟩
  · rintro ⟨hop, hl, hr⟩
    refine ⟨?_, ?_, by simp [hl.complete, hr.complete]⟩
    · intro op' a b h
      rcases mem_parts_bin.mp h with hroot | hin | hin
      · obtain ⟨rfl, -, -⟩ := Expr.bin.inj hroot
        exact hop
      · exact hl.known op' a b hin
      · exact hr.known op' a b hin
    · intro f args h
      rcases (mem_parts_bin.mp h).resolve_left (by simp) with hin | hin
      · exact hl.unary f args hin
      · exact hr.unary f args hin

end Expr

end Fluxion
