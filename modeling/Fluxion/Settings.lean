/-
# Settings

The settings of a run: what is differentiated by which variable, how long simplification may go
on, what the prompt looks like, and how an animation is made.  They have default values, some of
which environment variables replace.
-/
import Fluxion.Numeral.Integer
import Fluxion.Text.LetterCase

namespace Fluxion

/-- The settings of a run. -/
structure Settings where
  /-- The least level of the records that are shown. -/
  level : String := "WARNING"
  /-- The expression that is animated when none is given. -/
  expression : String := "x^2 * sin(x)"
  /-- The variable of differentiation; without one, every variable is. -/
  wrt : Option String := none
  /-- The greatest number of passes of one simplification. -/
  passLimit : Int := 1000
  prompt : String := ">>> "
  /-- The line, in small letters, that ends a session. -/
  exitWord : String := "exit"
  /-- The path of the file that the renderer loads, with the scene in it. -/
  script : String := "scene.py"
  scene : String := "DeriveScene"
  /-- The option that chooses the quality of an animation. -/
  quality : String := "-pqh"
  /-- The seconds that one movement takes. -/
  movementTime : Float := 1.2
  /-- The seconds that the last picture stays. -/
  closingTime : Float := 2.0
  /-- How deep an expression may nest, both when it is read and when it is differentiated. -/
  nesting : Option Nat := some 500

namespace Settings

/-- The value, unless it is empty. -/
def nonEmpty (s : String) : Option String := if s = "" then none else some s

/-- The settings that an environment gives; `env` looks its variables up.  An empty expression or
variable counts as absent, an empty quality does not. -/
def ofEnvironment (env : String → Option String) : Except Numeral.IntegerError Settings := do
  let base : Settings := {}
  let passLimit ← match env "DERIVATOR_MAX_PASSES" with
    | none => pure base.passLimit
    | some text => Numeral.readInt text
  return { base with
    level := Text.toCapitals ((env "DERIVATOR_LOG_LEVEL").getD base.level)
    expression := ((env "DERIVATOR_EXPR").bind nonEmpty).getD base.expression
    wrt := (env "DERIVATOR_VARIABLE").bind nonEmpty
    passLimit
    quality := (env "DERIVATOR_SCENE_QUALITY").getD base.quality }

end Settings

end Fluxion
