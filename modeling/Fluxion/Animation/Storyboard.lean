/-
# The storyboard of a derivation

An animated derivation shows the text of the expression under a heading.  Then the text becomes
the formula of each stage in turn, while the heading names the stage.  If the derivation fails,
the report of the failure appears below the text instead.
-/
import Fluxion.Derivation
import Fluxion.Expr.Latex

namespace Fluxion.Animation

/-- Something that is shown: plain text, or the source of a typeset formula. -/
inductive Label where
  | text (s : String)
  | formula (source : String)
deriving DecidableEq, Repr

/-- A movement of labels. -/
inductive Movement where
  | fadeIn (label : Label)
  /-- One label takes the look of another. -/
  | transform (label target : Label)
deriving DecidableEq, Repr

/-- One step of the animation; times are in seconds. -/
inductive Cue where
  /-- Movements that run together. -/
  | play (movements : List Movement) (time : Float)
  | wait (time : Float)

/-- The cues of an animation, the failure that cut it short, if any, and the records. -/
structure Storyboard where
  cues : List Cue
  escaped : Option Failure
  log : List Event

namespace Storyboard

/-- The heading over the stage with the given label. -/
def heading (label : String) : Label := .text ("Step: " ++ label)

/-- The heading over the text, which it shows throughout: a transformed label keeps its text. -/
def firstHeading : Label := heading Stage.input.label

/-- The opening: the heading and the text appear. -/
def opening (settings : Settings) (expression : String) : Cue :=
  .play [.fadeIn firstHeading, .fadeIn (.text expression)] settings.movementTime

/-- The movements that lead to a stage with the given formula. -/
def stageCue (settings : Settings) (expression : String) (stage : Stage) (formula : String) :
    Cue :=
  .play
    [.transform firstHeading (heading stage.label),
      .transform (.text expression) (.formula formula)]
    settings.movementTime

/-- The cues of the given stages, up to one that has no formula. -/
def stageCues (settings : Settings) (expression : String) :
    List Snapshot → List Cue × Option Failure
  | [] => ([.wait settings.closingTime], none)
  | snapshot :: snapshots =>
    match snapshot.expr.latex with
    | .error m => ([], some (.malformed m))
    | .ok formula =>
      let (cues, escaped) := stageCues settings expression snapshots
      (stageCue settings expression snapshot.stage formula :: cues, escaped)

/-- The cues that show a report. -/
def reportCues (settings : Settings) (report : String) : List Cue :=
  [.play [.fadeIn (.text report)] settings.movementTime, .wait settings.closingTime]

/-- The storyboard of the given expression, or of the one in the settings. -/
def make (settings : Settings) (expression? : Option String) : Storyboard :=
  let expression := expression?.getD settings.expression
  let opening := opening settings expression
  let d := Derivation.ofText settings settings.wrt expression
  match d.failure with
  | none =>
    let (cues, escaped) := stageCues settings expression d.stages
    ⟨opening :: cues, escaped, d.log⟩
  | some f =>
    match f.report? with
    | some report =>
      ⟨opening :: reportCues settings report, none, d.log ++ [.notRendered expression f.message]⟩
    | none => ⟨[opening], some f, d.log⟩

end Storyboard

end Fluxion.Animation
