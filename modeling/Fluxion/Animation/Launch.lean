/-
# Launching an animation

The launcher asks for an expression, lists the formulas of its stages, and starts the renderer on
it.  An empty answer stands for the expression in the settings.  A failure that is the input's
fault is reported, the stages before it are listed, and the renderer is started all the same: it
will show the report.
-/
import Fluxion.Expr.Latex
import Fluxion.Session

namespace Fluxion.Animation

/-- A start of the renderer: its command line, and the expression that the environment hands
over to it. -/
structure Launch where
  command : List String
  expression : String
deriving DecidableEq, Repr

/-- Why the launcher starts nothing. -/
inductive LaunchError where
  | unknownLevel (l : UnknownLevel)
  /-- The input ended before a line was read. -/
  | endOfInput
  | failed (f : Failure)

/-- The text that reports the error. -/
def LaunchError.message : LaunchError → String
  | unknownLevel l => l.message
  | endOfInput => "EOF when reading a line"
  | failed f => f.message

/-- What the launcher writes and starts. -/
structure Launcher where
  output : String
  errors : String
  records : List Event
  launches : List Launch
  escaped : Option LaunchError

namespace Launcher

/-- A stage with its number and its formula. -/
def stageLine (index : Nat) (snapshot : Snapshot) : Except Malformed String := do
  let formula ← snapshot.expr.latex
  return "Step " ++ toString index ++ " (" ++ snapshot.stage.label ++ "): " ++ formula

/-- The formulas of the stages, numbered from the given number on. -/
def stageLinesFrom (index : Nat) : List Snapshot → Except Malformed (List String)
  | [] => .ok []
  | snapshot :: snapshots => do
    let line ← stageLine index snapshot
    let lines ← stageLinesFrom (index + 1) snapshots
    return line :: lines

/-- The formulas of the stages, numbered from one. -/
def stageLines (snapshots : List Snapshot) : Except Malformed (List String) :=
  stageLinesFrom 1 snapshots

/-- What the launcher asks. -/
def question : Entry := .out "Enter expression: "

/-- The renderer's start on an expression. -/
def launch (settings : Settings) (expression : String) : Launch :=
  ⟨["manim", settings.quality, settings.script, settings.scene], expression⟩

/-- The expression that an answer stands for. -/
def chosen (settings : Settings) (answer : String) : String :=
  (Settings.nonEmpty (Text.strip answer)).getD settings.expression

/-- What the launcher does with a derivation: what it writes, whether it starts the renderer, and
what stops it. -/
def showDerivation (d : Derivation) : List Entry × Option Failure :=
  let records := d.log.map .record
  let list (before : List Entry) : List Entry × Option Failure :=
    let before := before ++ [.line "RENDER_LIST:"]
    match stageLines d.stages with
    | .ok lines => (before ++ lines.map .line, none)
    | .error m => (before, some (.malformed m))
  match d.failure with
  | none => list records
  | some f =>
    match f.report? with
    | some report => list (records ++ [.line ("error: " ++ report)])
    | none => (records, some f)

/-- The launcher on a given input; the level is looked up before anything is asked. -/
def run (settings : Settings) (input : String) : Launcher :=
  match settings.threshold with
  | .error l => ⟨"", "", [], [], some (.unknownLevel l)⟩
  | .ok threshold =>
    let written (es : List Entry) (launches : List Launch) (escaped : Option LaunchError) :
        Launcher :=
      ⟨Entry.output es, Entry.errors threshold es, Entry.records es, launches, escaped⟩
    match Text.lines input with
    | [] => written [question] [] (some .endOfInput)
    | answer :: _ =>
      let expression := chosen settings answer
      let (entries, escaped) :=
        showDerivation (Derivation.ofText settings settings.wrt expression)
      match escaped with
      | none => written (question :: entries) [launch settings expression] none
      | some f => written (question :: entries) [] (some (.failed f))

end Launcher

end Fluxion.Animation
