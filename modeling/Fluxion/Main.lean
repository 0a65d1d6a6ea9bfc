/-
# The command line

Without arguments the program holds an interactive session on its standard input.  With the
argument `render` it asks for one expression, lists the formulas of its derivation, and prints the
command that starts the renderer, with the environment variable that hands over the expression; a
second argument is the path of the file with the scene.  The other settings come from the
environment.
-/
import Fluxion.Animation.Launch
import Fluxion.Session

namespace Fluxion.Main

/-- The environment variables that settings are taken from. -/
def environmentNames : List String :=
  ["DERIVATOR_LOG_LEVEL", "DERIVATOR_EXPR", "DERIVATOR_VARIABLE", "DERIVATOR_MAX_PASSES",
    "DERIVATOR_SCENE_QUALITY"]

/-- The settings of this process. -/
def settings : IO (Except Numeral.IntegerError Settings) := do
  let values ← environmentNames.filterMapM fun name => do
    return (← IO.getEnv name).map (name, ·)
  return Settings.ofEnvironment (values.lookup ·)

/-- Writes entries to the two streams, with the records from the given threshold on. -/
def write (threshold : Nat) (entries : List Entry) : IO Unit := do
  for e in entries do
    IO.print e.onOut
    IO.eprint (e.onErr threshold)
  (← IO.getStdout).flush

/-- Reads lines and answers them until the session ends; gives the exit code. -/
partial def loop (settings : Settings) (threshold : Nat) : IO UInt32 := do
  write threshold [.out settings.prompt]
  let input ← (← IO.getStdin).getLine
  if input.isEmpty then return 0
  for line in Text.lines input do
    let result := Session.answer settings settings.wrt line
    write threshold result.entries
    if !result.goesOn then
      match result.escaped with
      | none => return 0
      | some f => do
        IO.eprintln f.message
        return 1
  loop settings threshold

/-- The interactive session. -/
def session (settings : Settings) : IO UInt32 :=
  match settings.threshold with
  | .error l => do
    IO.eprintln l.message
    return 1
  | .ok threshold => loop settings threshold

/-- The launcher; the renderer itself is started by whoever reads the command. -/
def render (settings : Settings) : IO UInt32 := do
  let result := Animation.Launcher.run settings (← (← IO.getStdin).readToEnd)
  IO.print result.output
  IO.eprint result.errors
  for l in result.launches do
    IO.println ("DERIVATOR_EXPR=" ++ Text.quoted l.expression ++ " " ++ " ".intercalate l.command)
  match result.escaped with
  | none => return 0
  | some e => do
    IO.eprintln e.message
    return 1

end Fluxion.Main

/-- The program. -/
def main (args : List String) : IO UInt32 := do
  match ← Fluxion.Main.settings with
  | .error m => do
    IO.eprintln m.message
    return 1
  | .ok settings =>
    match args with
    | ["render"] => Fluxion.Main.render settings
    | ["render", script] => Fluxion.Main.render { settings with script }
    | _ => Fluxion.Main.session settings
