/-
# Interactive sessions

A session reads lines until one of them is the exit command or the input ends.  Each other line is
taken through its derivation, and what is found is printed: the tokens, the stages in flat form
and as diagrams, and the reports of what went wrong.  Lines do not influence each other.

What a session writes is a list of entries in the order of writing.  An entry belongs to the
output, to the error stream, or to the journal, whose records are shown on the error stream as
far as the level of the session lets them through.
-/
import Fluxion.Derivation
import Fluxion.Expr.Diagram
import Fluxion.Text.Lines

namespace Fluxion

/-! ## 1. What is written -/

/-- Something that is written. -/
inductive Entry where
  | out (text : String)
  | err (text : String)
  | record (event : Event)

namespace Entry

/-- A line of output. -/
def line (s : String) : Entry := .out (s ++ "\n")

/-- A line on the error stream. -/
def report (s : String) : Entry := .err (s ++ "\n")

/-- The part of an entry that goes to the output. -/
def onOut : Entry → String
  | out s => s
  | _ => ""

/-- The part of an entry that goes to the error stream at the given threshold. -/
def onErr (threshold : Nat) : Entry → String
  | out _ => ""
  | err s => s
  | record e => if e.shownAt threshold then e.line ++ "\n" else ""

/-- What a list of entries puts on the output. -/
def output (es : List Entry) : String := String.join (es.map onOut)

/-- What a list of entries puts on the error stream at the given threshold. -/
def errors (threshold : Nat) (es : List Entry) : String := String.join (es.map (onErr threshold))

/-- The records among the entries. -/
def records (es : List Entry) : List Event :=
  es.filterMap fun
    | record e => some e
    | _ => none

end Entry

/-! ## 2. One line -/

/-- What a stage is announced with. -/
def Stage.announcement : Stage → String
  | input => "input read as"
  | simplified => "input simplified to"
  | derivative => "derivative calculated"
  | derivativeSimplified => "derivative simplified to"

namespace Session

/-- The result of one line. -/
structure Answer where
  /-- Whether the session goes on. -/
  goesOn : Bool
  entries : List Entry
  /-- A failure that is not reported but ends the session. -/
  escaped : Option Failure

/-- A stage as it is printed: its flat form, then its diagram, then an empty line. -/
def snapshotEntries (s : Snapshot) : Except Malformed (List Entry) := do
  let flat ← s.expr.flat
  let diagram ← s.expr.diagram
  return [.line (s.stage.announcement ++ ": " ++ flat), .line diagram]

/-- The stages of a derivation as they are printed. -/
def stageEntries (snapshots : List Snapshot) : Except Malformed (List Entry) :=
  (snapshots.mapM snapshotEntries).map List.flatten

/-- The end of a line: what is printed of its derivation. -/
def showDerivation (before : List Entry) (d : Derivation) : Answer :=
  let before := before ++ d.log.map .record
  let goOn (es : List Entry) : Answer := ⟨true, before ++ es, none⟩
  let escape (f : Failure) : Answer := ⟨false, before, some f⟩
  match d.failure with
  | none =>
    match stageEntries d.stages with
    | .ok es => goOn es
    | .error m => escape (.malformed m)
  | some (.evaluation e) =>
    match stageEntries d.stages with
    | .ok es =>
      goOn (es ++ [.report ("evaluation error: " ++ e.label ++ ": " ++ e.message)])
    | .error m => escape (.malformed m)
  | some .tooDeep => goOn [.report "evaluation error: expression nested too deeply"]
  | some f => escape f

/-- One line of a session, without blanks at its ends and not empty. -/
def answerText (settings : Settings) (wrt : Option String) (text : String) : Answer :=
  match Token.ofText text with
  | .error e => ⟨true, [.report ("lex error: " ++ e.message)], none⟩
  | .ok ts =>
    let shown : List Entry :=
      [.record (.tokenized text ts.length), .line ("tokens read: " ++ Token.displayAll ts)]
    match Expr.ofTokens settings.nesting ts with
    | .error e =>
      ⟨true, shown ++ [.report ("parse error: " ++ e.label ++ ": " ++ e.message)], none⟩
    | .ok e =>
      showDerivation (shown ++ [.record (.parsed ts.length)]) (e.derivation settings wrt)

/-- The line is the exit command, in whatever case it is written. -/
def isExit (settings : Settings) (text : String) : Bool :=
  Text.toSmalls text == settings.exitWord

/-- One line of a session. -/
def answer (settings : Settings) (wrt : Option String) (line : String) : Answer :=
  let text := Text.strip line
  if isExit settings text then ⟨false, [.line "bye"], none⟩
  else if text = "" then ⟨true, [], none⟩
  else answerText settings wrt text

/-! ## 3. All lines -/

/-- What the given lines make a session write, and the failure that ends it, if any.  The prompt
is written before every line, and also before the input is found to have ended. -/
def answerAll (settings : Settings) : List String → List Entry × Option Failure
  | [] => ([.out settings.prompt], none)
  | line :: lines =>
    let result := answer settings settings.wrt line
    let entries := .out settings.prompt :: result.entries
    if result.goesOn then
      let (more, escaped) := answerAll settings lines
      (entries ++ more, escaped)
    else (entries, result.escaped)

end Session

/-- The level of a session has no such name. -/
structure UnknownLevel where
  name : String
deriving DecidableEq, Repr

/-- The text that reports it. -/
def UnknownLevel.message (l : UnknownLevel) : String := "Unknown level: " ++ Text.quoted l.name

/-- The threshold of the records that are shown. -/
def Settings.threshold (settings : Settings) : Except UnknownLevel Nat :=
  match Level.threshold? settings.level with
  | some t => .ok t
  | none => .error ⟨settings.level⟩

/-- What a session writes. -/
structure Session where
  output : String
  errors : String
  records : List Event
  escaped : Option Failure

/-- The session on a given input; the level is looked up before anything is read. -/
def Session.run (settings : Settings) (input : String) : Except UnknownLevel Session := do
  let threshold ← settings.threshold
  let (entries, escaped) := answerAll settings (Text.lines input)
  return ⟨Entry.output entries, Entry.errors threshold entries, Entry.records entries, escaped⟩

end Fluxion
