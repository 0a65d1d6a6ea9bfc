/-
# The journal

Work on an expression leaves records of what was done, in the order in which it was done.  A
record belongs to a logger, has a level, and reads as one line of text.  A reader of the journal
chooses the least level that is shown.
-/
import Fluxion.Numeral.Format
import Fluxion.Text.Quoted

namespace Fluxion

/-- How much a record matters. -/
inductive Level where
  | debug
  | info
  | warning
  | error
  | critical
deriving DecidableEq, Repr

namespace Level

/-- The name of a level in a record. -/
def name : Level → String
  | debug => "DEBUG"
  | info => "INFO"
  | warning => "WARNING"
  | error => "ERROR"
  | critical => "CRITICAL"

/-- Levels in order; the numbers leave room below for a threshold that shows every record. -/
def severity : Level → Nat
  | debug => 10
  | info => 20
  | warning => 30
  | error => 40
  | critical => 50

/-- The threshold that a name stands for: records of at least that severity are shown.  Two
levels have a second name, and `NOTSET` shows everything. -/
def threshold? (name : String) : Option Nat :=
  ([critical, error, warning, info, debug].map fun l => (l.name, l.severity)) ++
      [("FATAL", critical.severity), ("WARN", warning.severity), ("NOTSET", 0)]
    |>.lookup name

end Level

/-- Something that was done. -/
inductive Event where
  /-- A text was split into tokens. -/
  | tokenized (text : String) (count : Nat)
  /-- Tokens were read as an expression. -/
  | parsed (count : Nat)
  /-- A function call was replaced by its value. -/
  | specialValue (function : String) (value : Float)
  /-- A simplification ended: the last of its passes changed nothing. -/
  | fixedPoint (passes : Nat)
  /-- The input of a derivation was simplified. -/
  | inputSimplified (changed : Bool)
  /-- The derivative was simplified. -/
  | derivativeSimplified (changed : Bool)
  /-- An expression has no animation. -/
  | notRendered (source reason : String)

namespace Event

/-- The logger that a record belongs to. -/
def logger : Event → String
  | tokenized .. => "derivator.lexer"
  | parsed _ => "derivator.parser"
  | specialValue .. => "derivator.simplifier"
  | fixedPoint _ => "derivator.simplifier"
  | inputSimplified _ => "derivator.pipeline"
  | derivativeSimplified _ => "derivator.pipeline"
  | notRendered .. => "derivator.scene"

/-- The level of a record. -/
def level : Event → Level
  | notRendered .. => .error
  | _ => .debug

/-- A truth value as records show it. -/
def boolText (b : Bool) : String := if b then "True" else "False"

/-- The text of a record. -/
def message : Event → String
  | tokenized s n => "tokenized " ++ Text.quoted s ++ " into " ++ toString n ++ " tokens"
  | parsed n => "parsed " ++ toString n ++ " tokens"
  | specialValue f v =>
    "special value " ++ f ++ "(...) -> Num(value=" ++ Numeral.decimalText v ++ ")"
  | fixedPoint n => "fixed point after " ++ toString n ++ " passes"
  | inputSimplified b => "input simplified (changed=" ++ boolText b ++ ")"
  | derivativeSimplified b => "derivative simplified (changed=" ++ boolText b ++ ")"
  | notRendered s reason => "cannot render " ++ Text.quoted s ++ ": " ++ reason

/-- A record as one line. -/
def line (e : Event) : String :=
  "[" ++ e.logger ++ "] [" ++ e.level.name ++ "] " ++ e.message

/-- The record is shown at the given threshold. -/
def shownAt (threshold : Nat) (e : Event) : Bool := threshold ≤ e.level.severity

end Event

/-- Records in order, kept as the parts they were put together from, so that joining two journals
takes no time however long they are. -/
inductive Journal where
  | empty
  | record (event : Event)
  | both (first second : Journal)

namespace Journal

instance : Append Journal := ⟨both⟩

instance : EmptyCollection Journal := ⟨empty⟩

/-- The records in order, in front of the given ones. -/
def onto : Journal → List Event → List Event
  | empty, es => es
  | record e, es => e :: es
  | both a b, es => a.onto (b.onto es)

/-- The records in order. -/
def toList (j : Journal) : List Event := j.onto []

theorem onto_eq (j : Journal) : ∀ es, j.onto es = j.toList ++ es := by
  induction j with
  | empty => intro es; rfl
  | record e => intro es; rfl
  | both a b iha ihb =>
    intro es
    simp only [toList, onto] at *
    rw [iha, ihb, iha (b.onto []), List.append_assoc]

@[simp] theorem toList_empty : (∅ : Journal).toList = [] := rfl

@[simp] theorem toList_record (e : Event) : (record e).toList = [e] := rfl

@[simp] theorem toList_append (a b : Journal) : (a ++ b).toList = a.toList ++ b.toList :=
  onto_eq a (b.onto [])

end Journal

end Fluxion
