/-
# Derivations

A derivation takes an expression through four stages: as it was read, simplified, differentiated,
and simplified again.  It stops at the first stage that fails and keeps the stages before it.

An expression that nests deeper than the settings allow fails before its first stage.
-/
import Fluxion.Derivative
import Fluxion.Grammar.Reader
import Fluxion.Reduction.FixedPoint
import Fluxion.Settings
import Fluxion.Token.Scan

namespace Fluxion

/-! ## 1. Failures -/

/-- Why a text or an expression has no derivation. -/
inductive Failure where
  | scan (e : ScanError)
  | grammar (e : GrammarError)
  | evaluation (e : EvalError)
  | malformed (m : Malformed)
  | derivative (e : DerivativeError)
  /-- The expression is too deep to be worked on. -/
  | tooDeep
deriving DecidableEq, Repr

namespace Failure

/-- The failure of a simplification. -/
def ofReduce : ReduceError → Failure
  | .evaluation e => .evaluation e
  | .malformed m => .malformed m

/-- The report of a failure that is the fault of the input: its class and its text.  Other
failures are not reported but end the work. -/
def report? : Failure → Option String
  | scan e => some (e.label ++ ": " ++ e.message)
  | grammar e => some (e.label ++ ": " ++ e.message)
  | evaluation e => some (e.label ++ ": " ++ e.message)
  | malformed _ | derivative _ | tooDeep => none

/-- The text of a failure; one that comes from the depth of an expression has none. -/
def message : Failure → String
  | scan e => e.message
  | grammar e => e.message
  | evaluation e => e.message
  | malformed m => m.message
  | derivative e => e.message
  | tooDeep => ""

end Failure

/-! ## 2. Reading -/

/-- The expression that a text denotes, with the records of reading it. -/
def Expr.ofText (nesting : Option Nat) (s : String) : Except Failure Expr × List Event :=
  match Token.ofText s with
  | .error e => (.error (.scan e), [])
  | .ok ts =>
    match Expr.ofTokens nesting ts with
    | .error e => (.error (.grammar e), [.tokenized s ts.length])
    | .ok e => (.ok e, [.tokenized s ts.length, .parsed ts.length])

/-! ## 3. Stages -/

/-- The stages of a derivation. -/
inductive Stage where
  | input
  | simplified
  | derivative
  | derivativeSimplified
deriving DecidableEq, Repr

/-- The name of a stage. -/
def Stage.label : Stage → String
  | input => "input"
  | simplified => "simplified"
  | derivative => "derivative"
  | derivativeSimplified => "derivative simplified"

/-- A stage and the expression it ends with. -/
structure Snapshot where
  stage : Stage
  expr : Expr

/-- The stages that were completed, the failure that ended them, if any, and the records. -/
structure Derivation where
  stages : List Snapshot
  failure : Option Failure
  log : List Event

namespace Derivation

/-- A derivation that fails before its first stage. -/
def failed (f : Failure) (log : List Event) : Derivation := ⟨[], some f, log⟩

/-- The derivation with records in front of its own. -/
def after (log : List Event) (d : Derivation) : Derivation := { d with log := log ++ d.log }

/-- The last stage that was completed. -/
def last? (d : Derivation) : Option Expr := d.stages.getLast?.map (·.expr)

end Derivation

/-- The expression nests deeper than allowed. -/
def Expr.exceeds (nesting : Option Nat) (e : Expr) : Bool :=
  match nesting with
  | none => false
  | some limit => limit < e.height

/-- The last stage: the derivative is simplified. -/
def Derivation.finish (settings : Settings) (snapshots : List Snapshot) (derivative : Expr) :
    Derivation :=
  let run := derivative.reduce settings.passLimit none
  match run.answer with
  | .error x => ⟨snapshots, some (.ofReduce x), run.log.toList⟩
  | .ok (e, changed) =>
    ⟨snapshots ++ [⟨.derivativeSimplified, e⟩], none,
      run.log.toList ++ [.derivativeSimplified changed]⟩

/-- The derivation of an expression. -/
def Expr.derivation (settings : Settings) (wrt : Option String) (e : Expr) : Derivation :=
  if e.exceeds settings.nesting then .failed .tooDeep []
  else
    let run := e.reduce settings.passLimit none
    match run.answer with
    | .error x => ⟨[⟨.input, e⟩], some (.ofReduce x), run.log.toList⟩
    | .ok (s, changed) =>
      let log := run.log.toList ++ [.inputSimplified changed]
      let snapshots : List Snapshot := [⟨.input, e⟩, ⟨.simplified, s⟩]
      match s.derivative wrt with
      | .error x => ⟨snapshots, some (.derivative x), log⟩
      | .ok d => (Derivation.finish settings (snapshots ++ [⟨.derivative, d⟩]) d).after log

/-- What is left of an expression after its derivation: its first simplification works in
place. -/
def Expr.afterDerivation (settings : Settings) (e : Expr) : Expr :=
  if e.exceeds settings.nesting then e else (e.reduce settings.passLimit none).source

/-- The derivation of a text. -/
def Derivation.ofText (settings : Settings) (wrt : Option String) (s : String) : Derivation :=
  match Expr.ofText settings.nesting s with
  | (.error f, log) => .failed f log
  | (.ok e, log) => (e.derivation settings wrt).after log

end Fluxion
