import Fluxion.Animation.Frame
import Fluxion.Animation.Storyboard
import Fluxion.Main
import Fluxion.Proofs.Reduction.NormalForm
import Fluxion.Proofs.Reduction.Passes
import Fluxion.Proofs.Grammar.Derivation
import Fluxion.Proofs.Grammar.Reading
import Fluxion.Proofs.Numeral.Plain
import Fluxion.Proofs.Token.Lexeme
import Fluxion.Proofs.Expr.Parts
import Fluxion.Proofs.Expr.Proper
import Fluxion.Proofs.Grammar.Readable
import Fluxion.Proofs.Token.Spelling
import Fluxion.Proofs.Flat.Shown
import Fluxion.Proofs.Derivative.Value
import Fluxion.Proofs.Flat.Regrouping
import Fluxion.Proofs.Derivative.Series
import Fluxion.Proofs.Derivative.Correct
import Fluxion.Proofs.Numeral.Rounding
import Fluxion.Proofs.Numeral.Packing
import Fluxion.Proofs.Numeral.Scientific
import Fluxion.Proofs.Numeral.Nearby
import Fluxion.Proofs.Numeral.Printed
import Fluxion.Proofs.Flat.RoundTrip
import Fluxion.Proofs.Reduction.InPlace
import Fluxion.Proofs.Reduction.Redex
import Fluxion.Proofs.Reduction.Limits
import Fluxion.Proofs.Real.Soundness
import Fluxion.Proofs.Real.Derivation
import Fluxion.Proofs.Grammar.Place
import Fluxion.Proofs.Grammar.Failing
import Fluxion.Proofs.Grammar.Viable
import Fluxion.Proofs.Token.Spaced
import Fluxion.Proofs.Grammar.Range
import Fluxion.Proofs.Derivative.Repeated
import Fluxion.Proofs.Derivation.Course
import Fluxion.Proofs.Session.Line
import Fluxion.Proofs.Session.Lines
import Fluxion.Proofs.Animation.Agreement
import Fluxion.Proofs.Numeral.Signed
import Fluxion.Proofs.Numeral.Distinct
import Fluxion.Proofs.Latex.Formula
import Fluxion.Proofs.Latex.Unambiguous
import Fluxion.Proofs.Derivative.Partial
import Fluxion.Proofs.Token.Stray
import Fluxion.Proofs.Reduction.PassLimit
import Fluxion.Proofs.Derivative.Constant
import Fluxion.Proofs.Token.Boundary
import Fluxion.Proofs.Grammar.Extent
import Fluxion.Proofs.Diagram.Faithful
import Fluxion.Proofs.Latex.NegativeBase
import Fluxion.Proofs.Numeral.Error
import Fluxion.Proofs.Animation.Frame
