/-
# Reading integers

`readInt` reads a whole text as one integer numeral: blanks around it, one sign in front, and a
run of decimal digits of any script, leading zeros included, with a single underscore between two
digits.

The time to turn digits into a number grows faster than their count, so a run of more than
`digitLimit` digits is refused.  The run is measured before what follows it is looked at: an
overlong run with something behind it is reported as overlong, but one whose underscores are
misplaced is not a run, however long, and is reported as malformed.
-/
import Fluxion.Numeral.Literal
import Fluxion.Text.Quoted

namespace Fluxion.Numeral

open Fluxion.Text

/-- The greatest number of digits in an integer numeral. -/
def digitLimit : Nat := 4300

/-- The greatest number of characters of a malformed text that its report shows. -/
def excerptLimit : Nat := 200

/-- Why a text is not read as an integer. -/
inductive IntegerError where
  /-- The text is not an integer numeral. -/
  | malformed (text : String)
  /-- The numeral has more digits than are read. -/
  | tooLong (digits : Nat)
deriving DecidableEq, Repr

/-- The text that reports the error. -/
def IntegerError.message : IntegerError → String
  | malformed text =>
    "invalid literal for int() with base 10: " ++ quotedWithin excerptLimit text
  | tooLong digits =>
    "Exceeds the limit (" ++ toString digitLimit ++ " digits) for integer string conversion: " ++
      "value has " ++ toString digits ++ " digits; use sys.set_int_max_str_digits() to " ++
      "increase the limit"

/-- The leading digits and underscores, and what follows them. -/
def splitRun (cs : List Char) : List Char × List Char :=
  cs.span fun c => c.isDigit || c = '_'

/-- The value of an integer numeral. -/
def readInt (s : String) : Except IntegerError Int :=
  let (negative, unsigned) := splitSign (plainChars s)
  let (run, after) := splitRun unsigned
  match dropSeparators ' ' run with
  | none => .error (.malformed s)
  | some digits =>
    if digitLimit < digits.length then .error (.tooLong digits.length)
    else if digits = [] ∨ after ≠ [] then .error (.malformed s)
    else
      let n : Int := natOfDigits digits
      .ok (if negative then -n else n)

example : (readInt " -1_0 ").toOption = some (-10) := by decide +kernel
example : (readInt "1__0").toOption = none := by decide +kernel
example : (readInt "10 q").toOption = none := by decide +kernel

end Fluxion.Numeral
