/-
# Reading numerals

`readFloat` reads a whole text as one floating-point numeral.  It allows blanks around it, one sign
in front, the decimal digits of any script, and a single underscore between two digits.  The
numeral has digits with at most one point, on either side of which digits may be missing but not
on both, and then an optional exponent; or it is one of the words `inf`, `infinity` and `nan` in
capitals or small letters.

Integer numerals share the blanks, the sign, the digits and the underscores; `readInt` is in
`Integer.lean`.
-/
import Fluxion.Numeral.Decimal
import Fluxion.Text.Blank
import Fluxion.Text.DecimalDigit

namespace Fluxion.Numeral

open Fluxion.Text

/-- The blanks around a numeral: those of a text, but not the four information separators. -/
def isPadding (c : Char) : Bool :=
  isBlank c && !(0x1c ≤ c.toNat && c.toNat ≤ 0x1f)

/-- The characters without the underscores, provided that each stands between two digits; `last`
is the character before them. -/
def dropSeparators (last : Char) : List Char → Option (List Char)
  | [] => if last = '_' then none else some []
  | c :: rest =>
    if c = '_' then
      if last.isDigit then dropSeparators c rest else none
    else if last = '_' ∧ !c.isDigit then none
    else (dropSeparators c rest).map (c :: ·)

/-- The characters of a text that may be a numeral, with its digits as `0` to `9` and no
padding. -/
def plainChars (s : String) : List Char :=
  (trim isPadding s.toList).map plainDigit

/-- The characters of a numeral without the separators. -/
def numeralChars? (s : String) : Option (List Char) :=
  dropSeparators ' ' (plainChars s)

/-- A sign and what follows it; no sign counts as a plus. -/
def splitSign : List Char → Bool × List Char
  | '-' :: rest => (true, rest)
  | '+' :: rest => (false, rest)
  | cs => (false, cs)

/-- The number that a run of digits denotes. -/
def natOfDigits (ds : List Char) : Nat :=
  ds.foldl (fun n d => 10 * n + (d.toNat - '0'.toNat)) 0

/-- A run of digits, at least one of them and nothing else. -/
def readDigits (cs : List Char) : Option Nat :=
  if cs ≠ [] ∧ cs.all Char.isDigit then some (natOfDigits cs) else none

/-- A run of digits with an optional sign. -/
def readSigned (cs : List Char) : Option Int :=
  let (negative, rest) := splitSign cs
  (readDigits rest).map fun n => if negative then -(n : Int) else n

/-- The exponent at the end of a numeral: nothing, or the letter and a signed number. -/
def readExponent : List Char → Option Int
  | [] => some 0
  | c :: rest => if c.toLower = 'e' then readSigned rest else none

/-- The digits after the point, if there is one, and what follows. -/
def splitFraction : List Char → List Char × List Char
  | '.' :: rest => rest.span Char.isDigit
  | cs => ([], cs)

/-- A numeral without a sign and without words. -/
def readDecimal (cs : List Char) : Option Decimal :=
  let (whole, rest) := cs.span Char.isDigit
  let (fraction, rest) := splitFraction rest
  if whole ++ fraction = [] then none
  else (readExponent rest).map fun e => ⟨natOfDigits (whole ++ fraction), e - fraction.length⟩

/-- A numeral without a sign. -/
def readUnsigned (cs : List Char) : Option Float :=
  let word := String.ofList (cs.map Char.toLower)
  if word = "inf" ∨ word = "infinity" then some infinity
  else if word = "nan" then some notANumber
  else (readDecimal cs).map Decimal.toFloat

/-- The value of a floating-point numeral. -/
def readFloat (s : String) : Option Float := do
  let (negative, rest) := splitSign (← numeralChars? s)
  let x ← readUnsigned rest
  return if negative then -x else x

example : readFloat ".5" = some 0.5 := by decide +kernel
example : readFloat "." = none := by decide +kernel
example : readFloat "1e5" = some 100000.0 := by decide +kernel

end Fluxion.Numeral
