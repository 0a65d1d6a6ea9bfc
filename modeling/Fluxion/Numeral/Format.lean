/-
# How numbers are written

Two forms of a number are in use.

* `decimalText` is the plain form: the shortest decimal that reads back, always with a point or an
  exponent (`1.0`, `0.1`, `1e-05`).
* `numberText` is the form inside expressions: an integral number is written with all its exact
  digits and no point, with no sign on zero (`1`, `0`, `1000…0`); every other number takes the
  plain form.
-/
import Fluxion.Numeral.Shortest

namespace Fluxion.Numeral

/-- Where positional notation begins and ends, and how wide an exponent is.  A decimal whose
leading digit has the place value `10 ^ e` is positional for `leastPositional ≤ e` and
`e < leastScientific`. -/
structure Layout where
  leastPositional : Int
  leastScientific : Int
  exponentDigits : Nat

/-- Numbers are positional from `0.0001` up to sixteen digits before the point; an exponent has
at least two digits. -/
def Layout.standard : Layout := ⟨-4, 16, 2⟩

/-- Digits with the point after the first `point` of them, filled with zeros on either side; at
least one digit stands on both sides of the point. -/
def positional (digits : List Char) (point : Int) : List Char :=
  if point ≤ 0 then '0' :: '.' :: (List.replicate (-point).toNat '0' ++ digits)
  else
    let k := point.toNat
    if digits.length ≤ k then digits ++ List.replicate (k - digits.length) '0' ++ ['.', '0']
    else digits.take k ++ '.' :: digits.drop k

/-- An exponent: its sign, then its digits with zeros in front up to `width`. -/
def exponentText (width : Nat) (e : Int) : List Char :=
  let ds := Nat.toDigits 10 e.natAbs
  'e' :: (if e < 0 then '-' else '+') :: (List.replicate (width - ds.length) '0' ++ ds)

/-- One digit, the others after a point if there are any, and the exponent. -/
def scientific (width : Nat) (digits : List Char) (e : Int) : List Char :=
  match digits with
  | [] => exponentText width e
  | [d] => d :: exponentText width e
  | d :: more => d :: '.' :: (more ++ exponentText width e)

/-- A decimal without zeros at its end in the given layout. -/
def Decimal.layout (f : Layout) (d : Decimal) : List Char :=
  let digits := Nat.toDigits 10 d.digits
  let e := d.point - 1
  if f.leastPositional ≤ e ∧ e < f.leastScientific then positional digits d.point
  else scientific f.exponentDigits digits e

/-- The magnitude of a finite number. -/
def magnitudeText (x : Float) : List Char :=
  if x == 0.0 then ['0', '.', '0'] else (shortest x).layout .standard

/-- The plain form of a number. -/
def decimalText (x : Float) : String :=
  if x.isNaN then "nan"
  else
    let body := if x.isInf then ['i', 'n', 'f'] else magnitudeText x
    String.ofList (if isNegative x then '-' :: body else body)

/-- An integral number with all its digits; zero has no sign. -/
def integralText (negative : Bool) (n : Nat) : String :=
  String.ofList (if negative ∧ n ≠ 0 then '-' :: Nat.toDigits 10 n else Nat.toDigits 10 n)

/-- The form of a number inside expressions. -/
def numberText (x : Float) : String :=
  match integral? x with
  | some n => integralText (isNegative x) n
  | none => decimalText x

example : decimalText (-0.0) = "-0.0" := by decide +kernel
example : decimalText 0.00001 = "1e-05" := by decide +kernel
example : numberText (-0.0) = "0" := by decide +kernel
example : numberText (-3.0) = "-3" := by decide +kernel
example : numberText 0.25 = "0.25" := by decide +kernel

end Fluxion.Numeral
