/-
# Decimal numbers

A decimal is `digits · 10 ^ exponent`.  `Decimal.toFloat` rounds it to the nearest floating-point
number; decimals far outside the range of the format are answered without computing their power
of ten, so that a numeral with a huge exponent costs no more than any other.
-/
import Fluxion.Numeral.Binary

namespace Fluxion.Numeral

/-- The decimal number `digits · 10 ^ exponent`. -/
structure Decimal where
  digits : Nat
  exponent : Int
deriving DecidableEq, Repr

/-- The number above every finite one. -/
def infinity : Float := 1.0 / 0.0

/-- The value of a numeral that denotes no number. -/
def notANumber : Float := 0.0 / 0.0

/-- How many decimal digits a natural number is written with; one for zero. -/
def digitCount (n : Nat) : Nat :=
  (Nat.toDigits 10 n).length

namespace Decimal

/-- The place of the decimal point, counted from before the first digit: a positive decimal with
point `k` lies in `[10 ^ (k - 1), 10 ^ k)`. -/
def point (d : Decimal) : Int :=
  digitCount d.digits + d.exponent

/-- The nearest floating-point number, infinite from half a unit above the greatest finite one.
Every decimal from `10 ^ 310` rounds to infinity and every one below `10 ^ (-330)` to zero. -/
def toFloat (d : Decimal) : Float :=
  if d.digits = 0 ∨ d.point < -330 then 0.0
  else if 310 < d.point then infinity
  else Float.ofScientific d.digits (d.exponent < 0) d.exponent.natAbs

/-- The same number with the zeros at its end moved into the exponent, at most `fuel` of them. -/
def trimZeros : Nat → Decimal → Decimal
  | 0, d => d
  | fuel + 1, d =>
    if d.digits % 10 = 0 then trimZeros fuel ⟨d.digits / 10, d.exponent + 1⟩ else d

/-- The same number with no zero at its end. -/
def normalise (d : Decimal) : Decimal :=
  if d.digits = 0 then d else trimZeros (digitCount d.digits) d

end Decimal

example : (Decimal.mk 1200 (-3)).normalise = ⟨12, -1⟩ := by decide
example : (Decimal.mk 1 400).toFloat = infinity := by decide +kernel

end Fluxion.Numeral
