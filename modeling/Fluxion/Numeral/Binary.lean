/-
# The exact value of a floating-point number

A finite number is a sign and a magnitude `mantissa · 2 ^ exponent`, read off its 64 bits.  From
it follow the questions that the printed forms ask: is the number integral, and what is its
magnitude as a ratio of two naturals.

Powers of naturals in definitions are written `Nat.pow`, since `2 ^ n` is read as the power of a
monoid wherever the algebraic library is in scope.
-/
namespace Fluxion.Numeral

/-- The magnitude `mantissa · 2 ^ exponent`. -/
structure Magnitude where
  mantissa : Nat
  exponent : Int
deriving DecidableEq, Repr

/-- The sign bit of a number; set for `-0.0`. -/
def isNegative (x : Float) : Bool :=
  x.toBits.toNat ≥ Nat.pow 2 63

/-- The magnitude of a finite number: eleven bits of exponent, where zero marks a subnormal
number, then fifty-two bits of fraction. -/
def magnitude (x : Float) : Magnitude :=
  let bits := x.toBits.toNat
  let fraction := bits % Nat.pow 2 52
  let field : Nat := bits / Nat.pow 2 52 % Nat.pow 2 11
  if field = 0 then ⟨fraction, -1074⟩ else ⟨Nat.pow 2 52 + fraction, (field : Int) - 1075⟩

/-- The magnitude as a numerator and a positive denominator. -/
def Magnitude.ratio (m : Magnitude) : Nat × Nat :=
  (m.mantissa * Nat.pow 2 m.exponent.toNat, Nat.pow 2 (-m.exponent).toNat)

/-- The magnitude as a natural number, if it is one. -/
def Magnitude.toNat? (m : Magnitude) : Option Nat :=
  if m.ratio.1 % m.ratio.2 = 0 then some (m.ratio.1 / m.ratio.2) else none

/-- The magnitude of a finite number without a fractional part. -/
def integral? (x : Float) : Option Nat :=
  if x.isFinite then (magnitude x).toNat? else none

theorem Magnitude.ratio_den_pos (m : Magnitude) : 0 < m.ratio.2 :=
  Nat.two_pow_pos _

example : magnitude 1.0 = ⟨2 ^ 52, -52⟩ := by decide +kernel
example : integral? (-0.0) = some 0 := by decide +kernel
example : integral? 0.5 = none := by decide +kernel

end Fluxion.Numeral
