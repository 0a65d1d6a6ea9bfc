/-
# The shortest decimal that reads back

Among all decimals that round to a given floating-point number, the one with the fewest digits is
shown, and of two with equally few digits the one nearer to the exact value.

With `n` digits the decimals near a value form a grid.  If any point of the grid reads back as
the number, so does one of the two neighbours of the exact value on it, because the decimals that
round to one number form an interval around it.  So it is enough to test two decimals for each
number of digits.  Seventeen digits always suffice; after them the exact value, which has a finite
decimal expansion, is given.
-/
import Fluxion.Numeral.Decimal

namespace Fluxion.Numeral

/-- A positive ratio as `num / den`. -/
structure Ratio where
  num : Nat
  den : Nat

namespace Ratio

/-- The place of the decimal point of a positive ratio: the `k` with
`10 ^ (k - 1) ≤ num / den < 10 ^ k`.  The digit counts leave two candidates. -/
def point (r : Ratio) : Int :=
  let low : Int := (digitCount r.num : Int) - digitCount r.den
  if r.num * Nat.pow 10 (-low).toNat < r.den * Nat.pow 10 low.toNat then low else low + 1

/-- The ratio in units of `10 ^ g`. -/
def inUnits (r : Ratio) (g : Int) : Ratio :=
  ⟨r.num * Nat.pow 10 (-g).toNat, r.den * Nat.pow 10 g.toNat⟩

end Ratio

/-- The two neighbours of a ratio on the grid of the multiples of `10 ^ g`, the nearer one first
and of two equally near ones the even one. -/
def neighbours (r : Ratio) (g : Int) : List Decimal :=
  let u := r.inUnits g
  let below := u.num / u.den
  let twice := 2 * (u.num % u.den)
  if twice < u.den ∨ (twice = u.den ∧ below % 2 = 0) then [⟨below, g⟩, ⟨below + 1, g⟩]
  else [⟨below + 1, g⟩, ⟨below, g⟩]

/-- A neighbour of `r` with `n` digits that satisfies the test. -/
def withDigits? (accept : Decimal → Bool) (r : Ratio) (n : Nat) : Option Decimal :=
  (neighbours r (r.point - n)).find? accept

/-- The exact decimal value of `mantissa · 2 ^ exponent`. -/
def Magnitude.toDecimal (m : Magnitude) : Decimal :=
  ⟨m.mantissa * Nat.pow 2 m.exponent.toNat * Nat.pow 5 (-m.exponent).toNat, min m.exponent 0⟩

/-- The shortest decimal that reads back as the magnitude of a finite number other than zero. -/
def shortest (x : Float) : Decimal :=
  let m := magnitude x
  let r : Ratio := ⟨m.ratio.1, m.ratio.2⟩
  (((List.range 17).findSome? fun n =>
    withDigits? (fun d => d.toFloat == x.abs) r (n + 1)).getD m.toDecimal).normalise

example : shortest 0.5 = ⟨5, -1⟩ := by decide +kernel
example : shortest 5e-324 = ⟨5, -324⟩ := by decide +kernel

end Fluxion.Numeral
