/-
# Powers

Powers are computed by the mathematical library of the machine, so their last digits are its own.
Of its answers one is fixed here: the square of a number is zero if the number times itself is.
A square loses all its digits where the product does, and this is how a divisor other than zero
comes to have the square zero.
-/
namespace Fluxion.Numeral

/-- The power of a number. -/
def power (a b : Float) : Float :=
  if b == 2.0 && a * a == 0.0 then 0.0 else a.pow b

example : power (-1e-200) 2.0 = 0.0 := by decide +kernel

end Fluxion.Numeral
