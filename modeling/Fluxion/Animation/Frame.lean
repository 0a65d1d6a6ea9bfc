/-
# Fitting a label to the frame

A storyboard says which labels are shown, but how large they come out is known to the renderer only.
So the text of the expression and every formula are fitted to the frame before they are shown.

A label may take up nine tenths of the width of the frame and eight tenths of its height.  A wider
one is scaled down to the width first, then a higher one to the height, and the label is put in
the middle.  Scaling multiplies both dimensions.

No factor changes a dimension that is zero.  Where one is too large, which takes a frame of
negative size, the label cannot be fitted.
-/
namespace Fluxion.Animation

/-- The width and the height of a box. -/
structure Box where
  width : Float
  height : Float

/-- A change of a label's size or place. -/
inductive Adjustment where
  | scale (factor : Float)
  | moveToCentre

/-- Why a label cannot be fitted. -/
inductive FitError where
  /-- A dimension that is zero, whatever its sign, is too large. -/
  | zeroSize
deriving DecidableEq, Repr

/-- The text that reports the error. -/
def FitError.message : FitError → String
  | zeroSize => "float division by zero"

namespace Box

/-- The box with both dimensions multiplied. -/
def scale (b : Box) (factor : Float) : Box := ⟨b.width * factor, b.height * factor⟩

/-- The factor that brings a dimension of the given size down to `most`, if it is larger. -/
def shrink? (size most : Float) : Except FitError (Option Float) :=
  if most < size then
    if size == 0.0 then .error .zeroSize else .ok (some (most / size))
  else .ok none

/-- The box after an adjustment of its size, if there is one. -/
def adjusted (b : Box) : Option Float → Box
  | some factor => b.scale factor
  | none => b

/-- The adjustments that fit a box to a frame, and the box after them. -/
def fit (frame b : Box) : Except FitError (List Adjustment × Box) := do
  let first ← shrink? b.width (frame.width * 0.9)
  let b := b.adjusted first
  let second ← shrink? b.height (frame.height * 0.8)
  let b := b.adjusted second
  return ((first.toList ++ second.toList).map .scale ++ [.moveToCentre], b)

end Box

end Fluxion.Animation
