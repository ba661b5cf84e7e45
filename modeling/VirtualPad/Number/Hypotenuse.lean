import VirtualPad.Number.Binary64
import VirtualPad.Number.Scalar

/-!
# The length of a vector

The length of (x, y) is the square root of the sum of the squares.  Computed as it is written, it
can be off by more than half a unit in the last place, and the squares of very large or very small
parts leave the range of the numbers.  `hypotenuse` scales such parts first and takes the error of
the plain root out again.
-/

namespace VirtualPad

/-- The power of two with an exponent between -1022 and 1023. -/
def floatPower (exponent : Int) : Float :=
  Float.ofBits ((exponent + 1023).toNat * twoTo 52).toUInt64

/-- By how much the square of `root` exceeds the sum of the squares of `large` and `small`.  The
differences are taken in an order in which they lose least. -/
def squareExcess (root large small : Float) : Float :=
  if root ≤ 2 * small then
    let excess := root - small
    large * (2 * excess - large) + (excess - 2 * (large - small)) * excess
  else
    let excess := root - large
    2 * excess * (large - 2 * small) + ((4 * excess - small) * small + excess * excess)

/-- The length of a vector whose squares stay in range, the larger part first: the plain root, less
the excess of its square over twice the root. -/
def balancedLength (large small : Float) : Float :=
  let root := (large * large + small * small).sqrt
  root - squareExcess root large small / (2 * root)

/-- The length of a vector with both parts finite and not negative, the larger part first.  A part
that is too small to be seen beside the other one only counts when it is added. -/
def scaledLength (large small : Float) : Float :=
  let up := floatPower 600
  let down := floatPower (-600)
  if small * floatPower 54 ≤ large then large + small
  else if floatPower 511 < large then balancedLength (large * down) (small * down) * up
  else if small < floatPower (-459) then balancedLength (large * up) (small * up) * down
  else balancedLength large small

/-- The length of the vector (x, y).  A vector with an infinite part is infinitely long, even if
its other part is NaN. -/
def hypotenuse (x y : Float) : Float :=
  if x.isInf || y.isInf then 1 / 0
  else if x.isNaN || y.isNaN then x + y
  else if x.abs < y.abs then scaledLength y.abs x.abs
  else scaledLength x.abs y.abs

end VirtualPad
