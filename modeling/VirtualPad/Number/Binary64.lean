import VirtualPad.Number.Power
import VirtualPad.Number.Rounding

/-!
# Reading a binary64 exactly

A finite floating-point value is a whole number times a power of two.  This module takes a `Float`
apart into that form and answers from it, in exact natural-number arithmetic, the questions whose
answers must not depend on a rounding of their own: the integer part, the nearest whole number of
parts of a second.
-/

namespace VirtualPad

/-- A finite value: `mantissa * 2 ^ exponent`, negated when `negative` is set. -/
structure Binary64 where
  negative : Bool
  mantissa : Nat
  exponent : Int
  deriving DecidableEq, Repr

namespace Binary64

/-- The parts of a finite `x`.  Infinities and NaN have no such parts: test for them first. -/
def ofFloat (x : Float) : Binary64 :=
  let bits : Nat := x.toBits.toNat
  let biased : Nat := bits / twoTo 52 % twoTo 11
  let fraction : Nat := bits % twoTo 52
  { negative := decide (twoTo 63 ≤ bits)
    mantissa := if biased = 0 then fraction else fraction + twoTo 52
    exponent := if biased = 0 then -1074 else (biased : Int) - 1075 }

/-- The magnitude as a quotient of natural numbers, numerator first. -/
def quotient (b : Binary64) : Nat × Nat :=
  if 0 ≤ b.exponent then (b.mantissa * twoTo b.exponent.toNat, 1)
  else (b.mantissa, twoTo (-b.exponent).toNat)

/-- The integer part of the magnitude. -/
def whole (b : Binary64) : Nat :=
  b.quotient.1 / b.quotient.2

end Binary64

/-- `x` with its fractional part dropped; infinities and NaN stay as they are. -/
def truncate (x : Float) : Float :=
  if !x.isFinite then x
  else
    let b := Binary64.ofFloat x
    -- From exponent 0 on there is no fractional part to drop.
    if 0 ≤ b.exponent then x
    else
      let n := Float.ofNat b.whole
      if b.negative then -n else n

/-- `n` moved to the nearer end of the signed 32-bit range when it lies outside. -/
def saturate32 (n : Int) : Int :=
  max (-2147483648) (min 2147483647 n)

/-- The integer part of `x` as a signed 32-bit number: too large values stop at the ends of the
range and NaN counts as zero. -/
def toInt32 (x : Float) : Int :=
  if x.isNaN then 0
  else if !x.isFinite then (if x < 0 then -2147483648 else 2147483647)
  else
    let b := Binary64.ofFloat x
    let n : Int := b.whole
    saturate32 (if b.negative then -n else n)

/-- The nearest whole number of billionths to a finite `x ≥ 0`; an exact half goes to the even
neighbour. -/
def billionths (x : Float) : Nat :=
  let (num, den) := (Binary64.ofFloat x).quotient
  roundDiv (num * 1000000000) den .toEven

end VirtualPad
