import VirtualPad.Number.Shortest

/-!
# Reading decimals

The floating-point value that a decimal stands for is the one nearest to it; an exact half goes to
the even mantissa.  The decimal is brought to the exponent of the result first and rounded there
once, so no digit is lost on the way.
-/

namespace VirtualPad

/-- The exponent of two with which a positive quotient has a mantissa of 53 binary digits, or the
smallest exponent there is. -/
def mantissaExponent (num den : Nat) : Int :=
  let guess : Int := (num.log2 : Int) - den.log2
  -- The quotient lies between `2 ^ (guess - 1)` and `2 ^ (guess + 1)`.
  let below :=
    if 0 ≤ guess then decide (num < den * twoTo guess.toNat)
    else decide (num * twoTo (-guess).toNat < den)
  max (-1074) ((if below then guess - 1 else guess) - 52)

/-- The bits of the value nearest to a positive quotient; past the largest value they are those of
infinity. -/
def nearestBits (num den : Nat) : Nat :=
  let exponent := mantissaExponent num den
  let mantissa :=
    if 0 ≤ exponent then roundDiv num (den * twoTo exponent.toNat) .toEven
    else roundDiv (num * twoTo (-exponent).toNat) den .toEven
  -- The leading bit of the mantissa adds one to the exponent field.
  min (0x7FF * twoTo 52) ((exponent + 1074).toNat * twoTo 52 + mantissa)

/-- The value nearest to a decimal that is not negative.  Decimals from `10 ^ 310` on are infinite
and those below `10 ^ -330` are zero, however large their exponents are. -/
def Decimal.toFloat (d : Decimal) : Float :=
  if d.digits = 0 then 0
  else
    let size : Int := (Decimal.length d.digits : Int) + d.exponent
    if 311 < size then 1 / 0
    else if size < -330 then 0
    else
      let (num, den) := d.quotient
      Float.ofBits (nearestBits num den).toUInt64

end VirtualPad
