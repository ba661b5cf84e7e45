/-!
# Rounding quotients

A quotient of natural numbers rounded to the nearest whole number.  An exact half goes where the
caller's rule says; everything else in the library that rounds is built on this one function.
-/

namespace VirtualPad

/-- Where a quotient that lies exactly between two whole numbers goes. -/
inductive Tie where
  | toEven
  | up
  deriving DecidableEq, Repr

/-- `num / den` rounded to the nearest whole number. -/
def roundDiv (num den : Nat) (tie : Tie) : Nat :=
  let whole := num / den
  let twice := 2 * (num % den)
  if twice < den then whole
  else if den < twice then whole + 1
  else match tie with
    | .toEven => whole + whole % 2
    | .up => whole + 1

end VirtualPad
