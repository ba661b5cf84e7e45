import VirtualPad.Number.Binary64

/-!
# The fewest digits that read back

Many decimals are closer to one floating-point value than to any other.  Among them this module
picks the ones with the fewest digits, and of those the closest to the value.

For one, two, … digits it looks at the two neighbours of the value on that decimal grid.  The first
grid with a neighbour that reads back wins.  All comparisons are between products of natural
numbers, so nothing is rounded on the way.
-/

namespace VirtualPad

/-- A positive decimal: `digits * 10 ^ exponent`. -/
structure Decimal where
  digits : Nat
  exponent : Int
  deriving DecidableEq, Repr

namespace Decimal

/-- The decimal as a quotient of natural numbers, numerator first. -/
def quotient (d : Decimal) : Nat × Nat :=
  if 0 ≤ d.exponent then (d.digits * tenTo d.exponent.toNat, 1)
  else (d.digits, tenTo (-d.exponent).toNat)

def length (n : Nat) : Nat := (Nat.repr n).length

/-- The same decimal with one trailing zero fewer, if it has any. -/
def trimmed (d : Decimal) : Decimal :=
  if d.digits % 10 = 0 then ⟨d.digits / 10, d.exponent + 1⟩ else d

end Decimal

namespace Binary64

/-- The width of the reals below the value that still read back to it is halved at a power of two,
where the neighbour below is half as far away as the one above. -/
def halvedBelow (b : Binary64) : Bool :=
  b.mantissa == twoTo 52 && decide (-1074 < b.exponent)

/-- Whether the decimal reads back to this positive value: it lies between the midpoints to the two
neighbouring values.  A midpoint itself goes to the neighbour with the even mantissa. -/
def readsBack (b : Binary64) (d : Decimal) : Bool :=
  let (num, den) := d.quotient
  -- Quarters of the last place: the midpoints are then whole numbers of them.
  let quarter : Binary64 := { b with mantissa := 1, exponent := b.exponent - 2 }
  let (qnum, qden) := quarter.quotient
  let value := num * qden
  let low := (4 * b.mantissa - (if b.halvedBelow then 1 else 2)) * qnum * den
  let high := (4 * b.mantissa + 2) * qnum * den
  if b.mantissa % 2 = 0 then decide (low ≤ value) && decide (value ≤ high)
  else decide (low < value) && decide (value < high)

/-- The decimal exponent of the first digit of a positive value: 0 for values from one to ten. -/
def leadingExponent (b : Binary64) : Int :=
  -- Every positive value is above 10 ^ -324, so the scaled value has a whole part.
  let (num, den) := b.quotient
  (Decimal.length (num * tenTo 400 / den) : Int) - 401

/-- The two neighbours of a positive value among the decimals with the given exponent. -/
def neighbours (b : Binary64) (exponent : Int) : Decimal × Decimal :=
  let (num, den) := b.quotient
  let digits :=
    if 0 ≤ exponent then num / (den * tenTo exponent.toNat)
    else num * tenTo (-exponent).toNat / den
  (⟨digits, exponent⟩, ⟨digits + 1, exponent⟩)

/-- Whether the value is at least as close to the upper as to the lower of its two neighbours on a
decimal grid. -/
def upperIsCloser (b : Binary64) (lower upper : Decimal) : Bool :=
  let (num, den) := b.quotient
  let (lnum, lden) := lower.quotient
  let (unum, _) := upper.quotient
  decide ((lnum + unum) * den ≤ 2 * num * lden)

/-- The neighbour on the grid of the given exponent that reads back, the closer one if both do. -/
def onGrid? (b : Binary64) (exponent : Int) : Option Decimal :=
  let (lower, upper) := b.neighbours exponent
  match b.readsBack lower, b.readsBack upper with
  | true, true => some (if b.upperIsCloser lower upper then upper else lower)
  | true, false => some lower
  | false, true => some upper
  | false, false => none

/-- The shortest decimal that reads back to this positive value.  Seventeen digits always suffice,
so the search looks no further.  Only the first grid can answer with a trailing zero, when the
value lies just below a power of ten: then one digit is left after trimming it. -/
def shortest (b : Binary64) : Decimal :=
  let lead := b.leadingExponent
  let grids := (List.range 17).map fun (n : Nat) => lead - n
  match grids.findSome? b.onGrid? with
  | some d => d.trimmed
  | none => (b.neighbours (lead - 16)).1

end Binary64

end VirtualPad
