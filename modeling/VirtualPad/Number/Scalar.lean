import VirtualPad.Number.Binary64

/-!
# Numbers a cell can hold

Slot cells, the merge of opposite stick sides, the rotator walk and the motion remainder use a
handful of operations on numbers.  `Scalar` collects them, so that the same definitions run on
`Float` and are exact over `Rat`.

The comparisons are those of the number type.  On `Float` every comparison with NaN is false, and
`maximum` and `clamp` are written so that they agree with the usual conventions there: `maximum`
drops a NaN operand, `clamp` lets NaN pass.
-/

namespace VirtualPad

/-- The arithmetic that the numeric parts of a pad need. -/
class Scalar (α : Type) extends Add α, Sub α, Mul α, Div α, Neg α, LT α, LE α, BEq α where
  /-- The number that a natural number stands for. -/
  ofNat : Nat → α
  decidableLT : DecidableLT α
  decidableLE : DecidableLE α
  /-- The number without its fractional part. -/
  truncate : α → α
  /-- The integer part, stopped at the ends of the signed 32-bit range. -/
  toInt32 : α → Int

attribute [reducible, instance] Scalar.decidableLT Scalar.decidableLE

/-- Numerals of a scalar type. -/
instance (priority := low) {α : Type} [Scalar α] (n : Nat) : OfNat α n := ⟨Scalar.ofNat n⟩

instance : Scalar Float where
  ofNat := Float.ofNat
  decidableLT := inferInstance
  decidableLE := inferInstance
  truncate := VirtualPad.truncate
  toInt32 := VirtualPad.toInt32

/-- The integer part of a rational number, toward zero. -/
def Scalar.ratWhole (q : Rat) : Int := q.num.tdiv q.den

instance : Scalar Rat where
  ofNat n := (n : Rat)
  decidableLT := inferInstance
  decidableLE := inferInstance
  truncate q := (Scalar.ratWhole q : Rat)
  toInt32 q := saturate32 (Scalar.ratWhole q)

namespace Scalar

variable {α : Type} [Scalar α]

/-- The larger of two numbers.  A NaN loses against any number, and of two equal ones the first is
taken. -/
def maximum (a b : α) : α :=
  if a < b then b else if a == a then a else b

/-- `x` moved into the range from `lo` to `hi`. -/
def clamp (x lo hi : α) : α :=
  let x := if x < lo then lo else x
  if hi < x then hi else x

def magnitude (x : α) : α :=
  if x < 0 then -x else x

/-- The rest of `x` after taking away as many whole multiples of `m` as fit. -/
def rest (x m : α) : α :=
  x - m * truncate (x / m)

/-- Differences below this many units do not count as a deflection: one millionth. -/
def epsilon : α := 1 / 1000000

end Scalar

end VirtualPad
