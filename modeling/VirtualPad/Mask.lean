/-!
# Sets of places

A mask is a set of the numbers from 0 to 31, kept as the bits of one word.  Slot ownership and the
pressed users of a control are masks.  Numbers past 31 are in no mask.

The view of a mask is `has`; `has_put` says what the one operation does to it.
-/

namespace VirtualPad

abbrev maskWidth : Nat := 32

/-- A set of numbers below 32. -/
abbrev Mask := BitVec maskWidth

namespace Mask

def none : Mask := 0

def has (m : Mask) (place : Nat) : Bool :=
  decide (place < maskWidth) && m.getLsbD place

/-- The set with `place` put in or taken out. -/
def put (m : Mask) (place : Nat) (isIn : Bool) : Mask :=
  if place < maskWidth then
    let bit : Mask := BitVec.twoPow maskWidth place
    if isIn then m ||| bit else m &&& ~~~bit
  else m

/-- The set with a new member.  A place cannot be taken twice. -/
def claim? (m : Mask) (place : Nat) : Option Mask :=
  if m.has place then .none else .some (m.put place true)

/-- The smallest number that is not in the set. -/
def lowestFree? (m : Mask) : Option (Fin maskWidth) :=
  (List.finRange maskWidth).find? fun place => !m.has place

/-- The set of the numbers in a list. -/
def ofList (places : List Nat) : Mask :=
  places.foldl (fun m place => m.put place true) none

@[simp] theorem has_none (place : Nat) : none.has place = false := by
  simp [none, has]

@[simp] theorem has_or (m n : Mask) (place : Nat) :
    (m ||| n).has place = (m.has place || n.has place) := by
  unfold has
  cases decide (place < maskWidth) <;> simp

/-- Putting a place in or out changes that place alone. -/
theorem has_put (m : Mask) (place other : Nat) (isIn : Bool) :
    (m.put place isIn).has other =
      if place = other ∧ place < maskWidth then isIn else m.has other := by
  unfold put has
  by_cases within : place < maskWidth
  · by_cases outside : maskWidth ≤ other
    · have : ¬ (place = other ∧ place < maskWidth) := by omega
      simp [Nat.not_lt.mpr outside, this]
    · by_cases same : place = other
      · subst same
        cases isIn <;> simp [within]
      · have apart : ¬ (other - place = 0 ∧ place ≤ other) := by omega
        cases isIn <;> simp [within, same, Nat.lt_of_not_le outside] <;> omega
  · simp [within]

end Mask

end VirtualPad
