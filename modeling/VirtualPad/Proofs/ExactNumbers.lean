import Mathlib.Data.Rat.Floor
import Mathlib.Tactic.Linarith
import VirtualPad.Number.Scalar

/-!
# Exact numbers

Over the rational numbers the operations of `Scalar` lose nothing, and they are the usual ones: the larger
of two numbers, a number moved into a range, the magnitude, the rest after whole multiples have been taken
away.  This module says which they are, so that what is computed from them can be worked with by the laws
of arithmetic.

`wholeUnits` is the part of a number before the point.  It goes toward zero from both sides, so what it
leaves has the sign of the number and is shorter than one unit.
-/

namespace VirtualPad

/-- The whole units in a number, toward zero. -/
def wholeUnits (q : Rat) : Int := if 0 ≤ q then ⌊q⌋ else ⌈q⌉

/-- What the whole units leave is less than one of them. -/
theorem abs_sub_wholeUnits_lt (q : Rat) : |q - wholeUnits q| < 1 := by
  unfold wholeUnits
  split
  · have hfloor := Int.floor_le q
    have hnext := Int.lt_floor_add_one q
    rw [abs_of_nonneg (by linarith)]
    linarith
  · have hceil := Int.le_ceil q
    have hlast := Int.ceil_lt_add_one q
    rw [abs_of_nonpos (by linarith)]
    linarith

namespace Scalar

theorem ratWhole_eq (q : Rat) : ratWhole q = wholeUnits q := by
  have hfloor : ∀ p : Rat, 0 ≤ p → ratWhole p = ⌊p⌋ := by
    intro p hp
    rw [ratWhole, Rat.floor_def', Int.tdiv_eq_ediv_of_nonneg (Rat.num_nonneg.mpr hp)]
  unfold wholeUnits
  split
  · exact hfloor q ‹_›
  · -- Below zero the numbers are mirrored.
    rename_i hneg
    have hmirror : ratWhole q = -ratWhole (-q) := by
      rw [ratWhole, ratWhole, Rat.num_neg_eq_neg_num, Rat.den_neg_eq_den, Int.neg_tdiv, neg_neg]
    rw [hmirror, hfloor (-q) (by linarith), Int.floor_neg, neg_neg]

theorem maximum_eq (a b : Rat) : maximum a b = max a b := by
  unfold maximum
  by_cases h : a < b
  · rw [if_pos h, max_eq_right h.le]
  · rw [if_neg h, max_eq_left (not_lt.mp h), if_pos (beq_self_eq_true a)]

theorem clamp_eq {lo hi : Rat} (x : Rat) (h : lo ≤ hi) : clamp x lo hi = max lo (min hi x) := by
  unfold clamp
  dsimp only
  by_cases hlo : x < lo
  · rw [if_pos hlo, if_neg (not_lt.mpr h), min_eq_right (hlo.le.trans h), max_eq_left hlo.le]
  · rw [if_neg hlo]
    by_cases hhi : hi < x
    · rw [if_pos hhi, min_eq_left hhi.le, max_eq_right h]
    · rw [if_neg hhi, min_eq_right (not_lt.mp hhi), max_eq_right (not_lt.mp hlo)]

theorem magnitude_eq (x : Rat) : magnitude x = |x| := by
  unfold magnitude
  by_cases h : x < 0
  · exact (if_pos h).trans (abs_of_neg h).symm
  · exact (if_neg h).trans (abs_of_nonneg (not_lt.mp h)).symm

/-- What is left of a number that is not negative is its fractional part, counted in multiples. -/
theorem rest_eq {x m : Rat} (hx : 0 ≤ x) (hm : 0 < m) : rest x m = m * Int.fract (x / m) := by
  have hwhole : ratWhole (x / m) = ⌊x / m⌋ := by
    rw [ratWhole_eq, wholeUnits, if_pos (div_nonneg hx hm.le)]
  show x - m * (ratWhole (x / m) : Rat) = _
  rw [hwhole, Int.fract, mul_sub, mul_div_cancel₀ x hm.ne']

end Scalar

end VirtualPad
