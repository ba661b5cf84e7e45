import Mathlib.Algebra.Order.Group.MinMax
import VirtualPad.Pad.Rotation
import VirtualPad.Proofs.ExactNumbers

/-!
# The edge of the square

A rotator that is in charge holds the stick out to the edge of the square with the corners (±1, ±1).  A place
on the edge is counted counter-clockwise from the lower right corner, and after eight units one is back
there.  So places are compared up to whole turns: `Leads` says that a way of so many units leads from one
position to another, and ways that are walked one after the other add up.

The edge consists of four borders.  On each of them one coordinate stays and the other one runs, and the
place is counted by the one that runs.  What is said of a border is said once, with the border as a
parameter.
-/

namespace VirtualPad

/-! ## §1 Ways and whole turns -/

/-- A way that is counted forward or backward. -/
def towards (forward : Bool) (way : Rat) : Rat := if forward then way else -way

@[simp] theorem towards_true (way : Rat) : towards true way = way := rfl

@[simp] theorem towards_false (way : Rat) : towards false way = -way := rfl

@[simp] theorem towards_towards (forward : Bool) (way : Rat) : towards forward (towards forward way) = way := by
  cases forward <;> simp

@[simp] theorem abs_towards (forward : Bool) (way : Rat) : |towards forward way| = |way| := by
  cases forward <;> simp

theorem towards_sub (forward : Bool) (way less : Rat) :
    towards forward (way - less) = towards forward way - towards forward less := by
  cases forward with
  | true => rfl
  | false =>
    rw [towards_false, towards_false, towards_false]
    ring

/-- What whole turns of eight units leave of a way. -/
def wrapped (way : Rat) : Rat := 8 * Int.fract (way / 8)

theorem wrapped_nonneg (way : Rat) : 0 ≤ wrapped way := by
  have hfract := Int.fract_nonneg (way / 8)
  unfold wrapped
  linarith

theorem wrapped_lt (way : Rat) : wrapped way < 8 := by
  have hfract := Int.fract_lt_one (way / 8)
  unfold wrapped
  linarith

theorem wrapped_add_turns (way : Rat) (turns : Int) : wrapped (way + 8 * turns) = wrapped way := by
  unfold wrapped
  rw [add_div, mul_div_cancel_left₀ (turns : Rat) (by norm_num), Int.fract_add_intCast]

theorem wrapped_of_lt {way : Rat} (hnonneg : 0 ≤ way) (hlt : way < 8) : wrapped way = way := by
  unfold wrapped
  rw [Int.fract_eq_self.mpr ⟨by linarith, by linarith⟩]
  linarith

theorem eq_wrapped_add_turns (way : Rat) : ∃ turns : Int, way = wrapped way + 8 * turns := by
  refine ⟨⌊way / 8⌋, ?_⟩
  unfold wrapped Int.fract
  linarith

theorem wrapped_le {way : Rat} (h : 0 ≤ way) : wrapped way ≤ way := by
  have hfloor : (0 : Rat) ≤ ⌊way / 8⌋ := Int.cast_nonneg (Int.floor_nonneg.mpr (by linarith))
  unfold wrapped Int.fract
  linarith

/-! ## §2 The borders -/

/-- The four borders of the square, counter-clockwise from the right. -/
inductive Border where
  | right
  | top
  | left
  | bottom

namespace Border

/-- The axis that runs along the border. -/
def axis : Border → Axis
  | right | left => .y
  | top | bottom => .x

/-- The axis that the border crosses. -/
def across : Border → Axis
  | right | left => .x
  | top | bottom => .y

/-- Where the border crosses it. -/
def level : Border → Rat
  | right | top => 1
  | left | bottom => -1

/-- Counter-clockwise the coordinate that runs grows. -/
def rises : Border → Bool
  | right | bottom => true
  | top | left => false

/-- The place where the border begins, counter-clockwise. -/
def start : Border → Rat
  | right => 0
  | top => 2
  | left => 4
  | bottom => 6

/-- How far along the border a coordinate is. -/
def reach (b : Border) (coordinate : Rat) : Rat := 1 + towards b.rises coordinate

end Border

namespace Rotation

/-- The stick is held out to the edge. -/
def OnEdge (r : Rotation Rat) : Prop := max |r.x| |r.y| = 1

/-- The stick is held out to this border. -/
structure On (r : Rotation Rat) (b : Border) : Prop where
  level : r.coordinate b.across = b.level
  within : |r.coordinate b.axis| ≤ 1

variable {r r' r'' : Rotation Rat} {b : Border} {clockwise : Bool} {way way' : Rat}

theorem On.onEdge (h : r.On b) : r.OnEdge := by
  obtain ⟨hlevel, hwithin⟩ := h
  unfold OnEdge
  cases b with
  | right | left =>
    have hx : |r.x| = 1 := by
      rw [show r.x = _ from hlevel]
      simp [Border.level]
    rw [hx]
    exact max_eq_left hwithin
  | top | bottom =>
    have hy : |r.y| = 1 := by
      rw [show r.y = _ from hlevel]
      simp [Border.level]
    rw [hy]
    exact max_eq_right hwithin

theorem OnEdge.within (h : r.OnEdge) : |r.x| ≤ 1 ∧ |r.y| ≤ 1 :=
  ⟨h ▸ le_max_left _ _, h ▸ le_max_right _ _⟩

theorem OnEdge.on (h : r.OnEdge) : ∃ b, r.On b := by
  obtain ⟨hx, hy⟩ := h.within
  rcases max_choice |r.x| |r.y| with hmax | hmax
  · rcases eq_or_eq_neg_of_abs_eq (hmax.symm.trans h) with hlevel | hlevel
    · exact ⟨.right, hlevel, hy⟩
    · exact ⟨.left, hlevel, hy⟩
  · rcases eq_or_eq_neg_of_abs_eq (hmax.symm.trans h) with hlevel | hlevel
    · exact ⟨.top, hlevel, hx⟩
    · exact ⟨.bottom, hlevel, hx⟩

/-- Whoever moves along a border stays on it. -/
theorem On.withCoordinate (h : r.On b) {value : Rat} (hvalue : |value| ≤ 1) :
    (r.withCoordinate b.axis value).On b := by
  cases b <;> exact ⟨h.level, hvalue⟩

/-! ## §3 Places -/

/-- How far the stick is from the lower right corner, counter-clockwise along the edge. -/
def place (r : Rotation Rat) : Rat :=
  if r.x = 1 then 1 + r.y
  else if r.y = 1 then 3 - r.x
  else if r.x = -1 then 5 - r.y
  else 7 + r.x

/-- On a border the place is where the border begins and how far along it the stick is.  In a corner two
borders meet, and both count to the same place. -/
theorem On.place_eq (h : r.On b) :
    ∃ turns : Int, r.place = b.start + b.reach (r.coordinate b.axis) + 8 * turns := by
  obtain ⟨hlevel, -⟩ := h
  unfold place
  cases b with
  | right =>
    have hx : r.x = 1 := hlevel
    refine ⟨0, (if_pos hx).trans ?_⟩
    show 1 + r.y = 0 + (1 + r.y) + 8 * (0 : Int)
    norm_num
  | top =>
    have hy : r.y = 1 := hlevel
    refine ⟨0, ?_⟩
    show _ = 2 + (1 + -r.x) + 8 * (0 : Int)
    by_cases hcorner : r.x = 1
    · rw [if_pos hcorner, hy, hcorner]
      norm_num
    · rw [if_neg hcorner, if_pos hy]
      norm_num
      linarith
  | left =>
    have hx : r.x = -1 := hlevel
    refine ⟨0, ?_⟩
    show _ = 4 + (1 + -r.y) + 8 * (0 : Int)
    rw [hx, if_neg (by norm_num)]
    by_cases hcorner : r.y = 1
    · rw [if_pos hcorner, hcorner]
      norm_num
    · rw [if_neg hcorner, if_pos rfl]
      norm_num
      linarith
  | bottom =>
    have hy : r.y = -1 := hlevel
    rw [hy]
    by_cases hcorner : r.x = 1
    · -- The lower right corner ends the last border, but the count begins there.
      refine ⟨-1, (if_pos hcorner).trans ?_⟩
      show _ = 6 + (1 + r.x) + 8 * (-1 : Int)
      rw [hcorner]
      norm_num
    · refine ⟨0, (if_neg hcorner).trans ?_⟩
      show _ = 6 + (1 + r.x) + 8 * (0 : Int)
      rw [if_neg (by norm_num)]
      by_cases hleft : r.x = -1
      · rw [if_pos hleft, hleft]
        norm_num
      · rw [if_neg hleft]
        norm_num
        linarith

/-- How many places further on the second position is, in one direction. -/
def lead (clockwise : Bool) (r r' : Rotation Rat) : Rat :=
  if clockwise then r.place - r'.place else r'.place - r.place

/-- The length of the arc from the first position to the second, in one direction. -/
def ahead (clockwise : Bool) (r r' : Rotation Rat) : Rat := wrapped (lead clockwise r r')

/-- The length of the shorter arc between two positions. -/
def apart (r r' : Rotation Rat) : Rat := min (ahead true r r') (ahead false r r')

/-- A way of so many units leads from the first position to the second, up to whole turns. -/
def Leads (clockwise : Bool) (way : Rat) (r r' : Rotation Rat) : Prop :=
  ∃ turns : Int, lead clockwise r r' = way + 8 * turns

theorem Leads.refl (clockwise : Bool) (r : Rotation Rat) : Leads clockwise 0 r r :=
  ⟨0, by cases clockwise <;> simp [lead]⟩

theorem Leads.trans (h : Leads clockwise way r r') (h' : Leads clockwise way' r' r'') :
    Leads clockwise (way + way') r r'' := by
  obtain ⟨turns, hturns⟩ := h
  obtain ⟨turns', hturns'⟩ := h'
  have hlead : lead clockwise r r'' = lead clockwise r r' + lead clockwise r' r'' := by
    cases clockwise <;> simp [lead]
  refine ⟨turns + turns', ?_⟩
  rw [hlead, hturns, hturns', Int.cast_add]
  linarith

/-- Whatever is as far behind as the one position is ahead of the other has the same way to go backward. -/
theorem Leads.opposite {direction : Bool} {s s' : Rotation Rat} (h : Leads clockwise way r r')
    (hlead : lead direction s s' = -lead clockwise r r') : Leads direction (-way) s s' := by
  obtain ⟨turns, hturns⟩ := h
  refine ⟨-turns, ?_⟩
  rw [hlead, hturns, Int.cast_neg]
  linarith

/-- The way back. -/
theorem Leads.symm (h : Leads clockwise way r r') : Leads clockwise (-way) r' r := by
  apply h.opposite
  cases clockwise <;> simp [lead]

/-- The way in the other direction. -/
theorem Leads.turned (h : Leads clockwise way r r') : Leads (!clockwise) (-way) r r' := by
  apply h.opposite
  cases clockwise <;> simp [lead]

theorem Leads.congr (h : Leads clockwise way r r') (heq : ∃ turns : Int, way = way' + 8 * turns) :
    Leads clockwise way' r r' := by
  obtain ⟨turns, hturns⟩ := h
  obtain ⟨whole, hwhole⟩ := heq
  refine ⟨turns + whole, ?_⟩
  rw [hturns, hwhole, Int.cast_add]
  linarith

theorem Leads.ahead_eq (h : Leads clockwise way r r') : ahead clockwise r r' = wrapped way := by
  obtain ⟨turns, hturns⟩ := h
  rw [ahead, hturns, wrapped_add_turns]

/-- Two positions are no further apart than a way that leads from one to the other. -/
theorem Leads.apart_le (h : Leads clockwise way r r') : apart r r' ≤ |way| := by
  have hahead : ∀ direction, apart r r' ≤ ahead direction r r' := fun direction =>
    match direction with
    | true => min_le_left _ _
    | false => min_le_right _ _
  rcases le_total 0 way with hway | hway
  · calc apart r r' ≤ ahead clockwise r r' := hahead clockwise
      _ = wrapped way := h.ahead_eq
      _ ≤ way := wrapped_le hway
      _ = |way| := (abs_of_nonneg hway).symm
  · calc apart r r' ≤ ahead (!clockwise) r r' := hahead (!clockwise)
      _ = wrapped (-way) := h.turned.ahead_eq
      _ ≤ -way := wrapped_le (by linarith)
      _ = |way| := (abs_of_nonpos hway).symm

/-- Whoever moves along a border goes as far as the coordinate does. -/
theorem On.leads (h : r.On b) (h' : r'.On b) (clockwise : Bool) :
    Leads clockwise
      (towards (xor b.rises clockwise) (r'.coordinate b.axis - r.coordinate b.axis)) r r' := by
  obtain ⟨turns, hturns⟩ := h.place_eq
  obtain ⟨turns', hturns'⟩ := h'.place_eq
  unfold Border.reach at hturns hturns'
  cases clockwise with
  | true =>
    refine ⟨turns - turns', ?_⟩
    show r.place - r'.place = _
    rw [hturns, hturns', Int.cast_sub]
    cases b.rises <;> simp <;> linarith
  | false =>
    refine ⟨turns' - turns, ?_⟩
    show r'.place - r.place = _
    rw [hturns, hturns', Int.cast_sub]
    cases b.rises <;> simp <;> linarith

/-! ## §4 Close positions -/

/-- The coordinates of a place, of which one follows the place while the other is stopped at the edge. -/
def coordinateAt (place : Rat) : Axis → Rat
  | .x => max (min (|place - 5| - 2) 1) (-1)
  | .y => max (min (2 - |place - 3|) 1) (-1)

theorem coordinateAt_close (place other : Rat) (axis : Axis) :
    |coordinateAt place axis - coordinateAt other axis| ≤ |place - other| := by
  have hstopped : ∀ p q : Rat, |max (min p 1) (-1) - max (min q 1) (-1)| ≤ |p - q| := by
    intro p q
    apply (abs_max_sub_max_le_abs _ _ _).trans
    simpa using abs_min_sub_min_le_max p 1 q 1
  cases axis with
  | x =>
    apply (hstopped _ _).trans
    have hfold := abs_abs_sub_abs_le (place - 5) (other - 5)
    simpa using hfold
  | y =>
    apply (hstopped _ _).trans
    have hfold := abs_abs_sub_abs_le (other - 3) (place - 3)
    simpa [abs_sub_comm] using hfold

/-- Which border the place of a position is counted on. -/
theorem OnEdge.place_cases (h : r.OnEdge) :
    (r.x = 1 ∧ r.place = 1 + r.y) ∨ (r.y = 1 ∧ r.place = 3 - r.x) ∨
      (r.x = -1 ∧ r.place = 5 - r.y) ∨ (r.y = -1 ∧ r.x ≠ 1 ∧ r.place = 7 + r.x) := by
  obtain ⟨b, hlevel, -⟩ := h.on
  unfold place
  split_ifs with hright htop hleft
  · simp [hright]
  · simp [htop]
  · simp [hleft]
  · cases b with
    | right => exact absurd hlevel hright
    | top => exact absurd hlevel htop
    | left => exact absurd hlevel hleft
    | bottom => exact .inr (.inr (.inr ⟨hlevel, hright, rfl⟩))

theorem OnEdge.place_bounds (h : r.OnEdge) : 0 ≤ r.place ∧ r.place < 8 := by
  obtain ⟨hleft, hright⟩ := abs_le.mp h.within.1
  obtain ⟨hdown, hup⟩ := abs_le.mp h.within.2
  rcases h.place_cases with ⟨-, hplace⟩ | ⟨-, hplace⟩ | ⟨-, hplace⟩ | ⟨-, hne, hplace⟩
  · constructor <;> linarith
  · constructor <;> linarith
  · constructor <;> linarith
  · have hlt := lt_of_le_of_ne hright hne
    constructor <;> linarith

/-- The place determines both coordinates. -/
theorem OnEdge.coordinate_eq (h : r.OnEdge) (axis : Axis) :
    r.coordinate axis = coordinateAt r.place axis := by
  obtain ⟨hleft, hright⟩ := abs_le.mp h.within.1
  obtain ⟨hdown, hup⟩ := abs_le.mp h.within.2
  rcases h.place_cases with ⟨hx, hplace⟩ | ⟨hy, hplace⟩ | ⟨hx, hplace⟩ | ⟨hy, -, hplace⟩
  all_goals
    rw [hplace]
    cases axis <;> simp only [coordinate, coordinateAt, abs_eq_max_neg, max_def, min_def] <;>
      split_ifs <;> linarith

/-- What follows the places round the square changes no more than the arc is long. -/
theorem close_of_wrapped {f : Rat → Rat} (hclose : ∀ place other, |f place - f other| ≤ |place - other|)
    (hends : f 0 = f 8) {place other : Rat} (hplace : 0 ≤ place ∧ place < 8)
    (hother : 0 ≤ other ∧ other < 8) : |f place - f other| ≤ wrapped (other - place) := by
  rcases le_or_gt place other with hle | hlt
  · calc |f place - f other| ≤ |place - other| := hclose place other
      _ = other - place := by rw [abs_sub_comm, abs_of_nonneg (by linarith)]
      _ = wrapped (other - place) := (wrapped_of_lt (by linarith) (by linarith)).symm
  · -- The arc leads over the corner where the count begins.
    have hturn : wrapped (other - place) = other - place + 8 := by
      have hadd := wrapped_add_turns (other - place) 1
      rw [← hadd]
      push_cast
      rw [wrapped_of_lt (by linarith) (by linarith)]
      ring
    have hlast : |f place - f 0| ≤ 8 - place := by
      have hle := hclose place 8
      rw [← hends] at hle
      exact hle.trans_eq (by rw [abs_sub_comm, abs_of_pos (by linarith)])
    have hfirst : |f 0 - f other| ≤ other :=
      (hclose 0 other).trans_eq (by rw [zero_sub, abs_neg, abs_of_nonneg hother.1])
    calc |f place - f other| ≤ |f place - f 0| + |f 0 - f other| := abs_sub_le _ _ _
      _ ≤ (8 - place) + other := add_le_add hlast hfirst
      _ = wrapped (other - place) := by rw [hturn]; ring

/-- On either axis two positions are no further from each other than along the edge. -/
theorem OnEdge.coordinate_close (h : r.OnEdge) (h' : r'.OnEdge) (axis : Axis) :
    |r.coordinate axis - r'.coordinate axis| ≤ apart r r' := by
  have hclose : ∀ place other, |coordinateAt place axis - coordinateAt other axis| ≤ |place - other| :=
    fun place other => coordinateAt_close place other axis
  have hends : coordinateAt 0 axis = coordinateAt 8 axis := by
    cases axis <;> decide +kernel
  rw [h.coordinate_eq, h'.coordinate_eq]
  apply le_min
  · rw [abs_sub_comm]
    exact close_of_wrapped (f := (coordinateAt · axis)) hclose hends h'.place_bounds h.place_bounds
  · exact close_of_wrapped (f := (coordinateAt · axis)) hclose hends h.place_bounds h'.place_bounds

/-- Two positions are no further from each other than `bound`, neither along the edge nor on an axis. -/
structure Close (bound : Rat) (r r' : Rotation Rat) : Prop where
  arc : apart r r' ≤ bound
  coordinate : ∀ axis, |r.coordinate axis - r'.coordinate axis| ≤ bound

/-- A short way leads to a close position. -/
theorem Leads.close {bound : Rat} (h : Leads clockwise way r r') (hr : r.OnEdge) (hr' : r'.OnEdge)
    (hway : |way| ≤ bound) : Close bound r r' where
  arc := h.apart_le.trans hway
  coordinate axis := ((hr.coordinate_close hr' axis).trans h.apart_le).trans hway

end Rotation

end VirtualPad
