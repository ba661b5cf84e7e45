import Mathlib.Algebra.Order.BigOperators.Group.List
import VirtualPad.Proofs.Perimeter

/-!
# How far a rotator walks

A rotator goes round the square from mark to mark, the marks being the corners and the middles of the borders.
Wherever it is on the edge, there is one border that it can go along in its direction, and on it there is at
most one unit to the next mark.  A step goes there, or as far as the way lasts (`step_eq`).

From this the walk is followed to its end without a bound on its steps (`Walks`): it stays on the edge, and it
has gone the whole way but for a rest that is hardly worth a step.  From a mark each step goes a full unit, so
nine steps are enough for less than a turn, wherever the walk begins.

The main result is `Rotation.advance_exact`.
-/

namespace VirtualPad

namespace Rotation

variable {r r' : Rotation Rat} {clockwise grows : Bool} {way rest coordinate went : Rat}

/-! ## §1 The way ahead -/

/-- In this direction the rotator goes along this border, which does not end here. -/
structure Heads (r : Rotation Rat) (clockwise : Bool) (b : Border) : Prop where
  on : r.On b
  edge : r.edge clockwise = (b.axis, xor b.rises clockwise)
  isOpen : towards (xor b.rises clockwise) (r.coordinate b.axis) < 1

theorem edge_clockwise (r : Rotation Rat) : r.edge true =
    if 1 ≤ r.y ∧ r.x < 1 then (.x, true)
    else if 1 ≤ r.x ∧ -1 < r.y then (.y, false)
    else if r.y ≤ -1 ∧ -1 < r.x then (.x, false)
    else (.y, true) := rfl

theorem edge_counterclockwise (r : Rotation Rat) : r.edge false =
    if 1 ≤ r.y ∧ -1 < r.x then (.x, false)
    else if r.x ≤ -1 ∧ -1 < r.y then (.y, false)
    else if r.y ≤ -1 ∧ r.x < 1 then (.x, true)
    else (.y, true) := rfl

/-- On the edge there is always a border to go along, in corners as well. -/
theorem OnEdge.heads (h : r.OnEdge) (clockwise : Bool) : ∃ b, r.Heads clockwise b := by
  obtain ⟨hx, hy⟩ := h.within
  obtain ⟨hleft, hright⟩ := abs_le.mp hx
  obtain ⟨hdown, hup⟩ := abs_le.mp hy
  have hsides : r.x = 1 ∨ r.x = -1 ∨ r.y = 1 ∨ r.y = -1 := by
    obtain ⟨b, hlevel, -⟩ := h.on
    cases b with
    | right => exact .inl hlevel
    | left => exact .inr (.inl hlevel)
    | top => exact .inr (.inr (.inl hlevel))
    | bottom => exact .inr (.inr (.inr hlevel))
  -- The borders are asked for in a row; the last one is what remains when the others have been ruled out.
  cases clockwise with
  | true =>
    have hedge := edge_clockwise r
    split_ifs at hedge with htop hside hbottom
    · exact ⟨.top, ⟨le_antisymm hup htop.1, hx⟩, hedge, htop.2⟩
    · exact ⟨.right, ⟨le_antisymm hright hside.1, hy⟩, hedge, neg_lt.mp hside.2⟩
    · exact ⟨.bottom, ⟨le_antisymm hbottom.1 hdown, hx⟩, hedge, neg_lt.mp hbottom.2⟩
    · have hlast : r.x = -1 ∧ r.y < 1 := by grind
      exact ⟨.left, ⟨hlast.1, hy⟩, hedge, hlast.2⟩
  | false =>
    have hedge := edge_counterclockwise r
    split_ifs at hedge with htop hside hbottom
    · exact ⟨.top, ⟨le_antisymm hup htop.1, hx⟩, hedge, neg_lt.mp htop.2⟩
    · exact ⟨.left, ⟨le_antisymm hside.1 hleft, hy⟩, hedge, neg_lt.mp hside.2⟩
    · exact ⟨.bottom, ⟨le_antisymm hbottom.1 hdown, hx⟩, hedge, hbottom.2⟩
    · have hlast : r.x = 1 ∧ r.y < 1 := by grind
      exact ⟨.right, ⟨hlast.1, hy⟩, hedge, hlast.2⟩

/-! ## §2 The next mark -/

/-- A coordinate of a corner or of the middle of a border. -/
def IsMark (coordinate : Rat) : Prop := coordinate = -1 ∨ coordinate = 0 ∨ coordinate = 1

/-- The stick points to a corner or to the middle of a border. -/
def AtMark (r : Rotation Rat) : Prop := ∀ axis, IsMark (r.coordinate axis)

/-- How far it is to the next mark. -/
def room (coordinate : Rat) (grows : Bool) : Rat := |boundary coordinate grows - coordinate|

/-- A coordinate that has gone on by so much. -/
def moved (coordinate : Rat) (grows : Bool) (went : Rat) : Rat := coordinate + towards grows went

/-- The next mark, as seen by someone who looks ahead: coordinates that fall are mirrored. -/
theorem boundary_eq (coordinate : Rat) (grows : Bool) :
    boundary coordinate grows = towards grows (if towards grows coordinate < 0 then 0 else 1) := by
  cases grows with
  | true => rfl
  | false =>
    show (if 0 < coordinate then 0 else -1) = -(if -coordinate < 0 then 0 else 1 : Rat)
    by_cases hpos : 0 < coordinate
    · rw [if_pos hpos, if_pos (neg_lt_zero.mpr hpos), neg_zero]
    · rw [if_neg hpos, if_neg (mt neg_lt_zero.mp hpos)]

/-- Where the next mark is, seen from a coordinate that can still go on. -/
structure Bounded (coordinate : Rat) (grows : Bool) : Prop where
  mark : IsMark (boundary coordinate grows)
  reached : boundary coordinate grows = moved coordinate grows (room coordinate grows)
  pos : 0 < room coordinate grows
  /-- From a mark it is a full unit to the next one. -/
  unit : IsMark coordinate → room coordinate grows = 1

theorem IsMark.towards (h : IsMark coordinate) (grows : Bool) : IsMark (towards grows coordinate) := by
  rcases h with rfl | rfl | rfl <;> cases grows <;> simp [IsMark]

theorem bounded (hwithin : |coordinate| ≤ 1) (hopen : towards grows coordinate < 1) :
    Bounded coordinate grows := by
  -- A coordinate that falls grows when it is mirrored, so that it is enough to look ahead.
  obtain ⟨ahead, rfl⟩ : ∃ ahead, coordinate = towards grows ahead := ⟨towards grows coordinate, by simp⟩
  have hgoal := boundary_eq (towards grows ahead) grows
  rw [towards_towards] at hopen hgoal
  rw [abs_towards] at hwithin
  have hlow := (abs_le.mp hwithin).1
  set goal : Rat := if ahead < 0 then 0 else 1 with hdef
  have hahead : ahead < goal := by
    rw [hdef]
    split <;> linarith
  have hroom : room (towards grows ahead) grows = goal - ahead := by
    rw [room, hgoal, ← towards_sub, abs_towards, abs_of_pos (sub_pos.mpr hahead)]
  constructor
  · have hmark : IsMark goal := by
      rw [hdef]
      split
      · exact .inr (.inl rfl)
      · exact .inr (.inr rfl)
    rw [hgoal]
    exact hmark.towards grows
  · rw [hgoal, moved, hroom, towards_sub, add_sub_cancel]
  · rw [hroom]
    exact sub_pos.mpr hahead
  · intro hmark
    have hmirrored := hmark.towards grows
    rw [towards_towards] at hmirrored
    rw [hroom, hdef]
    rcases hmirrored with rfl | rfl | rfl
    · norm_num
    · norm_num
    · exact absurd hopen (lt_irrefl _)

/-- Marks are within the square. -/
theorem IsMark.within (h : IsMark coordinate) : |coordinate| ≤ 1 := by
  rcases h with rfl | rfl | rfl <;> simp

/-- On the way to the next mark the rotator stays between here and there. -/
theorem Bounded.within (h : Bounded coordinate grows) (hwithin : |coordinate| ≤ 1) (hnonneg : 0 ≤ went)
    (hle : went ≤ room coordinate grows) : |moved coordinate grows went| ≤ 1 := by
  have hmark := h.mark.within
  rw [h.reached] at hmark
  unfold moved at *
  rw [abs_le] at *
  cases grows with
  | true =>
    rw [towards_true] at *
    constructor <;> linarith
  | false =>
    rw [towards_false] at *
    constructor <;> linarith

/-! ## §3 One step -/

/-- A step goes along the border to the next mark, or as far as the way lasts. -/
theorem step_eq {b : Border} (h : r.Heads clockwise b) (way : Rat) :
    r.step clockwise way =
      (r.withCoordinate b.axis (moved (r.coordinate b.axis) (xor b.rises clockwise)
          (min way (room (r.coordinate b.axis) (xor b.rises clockwise)))),
        way - min way (room (r.coordinate b.axis) (xor b.rises clockwise))) := by
  have hbounded := bounded h.on.within h.isOpen
  have hroom : Scalar.magnitude (boundary (r.coordinate b.axis) (xor b.rises clockwise) - r.coordinate b.axis) =
      room (r.coordinate b.axis) (xor b.rises clockwise) := Scalar.magnitude_eq _
  have hmoved : ∀ (coordinate : Rat) (grows : Bool),
      (if grows then coordinate + way else coordinate - way) = moved coordinate grows way := by
    intro coordinate grows
    cases grows <;> simp [moved, sub_eq_add_neg]
  unfold step
  rw [h.edge]
  dsimp only
  rw [hroom, hmoved]
  -- Either the way ends before the room does, or the room before the way.
  by_cases hshort : way < room (r.coordinate b.axis) (xor b.rises clockwise)
  · rw [min_eq_left hshort.le, sub_self]
    exact if_pos hshort
  · rw [min_eq_right (not_lt.mp hshort), ← hbounded.reached]
    exact if_neg hshort

/-- What a step does for the walk. -/
structure Stepped (clockwise : Bool) (way : Rat) (r r' : Rotation Rat) (rest : Rat) : Prop where
  onEdge : r'.OnEdge
  leads : Leads clockwise (way - rest) r r'
  nonneg : 0 ≤ rest
  less : rest < way
  /-- A step that leaves some of the way ends on a mark. -/
  mark : rest = 0 ∨ r'.AtMark
  /-- From a mark a step goes a full unit if the way lasts. -/
  unit : r.AtMark → rest = 0 ∨ rest = way - 1

theorem coordinate_withCoordinate (r : Rotation Rat) (axis : Axis) (value : Rat) :
    (r.withCoordinate axis value).coordinate axis = value := by
  cases axis <;> rfl

theorem On.atMark {b : Border} (h : r.On b) (hmark : IsMark (r.coordinate b.axis)) : r.AtMark := by
  have hlevel : IsMark (r.coordinate b.across) := by
    rw [h.level]
    cases b <;> simp [Border.level, IsMark]
  intro axis
  cases b <;> cases axis <;> assumption

theorem stepped (h : r.OnEdge) (clockwise : Bool) (hway : 0 < way) :
    Stepped clockwise way r (r.step clockwise way).1 (r.step clockwise way).2 := by
  obtain ⟨b, hheads⟩ := h.heads clockwise
  have hbounded := bounded hheads.on.within hheads.isOpen
  have hstep := step_eq hheads way
  set coordinate := r.coordinate b.axis with hcoordinate
  set grows := xor b.rises clockwise with hgrows
  set went := min way (room coordinate grows) with hwent
  have hpos : 0 < went := lt_min hway hbounded.pos
  have hon : (r.withCoordinate b.axis (moved coordinate grows went)).On b :=
    hheads.on.withCoordinate (hbounded.within hheads.on.within hpos.le (min_le_right _ _))
  -- The step ends where the way does or at the next mark, whichever comes first.
  rw [hstep]
  constructor
  · exact hon.onEdge
  · have hleads := hheads.on.leads hon clockwise
    rw [coordinate_withCoordinate, ← hcoordinate, ← hgrows] at hleads
    rw [moved, add_sub_cancel_left, towards_towards] at hleads
    rw [sub_sub_cancel]
    exact hleads
  · exact sub_nonneg.mpr (min_le_left _ _)
  · exact sub_lt_self _ hpos
  · rcases le_total way (room coordinate grows) with hshort | hlong
    · left
      rw [hwent, min_eq_left hshort, sub_self]
    · right
      apply hon.atMark
      rw [coordinate_withCoordinate, hwent, min_eq_right hlong, ← hbounded.reached]
      exact hbounded.mark
  · intro hmark
    rw [hwent, hbounded.unit (hmark b.axis)]
    rcases le_total way 1 with hshort | hlong
    · exact .inl (by rw [min_eq_left hshort, sub_self])
    · exact .inr (by rw [min_eq_right hlong])

/-! ## §4 The walk -/

/-- The walk that no number of steps cuts short: from a position with so much way before it to the position
where what is left is not worth a step. -/
inductive Walks (clockwise : Bool) : Rat → Rotation Rat → Rat → Rotation Rat → Prop
  | arrived {way : Rat} {r : Rotation Rat} (h : way ≤ Scalar.epsilon) : Walks clockwise way r way r
  | step {way rest : Rat} {r r' : Rotation Rat} (h : Scalar.epsilon < way)
    (later : Walks clockwise (r.step clockwise way).2 (r.step clockwise way).1 rest r') :
    Walks clockwise way r rest r'

theorem epsilon_pos : (0 : Rat) < Scalar.epsilon := by decide +kernel

/-- How a walk along the edge ends. -/
structure Walked (clockwise : Bool) (way : Rat) (r r' : Rotation Rat) (rest : Rat) : Prop where
  onEdge : r'.OnEdge
  leads : Leads clockwise (way - rest) r r'
  nonneg : 0 ≤ rest
  le : rest ≤ way
  small : rest ≤ Scalar.epsilon

theorem Walks.walked (h : Walks clockwise way r rest r') (hr : r.OnEdge) (hway : 0 ≤ way) :
    Walked clockwise way r r' rest := by
  -- By induction on the walk: the first step and the rest of the walk lead on from one to the other.
  induction h with
  | @arrived way r hshort =>
    refine ⟨hr, ?_, hway, le_refl way, hshort⟩
    rw [sub_self]
    exact Leads.refl clockwise r
  | @step way r rest r' hlong _ ih =>
    have hstepped := stepped hr clockwise (epsilon_pos.trans hlong)
    obtain ⟨hon, hleads, hnonneg, hle, hsmall⟩ := ih hstepped.onEdge hstepped.nonneg
    refine ⟨hon, ?_, hnonneg, hle.trans hstepped.less.le, hsmall⟩
    have hboth := hstepped.leads.trans hleads
    rwa [sub_add_sub_cancel] at hboth

/-- The way determines where the walk ends. -/
theorem Walks.unique {rest₁ rest₂ : Rat} {r₁ r₂ : Rotation Rat} (h₁ : Walks clockwise way r rest₁ r₁)
    (h₂ : Walks clockwise way r rest₂ r₂) : r₁ = r₂ := by
  induction h₁ with
  | arrived hshort =>
    cases h₂ with
    | arrived _ => rfl
    | step hlong _ => exact absurd hlong (not_lt.mpr hshort)
  | step hlong _ ih =>
    cases h₂ with
    | arrived hshort => exact absurd hlong (not_lt.mpr hshort)
    | step _ hlater => exact ih hlater

theorem walk_of_le (h : way ≤ Scalar.epsilon) (clockwise : Bool) (steps : Nat) (r : Rotation Rat) :
    walk clockwise steps way r = r := by
  cases steps with
  | zero => rfl
  | succ steps => exact if_neg (not_lt.mpr h)

theorem walk_succ (h : Scalar.epsilon < way) (clockwise : Bool) (steps : Nat) (r : Rotation Rat) :
    walk clockwise (steps + 1) way r =
      walk clockwise steps (r.step clockwise way).2 (r.step clockwise way).1 :=
  if_pos h

/-- If the walk ends well after the first step, it ends well with one step more. -/
theorem walks_succ {steps : Nat}
    (h : Scalar.epsilon < way → ∃ rest, Walks clockwise (r.step clockwise way).2 (r.step clockwise way).1 rest
      (walk clockwise steps (r.step clockwise way).2 (r.step clockwise way).1)) :
    ∃ rest, Walks clockwise way r rest (walk clockwise (steps + 1) way r) := by
  rcases le_or_gt way Scalar.epsilon with hshort | hlong
  · rw [walk_of_le hshort]
    exact ⟨way, .arrived hshort⟩
  · obtain ⟨rest, hlater⟩ := h hlong
    rw [walk_succ hlong]
    exact ⟨rest, .step hlong hlater⟩

/-- From a mark so many steps are enough for so many units. -/
theorem walks_of_atMark {steps : Nat} (hr : r.OnEdge) (hmark : way = 0 ∨ r.AtMark) (hway : way ≤ steps) :
    ∃ rest, Walks clockwise way r rest (walk clockwise steps way r) := by
  -- Each step takes a full unit off the way, so that what is left of it stays below the steps left.
  induction steps generalizing r way with
  | zero =>
    have hshort : way ≤ Scalar.epsilon := le_trans (by simpa using hway) epsilon_pos.le
    exact ⟨way, .arrived hshort⟩
  | succ steps ih =>
    apply walks_succ
    intro hlong
    have hpos := epsilon_pos.trans hlong
    have hstepped := stepped hr clockwise hpos
    apply ih hstepped.onEdge hstepped.mark
    rcases hstepped.unit (hmark.resolve_left hpos.ne') with hnone | hless
    · rw [hnone]
      exact Nat.cast_nonneg steps
    · rw [hless, sub_le_iff_le_add]
      exact_mod_cast hway

/-- From anywhere on the edge nine steps are enough for a turn: one to the first mark, and eight units from
there. -/
theorem walks_turn {steps : Nat} (hsteps : 9 ≤ steps) (hr : r.OnEdge) (hway : way ≤ 8)
    (clockwise : Bool) : ∃ rest, Walks clockwise way r rest (walk clockwise steps way r) := by
  obtain ⟨more, rfl⟩ := Nat.exists_eq_add_of_le' hsteps
  apply walks_succ
  intro hlong
  have hstepped := stepped hr clockwise (epsilon_pos.trans hlong)
  apply walks_of_atMark hstepped.onEdge hstepped.mark
  have hless := hstepped.less
  have hmore : (0 : Rat) ≤ more := Nat.cast_nonneg more
  push_cast
  linarith

/-! ## §5 Advancing -/

theorem advance_eq (r : Rotation Rat) (delta : Rat) (clockwise : Bool) :
    r.advance delta clockwise = walk clockwise 9 (wrapped |delta|) r := by
  have hway : Scalar.rest (Scalar.magnitude delta) (turn : Rat) = wrapped |delta| := by
    rw [Scalar.magnitude_eq]
    exact Scalar.rest_eq (abs_nonneg delta) (show (0 : Rat) < 8 by norm_num)
  rw [advance, hway]

/-- To advance is to walk until hardly anything is left of the way. -/
theorem walked_advance (hr : r.OnEdge) (delta : Rat) (clockwise : Bool) :
    ∃ rest, Walks clockwise (wrapped |delta|) r rest (r.advance delta clockwise) ∧
      Walked clockwise (wrapped |delta|) r (r.advance delta clockwise) rest := by
  obtain ⟨rest, hwalks⟩ := walks_turn le_rfl hr (wrapped_lt |delta|).le clockwise
  rw [← advance_eq] at hwalks
  exact ⟨rest, hwalks, hwalks.walked hr (wrapped_nonneg _)⟩

/-- Up to whole turns and a rest, a rotator that advances goes as far as it is told to. -/
theorem leads_advance (hr : r.OnEdge) (delta : Rat) (clockwise : Bool) :
    (r.advance delta clockwise).OnEdge ∧ ∃ rest, 0 ≤ rest ∧ rest ≤ Scalar.epsilon ∧
      Leads clockwise (|delta| - rest) r (r.advance delta clockwise) := by
  obtain ⟨rest, -, hwalked⟩ := walked_advance hr delta clockwise
  refine ⟨hwalked.onEdge, rest, hwalked.nonneg, hwalked.small, hwalked.leads.congr ?_⟩
  obtain ⟨turns, hturns⟩ := eq_wrapped_add_turns |delta|
  refine ⟨-turns, ?_⟩
  push_cast
  linarith

/-- The rotator advances piece by piece in one direction. -/
def advanceAll (r : Rotation Rat) (deltas : List Rat) (clockwise : Bool) : Rotation Rat :=
  deltas.foldl (fun r delta => r.advance delta clockwise) r

/-- Each piece may leave a rest. -/
theorem leads_advanceAll (hr : r.OnEdge) (deltas : List Rat) (clockwise : Bool) :
    (r.advanceAll deltas clockwise).OnEdge ∧
      ∃ rest, 0 ≤ rest ∧ rest ≤ (deltas.length : Rat) * Scalar.epsilon ∧
        Leads clockwise ((deltas.map abs).sum - rest) r (r.advanceAll deltas clockwise) := by
  -- The ways of the pieces add up, and so do their rests.
  induction deltas generalizing r with
  | nil =>
    refine ⟨hr, 0, le_refl 0, by simp, ?_⟩
    rw [List.map_nil, List.sum_nil, sub_zero]
    exact Leads.refl clockwise r
  | cons delta later ih =>
    obtain ⟨hon, rest, hnonneg, hsmall, hleads⟩ := leads_advance hr delta clockwise
    obtain ⟨hons, rests, hnonnegs, hsmalls, hleadss⟩ := ih hon
    refine ⟨hons, rest + rests, add_nonneg hnonneg hnonnegs, ?_, ?_⟩
    · rw [List.length_cons]
      push_cast
      linarith
    · have hboth := hleads.trans hleadss
      rw [sub_add_sub_comm] at hboth
      rw [List.map_cons, List.sum_cons]
      exact hboth

/-- What a rotator does when it is told to advance. -/
structure Advanced (r : Rotation Rat) (delta : Rat) (clockwise : Bool) : Prop where
  onEdge : (r.advance delta clockwise).OnEdge
  /-- In its direction it has gone the whole way, less a rest with which the walk ends by itself. -/
  walked : ∃ rest, Walks clockwise (wrapped |delta|) r rest (r.advance delta clockwise) ∧
    0 ≤ rest ∧ rest ≤ Scalar.epsilon ∧
      r.ahead clockwise (r.advance delta clockwise) = wrapped |delta| - rest
  /-- More steps than it is given would not lead it any further. -/
  uncut : ∀ steps, 9 ≤ steps → walk clockwise steps (wrapped |delta|) r = r.advance delta clockwise
  /-- The same way back leads to where it began. -/
  returned : Close (2 * Scalar.epsilon) r ((r.advance delta clockwise).advance delta !clockwise)

theorem advanced (hr : r.OnEdge) (delta : Rat) (clockwise : Bool) : r.Advanced delta clockwise := by
  obtain ⟨rest, hwalks, hwalked⟩ := walked_advance hr delta clockwise
  constructor
  · exact hwalked.onEdge
  · refine ⟨rest, hwalks, hwalked.nonneg, hwalked.small, ?_⟩
    have hlt := wrapped_lt |delta|
    have hnonneg := hwalked.nonneg
    rw [hwalked.leads.ahead_eq, wrapped_of_lt (sub_nonneg.mpr hwalked.le) (by linarith)]
  · intro steps hsteps
    obtain ⟨_, hmore⟩ := walks_turn hsteps hr (wrapped_lt |delta|).le clockwise
    exact hmore.unique hwalks
  · -- Both ways leave a rest, and what is missing on the way out need not be gone on the way back.
    obtain ⟨hon, out, hout, houtSmall, hleads⟩ := leads_advance hr delta clockwise
    obtain ⟨honBack, back, hback, hbackSmall, hreturns⟩ := leads_advance hon delta !clockwise
    have hturned := hreturns.turned
    rw [Bool.not_not] at hturned
    apply (hleads.trans hturned).close hr honBack
    rw [abs_le]
    constructor <;> linarith

/-- Pieces of the same sign are together as long as their sum. -/
theorem abs_sum_of_same_sign {deltas : List Rat}
    (h : (∀ delta ∈ deltas, 0 ≤ delta) ∨ (∀ delta ∈ deltas, delta ≤ 0)) :
    |deltas.sum| = (deltas.map abs).sum := by
  have htotal : 0 ≤ (deltas.map abs).sum := List.sum_nonneg (by simp)
  apply (abs_eq htotal).mpr
  rcases h with hnonneg | hnonpos
  · left
    rw [List.map_congr_left fun delta hdelta => abs_of_nonneg (hnonneg delta hdelta), List.map_id']
  · right
    rw [List.map_congr_left fun delta hdelta => abs_of_nonpos (hnonpos delta hdelta), ← List.sum_neg,
      neg_neg]

/-- Walking a way in pieces ends close to where walking it at once does. -/
theorem close_advanceAll (hr : r.OnEdge) {deltas : List Rat} {total : Rat}
    (htotal : |total| = (deltas.map abs).sum) (clockwise : Bool) :
    Close ((deltas.length + 1) * Scalar.epsilon) (r.advanceAll deltas clockwise)
      (r.advance total clockwise) := by
  obtain ⟨hons, rests, hnonnegs, hsmalls, hpieces⟩ := leads_advanceAll hr deltas clockwise
  obtain ⟨hon, rest, hnonneg, hsmall, honce⟩ := leads_advance hr total clockwise
  rw [htotal] at honce
  apply (hpieces.symm.trans honce).close hons hon
  rw [abs_le]
  constructor <;> linarith

/-- What becomes of a way that is walked in pieces, next to the same way at once. -/
structure Pieced (r : Rotation Rat) (deltas : List Rat) (clockwise : Bool) : Prop where
  lengths : Close ((deltas.length + 1) * Scalar.epsilon) (r.advanceAll deltas clockwise)
    (r.advance (deltas.map abs).sum clockwise)
  sum : (∀ delta ∈ deltas, 0 ≤ delta) ∨ (∀ delta ∈ deltas, delta ≤ 0) →
    Close ((deltas.length + 1) * Scalar.epsilon) (r.advanceAll deltas clockwise)
      (r.advance deltas.sum clockwise)

theorem pieced (hr : r.OnEdge) (deltas : List Rat) (clockwise : Bool) : r.Pieced deltas clockwise where
  lengths := close_advanceAll hr (abs_of_nonneg (List.sum_nonneg (by simp))) clockwise
  sum hsign := close_advanceAll hr (abs_sum_of_same_sign hsign) clockwise

/-- **The walk of a rotator is exact.**  From anywhere on the edge it advances along it by as much as it is
told to, less a rest that is not worth a step; the bound on its steps never cuts it short, the same way back
leads to where it began, and a way in pieces leads to where the whole way does. -/
theorem advance_exact (hr : r.OnEdge) (clockwise : Bool) :
    (∀ delta, r.Advanced delta clockwise) ∧ ∀ deltas, r.Pieced deltas clockwise :=
  ⟨fun delta => advanced hr delta clockwise, fun deltas => pieced hr deltas clockwise⟩

/-- The stick points between two marks. -/
def slanted : Rotation Rat := { x := 1 / 2, y := 1, engaged := true, lastDirection := (0, 1) }

/-- From there nearly a whole turn takes all of the nine steps. -/
theorem advance_exact_slanted :
    slanted.OnEdge ∧ (slanted.advance (79 / 10) true).OnEdge ∧
      (slanted.advance (79 / 10) true).x = 2 / 5 ∧ (walk true 8 (79 / 10) slanted).x = 0 := by
  have honEdge : slanted.OnEdge := by
    unfold OnEdge
    decide +kernel
  exact ⟨honEdge, ((advance_exact honEdge true).1 (79 / 10)).onEdge, by decide +kernel, by decide +kernel⟩

end Rotation

end VirtualPad
