import VirtualPad.Control.Descriptor
import VirtualPad.Number.Scalar

/-!
# Walking round the square

A rotator moves a stick along the edge of the square whose corners are (±1, ±1).  One full turn is
eight units long.  The walk stops at every corner and at every middle of an edge and goes on from
there with what is left of the way, so no step ever leaves the edge.
-/

namespace VirtualPad

/-- Where a rotator has brought a stick. -/
structure Rotation (α : Type) where
  x : α
  y : α
  /-- The rotator is in charge of the stick. -/
  engaged : Bool
  /-- The last direction the stick was held in. -/
  lastDirection : α × α

namespace Rotation

variable {α : Type} [Scalar α]

/-- A rotator at rest points straight up. -/
def rest : Rotation α :=
  { x := 0, y := 1, engaged := false, lastDirection := (0, 0) }

instance : Inhabited (Rotation α) := ⟨rest⟩

/-- The length of one full turn. -/
def turn : α := 8

/-- The axis that moves from here, and whether it grows. -/
def edge (r : Rotation α) (clockwise : Bool) : Axis × Bool :=
  if clockwise then
    if 1 ≤ r.y ∧ r.x < 1 then (.x, true)
    else if 1 ≤ r.x ∧ -1 < r.y then (.y, false)
    else if r.y ≤ -1 ∧ -1 < r.x then (.x, false)
    else (.y, true)
  else
    if 1 ≤ r.y ∧ -1 < r.x then (.x, false)
    else if r.x ≤ -1 ∧ -1 < r.y then (.y, false)
    else if r.y ≤ -1 ∧ r.x < 1 then (.x, true)
    else (.y, true)

/-- The next corner or middle of an edge for a coordinate that grows or shrinks. -/
def boundary (current : α) (grows : Bool) : α :=
  if grows then (if current < 0 then 0 else 1)
  else if 0 < current then 0 else -1

/-- The coordinate on an axis. -/
def coordinate (r : Rotation α) : Axis → α
  | .x => r.x
  | .y => r.y

def withCoordinate (r : Rotation α) (axis : Axis) (value : α) : Rotation α :=
  match axis with
  | .x => { r with x := value }
  | .y => { r with y := value }

/-- Walks to the next boundary, or as far as `way` reaches, and answers what is left of it. -/
def step (r : Rotation α) (clockwise : Bool) (way : α) : Rotation α × α :=
  let (axis, grows) := r.edge clockwise
  let current := r.coordinate axis
  let goal := boundary current grows
  let room := Scalar.magnitude (goal - current)
  if way < room then
    (r.withCoordinate axis (if grows then current + way else current - way), 0)
  else (r.withCoordinate axis goal, way - room)

/-- Walks boundary by boundary while there is way left; the number bounds how many. -/
def walk (clockwise : Bool) : Nat → α → Rotation α → Rotation α
  | 0, _, r => r
  | steps + 1, way, r =>
    if Scalar.epsilon < way then
      let (r, way) := r.step clockwise way
      walk clockwise steps way r
    else r

/-- Walks `delta` units along the edge.  Whole turns are left out first; what remains is less than
one turn, which has eight boundaries and may begin between two of them. -/
def advance (r : Rotation α) (delta : α) (clockwise : Bool) : Rotation α :=
  walk clockwise 9 (Scalar.rest (Scalar.magnitude delta) turn) r

end Rotation

/-- The corners and middles of edges, counter-clockwise from the right. -/
def compass : Vector (Float × Float) 8 :=
  #v[(1, 0), (1, 1), (0, 1), (-1, 1), (-1, 0), (-1, -1), (0, -1), (1, -1)]

/-- The place on the compass that is nearest to a direction by angle. -/
def nearestOctant (dx dy : Float) : Fin 8 :=
  let quarterPi : Float := 0.785398163397448309615660845819875721
  let octant := (toInt32 (Float.atan2 dy dx / quarterPi).round) % 8
  Fin.ofNat 8 octant.toNat

/-- The rotator takes charge.  A held direction is carried out to the edge as it is.  With nothing
held it starts from the compass direction nearest to the last one, and from straight up if the
stick has never been held. -/
def Rotation.engage (r : Rotation Float) (direct : Float × Float) : Rotation Float :=
  let held := Scalar.epsilon < direct.1.abs ∨ Scalar.epsilon < direct.2.abs
  let (dx, dy) := if held then direct else r.lastDirection
  let reach := Scalar.maximum dx.abs dy.abs
  let (x, y) :=
    if reach < Scalar.epsilon then (0, 1)
    else if held then (dx / reach, dy / reach)
    else compass[nearestOctant dx dy]
  { r with x, y, engaged := true }

end VirtualPad
