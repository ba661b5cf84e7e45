import VirtualPad.Number.Hypotenuse
import VirtualPad.Pad.Rotation
import VirtualPad.Slots.Cells

/-!
# Sticks and triggers

A stick has two strengths on each axis, one for each side, which merge into one signed value.  A
rotator can take charge of the direction, a modifier scales the result, and the shape of the stick
decides how far its diagonals reach.  A trigger is a strength scaled by its modifier.

Both show a value of their own, which is brought up to date by `recompute` and not by writing into
the cells: an event may write several cells before anyone looks.
-/

namespace VirtualPad

/-- The path of a stick at full deflection. -/
inductive StickShape where
  | square
  | circle
  deriving DecidableEq, Repr, Inhabited

namespace StickShape

def text : StickShape → String
  | .square => "square"
  | .circle => "circle"

def all : List StickShape := [.square, .circle]

def named? (name : String) : Option StickShape :=
  all.find? fun shape => shape.text == foldCase name

end StickShape

/-! ## §1 Merging and shaping -/

/-- The signed value of two opposite strengths.  Each side counts with its weight, and the sum is
divided by the heavier weight, so several pushes to one side never reach further than one. -/
def mergeSides {α : Type} [Scalar α] (negative positive : StrengthCell α) : α :=
  let heaviest := max negative.weight positive.weight
  if heaviest = 0 then 0
  else
    let n : α := Scalar.clamp negative.value 0 1
    let p : α := Scalar.clamp positive.value 0 1
    let raw := p * Scalar.ofNat positive.weight - n * Scalar.ofNat negative.weight
    Scalar.clamp (raw / Scalar.ofNat heaviest) (-1) 1

/-- A vector of the square moved onto the shape.  On the circle it keeps its direction and the
larger of its parts becomes its length. -/
def shaped (shape : StickShape) (x y : Float) : Float × Float :=
  if shape = .square ∨ (x.abs < Scalar.epsilon ∧ y.abs < Scalar.epsilon) then (x, y)
  else
    let k := Scalar.maximum x.abs y.abs / hypotenuse x y
    (x * k, y * k)

/-! ## §2 Sticks -/

/-- The strengths of one axis. -/
structure AxisCells where
  negative : StrengthCell Float := {}
  positive : StrengthCell Float := {}
  deriving Inhabited

namespace AxisCells

/-- The strength of one side. -/
def side (a : AxisCells) : Side → StrengthCell Float
  | .negative => a.negative
  | .positive => a.positive

/-- The axis with the strength of one side changed. -/
def mapSide (a : AxisCells) (side : Side) (change : StrengthCell Float → StrengthCell Float) :
    AxisCells :=
  match side with
  | .negative => { a with negative := change a.negative }
  | .positive => { a with positive := change a.positive }

/-- No contributions on either side. -/
def clear (a : AxisCells) : AxisCells :=
  { negative := a.negative.clear, positive := a.positive.clear }

end AxisCells

structure Stick where
  xCells : AxisCells := {}
  yCells : AxisCells := {}
  modifier : ModifierCell Float := {}
  rotateModifier : ModifierCell Float := {}
  rotation : Rotation Float := Rotation.rest
  shape : StickShape := .square
  /-- The value the stick shows. -/
  x : Float := 0
  y : Float := 0
  /-- The stick shows a deflection that the rotator alone holds. -/
  coasting : Bool := false
  deriving Inhabited

namespace Stick

def axis (s : Stick) : Axis → AxisCells
  | .x => s.xCells
  | .y => s.yCells

/-- The stick with one of its strengths changed. -/
def mapSide (s : Stick) (axis : Axis) (side : Side)
    (change : StrengthCell Float → StrengthCell Float) : Stick :=
  match axis with
  | .x => { s with xCells := s.xCells.mapSide side change }
  | .y => { s with yCells := s.yCells.mapSide side change }

def shown (s : Stick) : Axis → Float
  | .x => s.x
  | .y => s.y

/-- The direction that the strengths hold the stick in. -/
def direct (s : Stick) : Float × Float :=
  (mergeSides s.xCells.negative s.xCells.positive, mergeSides s.yCells.negative s.yCells.positive)

/-- The strengths are in charge again. -/
def disengage (s : Stick) : Stick :=
  { s with rotation := { s.rotation with engaged := false } }

/-- The two states show different values. -/
def differs (before after : Stick) : Bool := after.x != before.x || after.y != before.y

/-- Brings the shown value up to date. -/
def recompute (s : Stick) : Stick :=
  let (dx, dy) := s.direct
  let rotation :=
    if Scalar.epsilon < dx.abs ∨ Scalar.epsilon < dy.abs then
      { s.rotation with lastDirection := (dx, dy) }
    else s.rotation
  let reach := Scalar.maximum dx.abs dy.abs
  let coasting := s.rotation.engaged && decide (reach < Scalar.epsilon)
  let (x, y) :=
    if s.rotation.engaged then
      -- A rotator holds the stick out as far as the strengths do, or fully if they do not.
      let reach := if coasting then 1 else reach
      (reach * rotation.x, reach * rotation.y)
    else (dx, dy)
  let scale := s.modifier.product
  let (x, y) := shaped s.shape (Scalar.clamp (x * scale) (-1) 1) (Scalar.clamp (y * scale) (-1) 1)
  { s with rotation, coasting, x, y }

/-- The rotator moves the stick by `delta` units along the edge. -/
def rotate (s : Stick) (delta : Float) (clockwise : Bool) : Stick :=
  let rotation := if s.rotation.engaged then s.rotation else s.rotation.engage s.direct
  { s with rotation := rotation.advance delta clockwise }.recompute

/-- No contributions and no rotation; slot ownership stays. -/
def releaseAll (s : Stick) : Stick :=
  { s with
    xCells := s.xCells.clear
    yCells := s.yCells.clear
    modifier := s.modifier.clear
    rotateModifier := s.rotateModifier.clear
    rotation := Rotation.rest }.recompute

end Stick

/-! ## §3 Triggers -/

structure Trigger where
  cell : StrengthCell Float := {}
  modifier : ModifierCell Float := {}
  /-- The value the trigger shows. -/
  value : Float := 0
  pressed : Bool := false
  deriving Inhabited

namespace Trigger

/-- The two states look different from outside. -/
def differs (before after : Trigger) : Bool :=
  after.value != before.value || after.pressed != before.pressed

/-- Brings the shown value up to date. -/
def recompute (t : Trigger) : Trigger :=
  { t with
    value := Scalar.clamp (t.cell.value * t.modifier.product) 0 1
    pressed := t.cell.pressed }

/-- No contributions; slot ownership stays. -/
def releaseAll (t : Trigger) : Trigger :=
  { t with cell := t.cell.clear, modifier := t.modifier.clear }.recompute

end Trigger

end VirtualPad
