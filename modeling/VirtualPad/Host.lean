import VirtualPad.Control.Descriptor
import VirtualPad.Number.Scalar
import VirtualPad.User

/-!
# What goes to the host

The engine drives pads itself.  Everything else goes to the host as events: keys, mouse buttons,
motion, custom outputs and the commands that only the host can carry out.

The host moves its pointer and its wheel by whole units.  `MotionRemainder` keeps the fractions back
until they make up a unit.
-/

namespace VirtualPad

/-- A command that a mapping has given. -/
structure Request where
  command : Command
  user : User
  /-- The command was given by a press; only holding the active user is. -/
  pressed : Bool
  /-- The name of the configuration to load. -/
  payload : Option String
  /-- The mapping that gave the command. -/
  mapping : Nat
  deriving DecidableEq, Repr

/-- Something for the host to do. -/
inductive HostEvent where
  | key (control : Control) (down : Bool)
  | mouseButton (control : Control) (down : Bool)
  | custom (control : Control) (down : Bool)
  | motion (dx dy : Int)
  | scroll (dx dy : Int)
  | command (request : Request)
  deriving DecidableEq, Repr

/-- The motion of the pointer in a list of events, unless it leaves the signed 32-bit range on the
way. -/
def totalMotion? (events : List HostEvent) : Option (Int × Int) :=
  events.foldlM (fun (x, y) event => match event with
    | .motion dx dy =>
      if saturate32 (x + dx) = x + dx ∧ saturate32 (y + dy) = y + dy then some (x + dx, y + dy)
      else none
    | _ => some (x, y)) (0, 0)

/-- An amount of motion along two axes. -/
structure Motion (α : Type) where
  dx : α
  dy : α
  deriving Inhabited

namespace Motion

variable {α : Type} [Scalar α]

def none : Motion α := ⟨0, 0⟩

/-- One motion after the other. -/
def plus (a b : Motion α) : Motion α := ⟨a.dx + b.dx, a.dy + b.dy⟩

/-- The whole units in the motion. -/
def whole (m : Motion α) : Int × Int := (Scalar.toInt32 m.dx, Scalar.toInt32 m.dy)

/-- What is left of the motion without its whole units. -/
def fraction (m : Motion α) : Motion α :=
  ⟨m.dx - Scalar.truncate m.dx, m.dy - Scalar.truncate m.dy⟩

end Motion

/-- The fractions of motion that the host has not been told yet. -/
structure MotionRemainder (α : Type) where
  pointer : Motion α
  wheel : Motion α

namespace MotionRemainder

variable {α : Type} [Scalar α]

/-- Nothing is left over. -/
def none : MotionRemainder α := ⟨Motion.none, Motion.none⟩

/-- The event for a number of whole units, unless there are none. -/
def announce (event : Int → Int → HostEvent) (units : Int × Int) : List HostEvent :=
  if units.1 ≠ 0 ∨ units.2 ≠ 0 then [event units.1 units.2] else []

/-- Adds motion and announces the whole units that have come together. -/
def flush (r : MotionRemainder α) (pointer wheel : Motion α) :
    MotionRemainder α × List HostEvent :=
  let pointer := r.pointer.plus pointer
  let wheel := r.wheel.plus wheel
  (⟨pointer.fraction, wheel.fraction⟩,
    announce .motion pointer.whole ++ announce .scroll wheel.whole)

end MotionRemainder

end VirtualPad
