import VirtualPad.Pad.Stick
import VirtualPad.User

/-!
# Virtual pads

A pad has fifteen buttons, two triggers and two sticks.  Mappings write into its cells; every change
that can be seen from outside is committed and counted by the pad's version.  A snapshot is what a
reader sees.

Writing answers the new pad together with whether the change can be seen.
-/

namespace VirtualPad

def leftPart : Fin 2 := ⟨0, by decide⟩

def rightPart : Fin 2 := ⟨1, by decide⟩

/-- One virtual pad. -/
structure Pad where
  buttons : Vector ButtonCell 15 := Vector.replicate 15 {}
  triggers : Vector Trigger 2 := Vector.replicate 2 {}
  sticks : Vector Stick 2 := Vector.replicate 2 {}
  connected : Bool := true
  /-- The number of changes committed so far. -/
  version : Nat := 0
  /-- When the last change was committed, in milliseconds. -/
  timestamp : Nat := 0
  deriving Inhabited

/-- What a reader sees of a pad. -/
structure Snapshot where
  user : Nat
  connected : Bool
  /-- The pressed buttons: bit `i` is set for button `i`. -/
  buttons : Nat
  /-- The left and the right trigger, from 0 to 1. -/
  triggers : Float × Float
  /-- Left x, left y, right x, right y, from -1 to 1; up and right are positive. -/
  axes : Float × Float × Float × Float
  version : Nat
  timestamp : Nat
  deriving Inhabited

namespace Snapshot

/-- Whether a control is a pad button that is pressed. -/
def button (s : Snapshot) (c : Control) : Bool :=
  match (Descriptor.builtin c).cell with
  | .pad (.button index) => s.buttons.testBit index
  | _ => false

/-- The value of the left or of the right trigger. -/
def triggerAt (s : Snapshot) (index : Fin 2) : Float :=
  if index.val = 0 then s.triggers.1 else s.triggers.2

/-- The value of a trigger; zero for every other control. -/
def trigger (s : Snapshot) (c : Control) : Float :=
  match (Descriptor.builtin c).cell with
  | .pad (.trigger index) => s.triggerAt index
  | _ => 0

/-- The value of the left or of the right stick. -/
def stick (s : Snapshot) (index : Fin 2) : Float × Float :=
  if index.val = 0 then (s.axes.1, s.axes.2.1) else s.axes.2.2

/-- Two snapshots show the same values, whatever their versions and times.  Values are compared as
numbers. -/
def sameValues (a b : Snapshot) : Bool :=
  a.connected == b.connected && a.buttons == b.buttons && a.triggers == b.triggers &&
    a.axes == b.axes

end Snapshot

namespace Pad

def button (p : Pad) (index : Fin 15) : ButtonCell := p.buttons[index]

def trigger (p : Pad) (index : Fin 2) : Trigger := p.triggers[index]

def stick (p : Pad) (index : Fin 2) : Stick := p.sticks[index]

def setButton (p : Pad) (index : Fin 15) (b : ButtonCell) : Pad :=
  { p with buttons := p.buttons.set index b }

def setTrigger (p : Pad) (index : Fin 2) (t : Trigger) : Pad :=
  { p with triggers := p.triggers.set index t }

def setStick (p : Pad) (index : Fin 2) (s : Stick) : Pad :=
  { p with sticks := p.sticks.set index s }

/-- The pressed buttons as a mask. -/
def buttonMask (p : Pad) : Nat :=
  p.buttons.toList.zipIdx.foldl
    (fun mask (b, i) => if ButtonCell.pressed b then mask + twoTo i else mask) 0

/-- What a reader sees of the pad. -/
def snapshot (p : Pad) (user : Nat) : Snapshot :=
  let left := p.stick leftPart
  let right := p.stick rightPart
  { user
    connected := p.connected
    buttons := p.buttonMask
    triggers := ((p.trigger leftPart).value, (p.trigger rightPart).value)
    axes := (left.x, left.y, right.x, right.y)
    version := p.version
    timestamp := p.timestamp }

/-- The pad with one more committed change. -/
def commit (p : Pad) (time : Nat) : Pad :=
  { p with version := p.version + 1, timestamp := time }

/-! ## §1 Writing one part -/

/-- The pad with one button changed, and whether that can be seen. -/
def updateButton (p : Pad) (index : Fin 15) (change : ButtonCell → ButtonCell) : Pad × Bool :=
  let before := p.button index
  let after := change before
  (p.setButton index after, ButtonCell.differs before after)

/-- The pad with one trigger changed, and whether that can be seen. -/
def updateTrigger (p : Pad) (index : Fin 2) (change : Trigger → Trigger) : Pad × Bool :=
  let before := p.trigger index
  let after := change before
  (p.setTrigger index after, before.differs after)

/-- The pad with one stick changed, and whether that can be seen. -/
def updateStick (p : Pad) (index : Fin 2) (change : Stick → Stick) : Pad × Bool :=
  let before := p.stick index
  let after := change before
  (p.setStick index after, before.differs after)

/-! ## §2 Writing a mapping's contribution -/

/-- What a mapping puts into its slot. -/
structure Contribution where
  down : Bool
  strength : Float
  replaces : Bool
  adds : Bool

/-- A strength with the contribution in its slot.  A press that adds begins where it left off. -/
def Contribution.into (c : Contribution) (slot : Slot) (cell : StrengthCell Float) :
    StrengthCell Float :=
  if c.adds && c.down then cell.add slot 0 c.replaces
  else cell.set slot c.down c.strength c.replaces

/-- A stick after its strengths were changed by direct input, which takes over from the rotator
if it makes a difference. -/
def touched (before after : Stick) (parts : List (Axis × Side)) : Stick :=
  let moved := parts.any fun (axis, side) =>
    StrengthCell.differs ((before.axis axis).side side) ((after.axis axis).side side)
  (if moved then after.disengage else after).recompute

/-- The parts of a stick that a cell drives. -/
def parts : PadCell → List (Axis × Side)
  | .direction _ axis side => [(axis, side)]
  | .diagonal _ x y => [(.x, x), (.y, y)]
  | _ => []

/-- The stick with the same change made to several strengths. -/
def mapParts (s : Stick) (parts : List (Axis × Side))
    (change : StrengthCell Float → StrengthCell Float) : Stick :=
  parts.foldl (fun s (axis, side) => s.mapSide axis side change) s

/-- Writes a contribution into a slot of a cell. -/
def write (p : Pad) (cell : PadCell) (slot : Slot) (c : Contribution) : Pad × Bool :=
  let drive (stick : Fin 2) :=
    p.updateStick stick fun s => touched s (mapParts s (parts cell) (c.into slot)) (parts cell)
  match cell with
  | .button index => p.updateButton index fun b => ButtonCell.set b slot c.down c.replaces
  | .trigger index =>
    p.updateTrigger index fun t => { t with cell := c.into slot t.cell }.recompute
  | .direction stick _ _ => drive stick
  | .diagonal stick _ _ => drive stick
  | .stickModifier stick =>
    p.updateStick stick fun s =>
      { s with modifier := ModifierCell.set s.modifier slot c.down c.strength }.recompute
  | .triggerModifier index =>
    p.updateTrigger index fun t =>
      { t with modifier := ModifierCell.set t.modifier slot c.down c.strength }.recompute
  | .rotateModifier stick =>
    -- Scales the speed of the rotator only, which is seen when the rotator next moves.
    ((p.updateStick stick fun s =>
      { s with rotateModifier := ModifierCell.set s.rotateModifier slot c.down c.strength }).1,
      false)

/-- Makes a change to every strength of a cell; cells that are not strengths stay as they are. -/
def updateStrengths (p : Pad) (cell : PadCell)
    (change : StrengthCell Float → StrengthCell Float) : Pad × Bool :=
  let drive (stick : Fin 2) :=
    p.updateStick stick fun s => (mapParts s (parts cell) change).recompute
  match cell with
  | .trigger index =>
    p.updateTrigger index fun t => { t with cell := change t.cell }.recompute
  | .direction stick _ _ => drive stick
  | .diagonal stick _ _ => drive stick
  | _ => (p, false)

/-- Adds to what a slot of a cell has built up. -/
def add (p : Pad) (cell : PadCell) (slot : Slot) (amount : Float) (replaces : Bool) : Pad × Bool :=
  p.updateStrengths cell fun c => c.add slot amount replaces

/-- Takes away what the slots of a cell have built up by adding. -/
def resetAdds (p : Pad) (cell : PadCell) : Pad × Bool :=
  p.updateStrengths cell StrengthCell.resetAdds

/-- A rotator moves a stick. -/
def rotate (p : Pad) (stick : Fin 2) (delta : Float) (clockwise : Bool) : Pad × Bool :=
  p.updateStick stick fun s => s.rotate delta clockwise

/-- Drops every contribution, keeping slot ownership; answers whether that can be seen. -/
def releaseAll (p : Pad) : Pad × Bool :=
  let after := { p with
    buttons := p.buttons.map Slots.clear
    triggers := p.triggers.map Trigger.releaseAll
    sticks := p.sticks.map Stick.releaseAll }
  let seen :=
    (p.buttons.zip after.buttons).any (fun (b, a) => ButtonCell.differs b a) ||
    (p.triggers.zip after.triggers).any (fun (b, a) => b.differs a) ||
    (p.sticks.zip after.sticks).any (fun (b, a) => b.differs a)
  (after, seen)

/-- The pad as it is when switched on, with version and time kept so that readers see them grow. -/
def reset (p : Pad) (shape : StickShape) (connected : Bool) : Pad × Bool :=
  let after : Pad :=
    { sticks := Vector.replicate 2 { shape }
      connected
      version := p.version
      timestamp := p.timestamp }
  (after, !(after.snapshot 0).sameValues (p.snapshot 0))

/-! ## §3 Ownership -/

/-- The slots of a cell that belong to some mapping; of a diagonal, those of either direction. -/
def owned (p : Pad) (cell : PadCell) : Mask :=
  match cell with
  | .button index => (p.button index).owned
  | .trigger index => (p.trigger index).cell.owned
  | .direction stick _ _ | .diagonal stick _ _ =>
    (parts cell).foldl (fun m (axis, side) => m ||| (((p.stick stick).axis axis).side side).owned)
      Mask.none
  | .stickModifier stick => (p.stick stick).modifier.owned
  | .triggerModifier index => (p.trigger index).modifier.owned
  | .rotateModifier stick => (p.stick stick).rotateModifier.owned

/-- The pad with a slot of a cell given to a mapping. -/
def claim (p : Pad) (cell : PadCell) (slot : Slot) : Pad :=
  let stick (index : Fin 2) (change : Stick → Stick) : Pad :=
    p.setStick index (change (p.stick index))
  let trigger (index : Fin 2) (change : Trigger → Trigger) : Pad :=
    p.setTrigger index (change (p.trigger index))
  match cell with
  | .button index => p.setButton index ((p.button index).claim slot)
  | .trigger index => trigger index fun t => { t with cell := t.cell.claim slot }
  | .direction index _ _ | .diagonal index _ _ =>
    stick index fun s => mapParts s (parts cell) fun c => c.claim slot
  | .stickModifier index => stick index fun s => { s with modifier := s.modifier.claim slot }
  | .triggerModifier index => trigger index fun t => { t with modifier := t.modifier.claim slot }
  | .rotateModifier index =>
    stick index fun s => { s with rotateModifier := s.rotateModifier.claim slot }

end Pad

/-! ## §4 The pads of all users -/

/-- Moves a number of users into the range from one to the limit. -/
def clampUsers (n : Nat) : Nat := max 1 (min userLimit n)

/-- The pads of all users.  There is a record for every user there can be; readers see those of the
configured number. -/
structure PadBank where
  pads : Vector Pad userLimit := Vector.replicate userLimit {}
  /-- How many pads are configured. -/
  count : Nat := 1
  deriving Inhabited

namespace PadBank

/-- Pads for a number of users. -/
def ofCount (count : Nat) : PadBank := { count := clampUsers count }

/-- What a reader sees of a user's pad; nothing past the configured number. -/
def snapshot? (b : PadBank) (user : Nat) : Option Snapshot :=
  if h : user < userLimit then
    if user < b.count then some (b.pads[user].snapshot user) else none
  else none

/-- The pad of a user. -/
def pad (b : PadBank) (user : User) : Pad := b.pads[user]

/-- The bank with a user's pad put in place. -/
def set (b : PadBank) (user : User) (p : Pad) : PadBank :=
  { b with pads := b.pads.set user p }

end PadBank

end VirtualPad
