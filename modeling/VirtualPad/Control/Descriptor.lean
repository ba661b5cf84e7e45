import VirtualPad.Control

/-!
# What a control is

A `Descriptor` says what a control belongs to, how it behaves and which cell it reads or drives.
Built-in controls are described by their numbers alone; `Vocabulary` describes the custom ones.

A cell is a place that holds state: a host output, a part of a pad, a rotator, a command.  Parts of
a pad carry their index in the type, so a cell can never point outside its pad.
-/

namespace VirtualPad

/-- What a control belongs to. -/
inductive Domain where
  | nothing
  | keyboard
  | mouse
  | gamepad
  | command
  | word
  | custom
  deriving DecidableEq, Repr

def Domain.text : Domain → String
  | .nothing => "None"
  | .keyboard => "Keyboard"
  | .mouse => "Mouse"
  | .gamepad => "Gamepad"
  | .command => "Command"
  | .word => "Meta"
  | .custom => "Custom"

/-- The two axes of a stick: left to right, and down to up. -/
inductive Axis where
  | x
  | y
  deriving DecidableEq, Repr

/-- The two sides of an axis: left or down, and right or up. -/
inductive Side where
  | negative
  | positive
  deriving DecidableEq, Repr

/-- What a mapping can ask of the engine or of the host. -/
inductive Command where
  | reload
  | toggleDisable
  | setActiveUser
  | holdActiveUser
  | toggleConnected
  | loadConfig
  deriving DecidableEq, Repr

namespace Command

def all : List Command :=
  [.reload, .toggleDisable, .setActiveUser, .holdActiveUser, .toggleConnected, .loadConfig]

def text : Command → String
  | .reload => "Reload"
  | .toggleDisable => "ToggleDisable"
  | .setActiveUser => "SetActiveUser"
  | .holdActiveUser => "HoldActiveUser"
  | .toggleConnected => "ToggleConnected"
  | .loadConfig => "LoadConfig"

def named? (name : String) : Option Command :=
  all.find? fun c => c.text == name

end Command

/-- The words that join conditions. -/
inductive Connective where
  | and
  | or
  deriving DecidableEq, Repr

/-- Outputs that belong to no user: each is on or off as a whole. -/
inductive OutputKind where
  | keyboard
  | mouseButton
  | customKey
  /-- A variable is an output that is a source again. -/
  | var
  deriving DecidableEq, Repr

/-- A part of a pad that mappings write into. -/
inductive PadCell where
  | button (index : Fin 15)
  | trigger (index : Fin 2)
  | direction (stick : Fin 2) (axis : Axis) (side : Side)
  | diagonal (stick : Fin 2) (x y : Side)
  | stickModifier (stick : Fin 2)
  | triggerModifier (trigger : Fin 2)
  | rotateModifier (stick : Fin 2)
  deriving DecidableEq, Repr

/-- The cell a control reads from or writes to. -/
inductive Cell where
  /-- The control does nothing. -/
  | inert
  | output (kind : OutputKind)
  /-- Pointer motion, one unit in a direction. -/
  | motion (dx dy : Int)
  /-- Wheel motion, one unit in a direction. -/
  | wheel (dx dy : Int)
  | pad (cell : PadCell)
  | rotator (stick : Fin 2) (clockwise : Bool)
  | command (command : Command)
  | connective (word : Connective)
  deriving DecidableEq, Repr

/-- How a control behaves. -/
structure Flags where
  /-- The platform sends presses again and again while the control is held. -/
  repeatable : Bool := false
  /-- Motion: there is no state of being held. -/
  relative : Bool := false
  /-- Each user has one of their own. -/
  ofUser : Bool := false
  /-- Scales other controls while held. -/
  modifier : Bool := false
  /-- Two controls in one: down when either is. -/
  orPair : Bool := false
  /-- Two controls in one: down when both are. -/
  andPair : Bool := false
  /-- Can be driven but never be a source. -/
  outputOnly : Bool := false
  deriving DecidableEq, Repr

/-- What a control is. -/
structure Descriptor where
  domain : Domain := .nothing
  flags : Flags := {}
  cell : Cell := .inert
  /-- The two components of a pair. -/
  pair : Option (Control × Control) := none
  deriving DecidableEq, Repr

namespace Descriptor

/-- The description of a number that no control has. -/
def inert : Descriptor := {}

/-- The control does something: it is neither unknown nor a condition word. -/
def isDestination (d : Descriptor) : Bool :=
  match d.cell with
  | .inert | .connective _ => false
  | _ => true

def isSource (d : Descriptor) : Bool :=
  !d.flags.outputOnly && d.isDestination

/-- The part of a pad that the control stands for. -/
def padCell? (d : Descriptor) : Option PadCell :=
  match d.cell with
  | .pad cell => some cell
  | _ => none

def isCommand (d : Descriptor) : Bool :=
  match d.cell with
  | .command _ => true
  | _ => false

def isPadCell (d : Descriptor) : Bool := d.padCell?.isSome

/-- A mapping to the control holds a slot in a cell. -/
def needsSlot (d : Descriptor) : Bool :=
  match d.cell with
  | .pad _ | .output _ => true
  | _ => false

/-! ## §1 The built-in controls -/

def keyboard : Descriptor :=
  { domain := .keyboard, cell := .output .keyboard, flags := { repeatable := true } }

/-- A key that stands for its left and its right variant. -/
def eitherKey (left right : UInt16) : Descriptor :=
  { keyboard with
    flags := { repeatable := true, orPair := true }
    pair := some (⟨left⟩, ⟨right⟩) }

def gamepad (cell : Cell) : Descriptor :=
  { domain := .gamepad, cell, flags := { ofUser := true } }

/-- A part of a pad that scales another. -/
def scaling (cell : PadCell) : Descriptor :=
  { domain := .gamepad, cell := .pad cell, flags := { ofUser := true, modifier := true } }

def moving (cell : Cell) : Descriptor :=
  { domain := .mouse, cell, flags := { relative := true } }

def commanding (command : Command) : Descriptor :=
  { domain := .command, cell := .command command, flags := { outputOnly := true } }

/-- A stick diagonal is down when its vertical and its horizontal direction are. -/
def diagonal (stick : Fin 2) (x y : Side) (vertical horizontal : UInt16) : Descriptor :=
  { domain := .gamepad
    cell := .pad (.diagonal stick x y)
    flags := { ofUser := true, andPair := true }
    pair := some (⟨vertical⟩, ⟨horizontal⟩) }

/-- The description that goes with a number, whether or not a control of that number exists. -/
def ofNumber (n : Nat) : Descriptor :=
  if h : 0x200 ≤ n ∧ n ≤ 0x20E then gamepad (.pad (.button ⟨n - 0x200, by omega⟩))
  else match n with
  | 0x000 => inert
  | 0x010 => eitherKey 0xA0 0xA1
  | 0x011 => eitherKey 0xA2 0xA3
  | 0x012 => eitherKey 0xA4 0xA5
  | 0x0FF => eitherKey 0x5B 0x5C
  | 0x110 => moving (.motion (-1) 0)
  | 0x111 => moving (.motion 1 0)
  | 0x112 => moving (.motion 0 (-1))
  | 0x113 => moving (.motion 0 1)
  | 0x118 => moving (.wheel 0 1)
  | 0x119 => moving (.wheel 0 (-1))
  | 0x11A => moving (.wheel (-1) 0)
  | 0x11B => moving (.wheel 1 0)
  | 0x210 => gamepad (.pad (.trigger 0))
  | 0x211 => gamepad (.pad (.trigger 1))
  | 0x220 => gamepad (.pad (.direction 0 .y .positive))
  | 0x221 => gamepad (.pad (.direction 0 .y .negative))
  | 0x222 => gamepad (.pad (.direction 0 .x .negative))
  | 0x223 => gamepad (.pad (.direction 0 .x .positive))
  | 0x224 => gamepad (.pad (.direction 1 .y .positive))
  | 0x225 => gamepad (.pad (.direction 1 .y .negative))
  | 0x226 => gamepad (.pad (.direction 1 .x .negative))
  | 0x227 => gamepad (.pad (.direction 1 .x .positive))
  | 0x228 => diagonal 0 .negative .positive 0x220 0x222
  | 0x229 => diagonal 0 .positive .positive 0x220 0x223
  | 0x22A => diagonal 0 .negative .negative 0x221 0x222
  | 0x22B => diagonal 0 .positive .negative 0x221 0x223
  | 0x22C => diagonal 1 .negative .positive 0x224 0x226
  | 0x22D => diagonal 1 .positive .positive 0x224 0x227
  | 0x22E => diagonal 1 .negative .negative 0x225 0x226
  | 0x22F => diagonal 1 .positive .negative 0x225 0x227
  | 0x230 => scaling (.stickModifier 0)
  | 0x231 => scaling (.stickModifier 1)
  | 0x232 => scaling (.triggerModifier 0)
  | 0x233 => scaling (.triggerModifier 1)
  | 0x240 => gamepad (.rotator 0 true)
  | 0x241 => gamepad (.rotator 0 false)
  | 0x242 => gamepad (.rotator 1 true)
  | 0x243 => gamepad (.rotator 1 false)
  | 0x244 => scaling (.rotateModifier 0)
  | 0x245 => scaling (.rotateModifier 1)
  | 0x300 => commanding .reload
  | 0x301 => commanding .toggleDisable
  | 0x302 => commanding .setActiveUser
  | 0x303 => commanding .holdActiveUser
  | 0x304 => commanding .toggleConnected
  | 0x305 => commanding .loadConfig
  | 0x3F0 => { domain := .word, cell := .connective .and }
  | 0x3F1 => { domain := .word, cell := .connective .or }
  | n =>
    if n ≤ 0x0FF then keyboard
    else if n ≤ 0x105 then { domain := .mouse, cell := .output .mouseButton }
    else inert

/-- The description of a built-in control.  Numbers without a name do nothing. -/
def builtin (c : Control) : Descriptor :=
  if c.name?.isSome then ofNumber c.number else inert

end Descriptor

end VirtualPad
