import Std.Data.TreeMap
import VirtualPad.Number.Text

/-!
# Controls and their names

A control is anything that can be pressed, moved or driven: a key, a mouse button, a wheel
direction, a pad button, a command.  It is known by a number.  This module holds the numbers of the
built-in controls, their names and the second names some of them go by.

Keyboard numbers follow the usual virtual-key numbering.  Mouse controls start at `0x100`, pad
controls at `0x200`, commands at `0x300`, the two condition words at `0x3F0`, and numbers from
`0x400` on are handed out to custom controls.

Letter case does not matter when a name is looked up, and only the letters A to Z have a case here.
-/

namespace VirtualPad

/-- A control, by its number. -/
structure Control where
  code : UInt16
  deriving DecidableEq, Repr, Inhabited

/-- `text` with the letters A to Z in lower case: two names are the same when they fold alike. -/
def foldCase (text : String) : String :=
  String.ofList (text.toList.map Char.toLower)

namespace Control

/-- The first number handed out to a custom control. -/
def firstCustom : Nat := 0x400

/-- How many numbers there are for custom controls. -/
def customCapacity : Nat := 0x10000 - firstCustom

/-- The control that an unresolvable name stands for; it does nothing. -/
def unknown : Control := ⟨0⟩

def number (c : Control) : Nat := c.code.toNat

/-- Controls are ordered by their numbers. -/
instance : Ord Control := ⟨compareOn Control.code⟩

instance : Std.TransOrd Control :=
  inferInstanceAs (Std.TransCmp (compareOn Control.code))

instance : Std.LawfulEqOrd Control where
  eq_of_compare {a b} h := by
    have codes : a.code = b.code := UInt16.instLawfulEqOrd.eq_of_compare h
    cases a
    cases b
    exact congrArg Control.mk codes

/-! ## §1 The tables -/

/-- Keyboard keys. -/
def keyboardNames : List (String × UInt16) :=
  [("Unknown", 0x00), ("Backspace", 0x08), ("Tab", 0x09), ("Enter", 0x0D), ("Shift", 0x10),
   ("Ctrl", 0x11), ("Alt", 0x12), ("Pause", 0x13), ("CapsLock", 0x14), ("Escape", 0x1B),
   ("Space", 0x20), ("PageUp", 0x21), ("PageDown", 0x22), ("End", 0x23), ("Home", 0x24),
   ("Left", 0x25), ("Up", 0x26), ("Right", 0x27), ("Down", 0x28), ("Insert", 0x2D),
   ("Delete", 0x2E), ("0", 0x30), ("1", 0x31), ("2", 0x32), ("3", 0x33), ("4", 0x34),
   ("5", 0x35), ("6", 0x36), ("7", 0x37), ("8", 0x38), ("9", 0x39), ("A", 0x41), ("B", 0x42),
   ("C", 0x43), ("D", 0x44), ("E", 0x45), ("F", 0x46), ("G", 0x47), ("H", 0x48), ("I", 0x49),
   ("J", 0x4A), ("K", 0x4B), ("L", 0x4C), ("M", 0x4D), ("N", 0x4E), ("O", 0x4F), ("P", 0x50),
   ("Q", 0x51), ("R", 0x52), ("S", 0x53), ("T", 0x54), ("U", 0x55), ("V", 0x56), ("W", 0x57),
   ("X", 0x58), ("Y", 0x59), ("Z", 0x5A), ("LWin", 0x5B), ("RWin", 0x5C), ("Apps", 0x5D),
   ("Numpad0", 0x60), ("Numpad1", 0x61), ("Numpad2", 0x62), ("Numpad3", 0x63), ("Numpad4", 0x64),
   ("Numpad5", 0x65), ("Numpad6", 0x66), ("Numpad7", 0x67), ("Numpad8", 0x68), ("Numpad9", 0x69),
   ("NumpadMultiply", 0x6A), ("NumpadAdd", 0x6B), ("NumpadSubtract", 0x6D),
   ("NumpadDecimal", 0x6E), ("NumpadDivide", 0x6F), ("F1", 0x70), ("F2", 0x71), ("F3", 0x72),
   ("F4", 0x73), ("F5", 0x74), ("F6", 0x75), ("F7", 0x76), ("F8", 0x77), ("F9", 0x78),
   ("F10", 0x79), ("F11", 0x7A), ("F12", 0x7B), ("F13", 0x7C), ("F14", 0x7D), ("F15", 0x7E),
   ("F16", 0x7F), ("F17", 0x80), ("F18", 0x81), ("F19", 0x82), ("F20", 0x83), ("F21", 0x84),
   ("F22", 0x85), ("F23", 0x86), ("F24", 0x87), ("NumLock", 0x90), ("ScrollLock", 0x91),
   ("LShift", 0xA0), ("RShift", 0xA1), ("LCtrl", 0xA2), ("RCtrl", 0xA3), ("LAlt", 0xA4),
   ("RAlt", 0xA5), ("Semicolon", 0xBA), ("Equals", 0xBB), ("Comma", 0xBC), ("Minus", 0xBD),
   ("Period", 0xBE), ("Slash", 0xBF), ("Grave", 0xC0), ("LBracket", 0xDB), ("Backslash", 0xDC),
   ("RBracket", 0xDD), ("Quote", 0xDE), ("Win", 0xFF)]

/-- Mouse buttons, pointer directions and wheel directions. -/
def mouseNames : List (String × UInt16) :=
  [("LButton", 0x101), ("RButton", 0x102), ("MButton", 0x103), ("XButton1", 0x104),
   ("XButton2", 0x105), ("MouseLeft", 0x110), ("MouseRight", 0x111), ("MouseUp", 0x112),
   ("MouseDown", 0x113), ("WheelUp", 0x118), ("WheelDown", 0x119), ("WheelLeft", 0x11A),
   ("WheelRight", 0x11B)]

/-- Pad buttons in report order, triggers, sticks, modifiers and rotators. -/
def padNames : List (String × UInt16) :=
  [("PadA", 0x200), ("PadB", 0x201), ("PadX", 0x202), ("PadY", 0x203), ("PadLB", 0x204),
   ("PadRB", 0x205), ("PadBack", 0x206), ("PadStart", 0x207), ("PadGuide", 0x208),
   ("PadLThumb", 0x209), ("PadRThumb", 0x20A), ("PadDUp", 0x20B), ("PadDDown", 0x20C),
   ("PadDLeft", 0x20D), ("PadDRight", 0x20E), ("PadLT", 0x210), ("PadRT", 0x211),
   ("LStickUp", 0x220), ("LStickDown", 0x221), ("LStickLeft", 0x222), ("LStickRight", 0x223),
   ("RStickUp", 0x224), ("RStickDown", 0x225), ("RStickLeft", 0x226), ("RStickRight", 0x227),
   ("LStickUpLeft", 0x228), ("LStickUpRight", 0x229), ("LStickDownLeft", 0x22A),
   ("LStickDownRight", 0x22B), ("RStickUpLeft", 0x22C), ("RStickUpRight", 0x22D),
   ("RStickDownLeft", 0x22E), ("RStickDownRight", 0x22F), ("LStickMod", 0x230),
   ("RStickMod", 0x231), ("LTMod", 0x232), ("RTMod", 0x233), ("LStickRotateCW", 0x240),
   ("LStickRotateCCW", 0x241), ("RStickRotateCW", 0x242), ("RStickRotateCCW", 0x243),
   ("LStickRotateMod", 0x244), ("RStickRotateMod", 0x245)]

/-- Commands and the two condition words. -/
def commandNames : List (String × UInt16) :=
  [("Reload", 0x300), ("ToggleDisable", 0x301), ("SetActiveUser", 0x302),
   ("HoldActiveUser", 0x303), ("ToggleConnected", 0x304), ("LoadConfig", 0x305), ("And", 0x3F0),
   ("Or", 0x3F1)]

/-- Every built-in control with its name, in the order of the numbers. -/
def builtins : List (String × UInt16) :=
  keyboardNames ++ mouseNames ++ padNames ++ commandNames

/-- Second names that a lookup accepts. -/
def aliases : List (String × UInt16) :=
  [("Esc", 0x1B), ("Return", 0x0D), ("Control", 0x11), ("LControl", 0xA2), ("RControl", 0xA3),
   ("Menu", 0x12), ("Super", 0xFF), ("Caps", 0x14), ("Del", 0x2E), ("Ins", 0x2D), ("PgUp", 0x21),
   ("PgDn", 0x22), ("LMB", 0x101), ("RMB", 0x102), ("MMB", 0x103), ("PadLeftTrigger", 0x210),
   ("PadRightTrigger", 0x211), ("PadSelect", 0x206), ("PadHome", 0x208)]

/-- All names, folded, with the numbers they stand for. -/
def foldedNames : List (String × UInt16) :=
  (builtins ++ aliases).map fun (name, code) => (foldCase name, code)

/-! ## §2 Looking controls up -/

def name? (c : Control) : Option String :=
  (builtins.find? fun (_, code) => code == c.code).map Prod.fst

/-- The built-in control that goes by `name`, in any letter case. -/
def named? (name : String) : Option Control :=
  (foldedNames.lookup (foldCase name)).map Control.mk

def isCustom (c : Control) : Bool := decide (firstCustom ≤ c.number)

/-- How a control is shown: its name, its place among the custom controls, or its bare number. -/
def text (c : Control) : String :=
  match c.name? with
  | some name => name
  | none =>
    if c.isCustom then "Custom#" ++ Nat.repr (c.number - firstCustom)
    else "Key(" ++ hexText c.number 0 ++ ")"

end Control

/-- A name that no built-in control goes by. -/
structure UnknownControl where
  name : String
  deriving DecidableEq, Repr

def UnknownControl.message (e : UnknownControl) : String :=
  "Unknown control: " ++ e.name

def Control.parse (name : String) : Except UnknownControl Control :=
  match Control.named? name with
  | some c => .ok c
  | none => .error ⟨name⟩

end VirtualPad
