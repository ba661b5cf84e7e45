import VirtualPad.Number.Text
import VirtualPad.Pad.Stick
import VirtualPad.User

/-!
# Settings

The timing and speed of the engine and the options of each pad.  Settings can come from anywhere, so
`Settings.sanitize` replaces every unusable value and reports each replacement.

Times are natural numbers of nanoseconds.
-/

namespace VirtualPad

/-- A length of time in nanoseconds. -/
abbrev Nanoseconds := Nat

def Nanoseconds.perMilli : Nat := 1000000

def Nanoseconds.ofMillis (ms : Nat) : Nanoseconds := ms * perMilli

def Nanoseconds.toMillis (t : Nanoseconds) : Nat := t / perMilli

/-- The length of time in seconds: whole seconds and the part after the point, added up. -/
def Nanoseconds.toSeconds (t : Nanoseconds) : Float :=
  Float.ofNat (t / 1000000000) + Float.ofNat (t % 1000000000) / 1000000000

/-- The longest rate that is accepted, in seconds. -/
def maxRate : Float := 3600

/-- A rate in seconds as a length of time, at least a millisecond and at most `maxRate`.  What is no
number counts as a millisecond. -/
def Nanoseconds.ofRate (rate : Float) : Nanoseconds :=
  let bounded := Scalar.clamp rate 0.001 maxRate
  if bounded.isNaN then perMilli else billionths bounded

/-- The tuning of the engine. -/
structure Settings where
  /-- The number of pads. -/
  users : Nat := 4
  /-- How long a key is held before it repeats. -/
  keyRepeatDelay : Nanoseconds := Nanoseconds.ofMillis 500
  /-- The time between two repeats of a key. -/
  keyRepeatInterval : Nanoseconds := Nanoseconds.ofMillis 33
  /-- The time between two steps of motion or of adding up. -/
  motionInterval : Nanoseconds := Nanoseconds.ofMillis 10
  /-- The time between two steps of a rotator. -/
  rotateInterval : Nanoseconds := Nanoseconds.ofMillis 10
  /-- Pointer pixels in a step at full strength. -/
  mouseSpeed : Float := 8
  /-- Wheel notches in a step at full strength. -/
  wheelSpeed : Float := 1
  /-- The rate in seconds of a mapping that names none. -/
  defaultRate : Float := 1
  deriving Inhabited

/-- Why a setting was replaced. -/
inductive SettingsError where
  | userCount (count : Nat)
  | zeroInterval (name : String)
  | notPositive (name : String) (value : Float)
  | tooLarge (name : String) (value limit : Float)

def SettingsError.message : SettingsError → String
  | .userCount count =>
    "users must be between 1 and " ++ Nat.repr userLimit ++ ", got " ++ Nat.repr count
  | .zeroInterval name => name ++ " must be greater than zero"
  | .notPositive name value => name ++ " must be a positive number, got " ++ plainText value
  | .tooLarge name value limit =>
    name ++ " must be at most " ++ plainText limit ++ ", got " ++ plainText value

namespace Settings

def standard : Settings := {}

/-- A number of users in range, and the error if it was not. -/
def checkUsers (users : Nat) : Nat × List SettingsError :=
  if users = 0 ∨ userLimit < users then (max 1 (min userLimit users), [.userCount users])
  else (users, [])

/-- An interval that is not zero, and the error if it was. -/
def checkInterval (name : String) (value fallback : Nanoseconds) :
    Nanoseconds × List SettingsError :=
  if value = 0 then (fallback, [.zeroInterval name]) else (value, [])

/-- A positive finite number, and the error if it was none. -/
def checkPositive (name : String) (value fallback : Float) : Float × List SettingsError :=
  if value.isFinite && decide (0 < value) then (value, [])
  else (fallback, [.notPositive name value])

/-- A number of at most `limit`, and the error if it was larger. -/
def checkLimit (name : String) (value limit fallback : Float) : Float × List SettingsError :=
  if limit < value then (fallback, [.tooLarge name value limit]) else (value, [])

/-- The settings with every unusable value replaced, and one error for each replacement in the order
of the fields.  A number of users out of range moves to the nearer end of the range; everything else
falls back to its standard. -/
def sanitize (s : Settings) : Settings × List SettingsError :=
  let (users, usersErrors) := checkUsers s.users
  let (repeats, repeatErrors) :=
    checkInterval "key_repeat_interval_ms" s.keyRepeatInterval standard.keyRepeatInterval
  let (motion, motionErrors) :=
    checkInterval "motion_interval_ms" s.motionInterval standard.motionInterval
  let (rotate, rotateErrors) :=
    checkInterval "rotate_interval_ms" s.rotateInterval standard.rotateInterval
  let (mouse, mouseErrors) := checkPositive "mouse_speed" s.mouseSpeed standard.mouseSpeed
  let (wheel, wheelErrors) := checkPositive "wheel_speed" s.wheelSpeed standard.wheelSpeed
  let (rate, rateErrors) := checkPositive "default_rate" s.defaultRate standard.defaultRate
  let (rate, limitErrors) := checkLimit "default_rate" rate maxRate standard.defaultRate
  ({ s with
      users
      keyRepeatInterval := repeats
      motionInterval := motion
      rotateInterval := rotate
      mouseSpeed := mouse
      wheelSpeed := wheel
      defaultRate := rate },
    usersErrors ++ repeatErrors ++ motionErrors ++ rotateErrors ++ mouseErrors ++ wheelErrors ++
      rateErrors ++ limitErrors)

end Settings

structure PadSettings where
  stickShape : StickShape := .square
  connected : Bool := true
  deriving DecidableEq, Repr, Inhabited

end VirtualPad
