import VirtualPad.Document
import VirtualPad.Settings

/-!
# Configuration files

What a configuration document says, before anything is looked up: the tables `general` and `custom`,
the list of `pad` tables and the list of `mapping` tables.  Entries that a document leaves out are
absent here too; what they stand for is decided when the file is compiled.
-/

namespace VirtualPad

structure GeneralTable where
  users : Option Nat := none
  keyRepeatDelayMs : Option Nat := none
  keyRepeatIntervalMs : Option Nat := none
  motionIntervalMs : Option Nat := none
  rotateIntervalMs : Option Nat := none
  mouseSpeed : Option Float := none
  wheelSpeed : Option Float := none
  defaultRate : Option Float := none

structure PadTable where
  stickShape : Option StickShape := none
  connected : Option Bool := none

structure CustomTable where
  vars : List String := []
  keys : List String := []

structure MappingTable where
  source : String
  target : String
  strength : Option Float := none
  rate : Option Float := none
  options : List String := []
  condition : Option String := none
  payload : Option String := none

structure ConfigFile where
  general : GeneralTable := {}
  pads : List PadTable := []
  custom : CustomTable := {}
  mappings : List MappingTable := []

def GeneralTable.ofValue? (format : Format) (v : Value) : Option GeneralTable := do
  let r ← Record.ofValue? format ["users", "key_repeat_delay_ms", "key_repeat_interval_ms",
    "motion_interval_ms", "rotate_interval_ms", "mouse_speed", "wheel_speed", "default_rate"] v
  return {
    users := ← r.optional "users" Value.natural?
    keyRepeatDelayMs := ← r.optional "key_repeat_delay_ms" Value.natural?
    keyRepeatIntervalMs := ← r.optional "key_repeat_interval_ms" Value.natural?
    motionIntervalMs := ← r.optional "motion_interval_ms" Value.natural?
    rotateIntervalMs := ← r.optional "rotate_interval_ms" Value.natural?
    mouseSpeed := ← r.optional "mouse_speed" Value.number?
    wheelSpeed := ← r.optional "wheel_speed" Value.number?
    defaultRate := ← r.optional "default_rate" Value.number? }

/-- Reads the name of a stick shape. -/
def StickShape.ofValue? (format : Format) (v : Value) : Option StickShape :=
  v.choice? format fun name => StickShape.all.find? fun shape => shape.text == name

def PadTable.ofValue? (format : Format) (v : Value) : Option PadTable := do
  let r ← Record.ofValue? format ["stick_shape", "connected"] v
  return {
    stickShape := ← r.optional "stick_shape" (StickShape.ofValue? format)
    connected := ← r.optional "connected" Value.truth? }

def CustomTable.ofValue? (format : Format) (v : Value) : Option CustomTable := do
  let r ← Record.ofValue? format ["vars", "keys"] v
  return {
    vars := ← r.orElse "vars" Value.texts? []
    keys := ← r.orElse "keys" Value.texts? [] }

def MappingTable.ofValue? (format : Format) (v : Value) : Option MappingTable := do
  let r ← Record.ofValue? format
    ["source", "target", "strength", "rate", "options", "when", "payload"] v
  return {
    source := ← r.required "source" Value.text?
    target := ← r.required "target" Value.text?
    strength := ← r.optional "strength" Value.number?
    rate := ← r.optional "rate" Value.number?
    options := ← r.orElse "options" Value.texts? []
    condition := ← r.optional "when" Value.text?
    payload := ← r.optional "payload" Value.text? }

def ConfigFile.ofValue? (format : Format) (v : Value) : Option ConfigFile := do
  let r ← Record.ofValue? format ["general", "pad", "custom", "mapping"] v
  return {
    general := ← r.orElse "general" (GeneralTable.ofValue? format) {}
    pads := ← r.orElse "pad" (Value.list? (PadTable.ofValue? format)) []
    custom := ← r.orElse "custom" (CustomTable.ofValue? format) {}
    mappings := ← r.orElse "mapping" (Value.list? (MappingTable.ofValue? format)) [] }

end VirtualPad
