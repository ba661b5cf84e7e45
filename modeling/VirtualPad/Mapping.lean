import VirtualPad.Condition
import VirtualPad.Number.Text
import VirtualPad.Settings

/-!
# Mappings

A mapping drives one control from another.  It says which users it is about, how strong and how
fast it acts, what its options are and under which conditions it works.
-/

namespace VirtualPad

/-- A way a mapping can differ from a plain one. -/
inductive MappingOption where
  /-- The event also goes on to the system. -/
  | forward
  /-- While held, only replacing contributions to the same cell count. -/
  | replace
  /-- Presses switch the output on and off. -/
  | toggle
  /-- The output blinks while held. -/
  | turbo
  /-- The output builds up over time. -/
  | add
  /-- A press takes away what was built up by adding. -/
  | reset
  deriving DecidableEq, Repr

namespace MappingOption

def all : List MappingOption := [.forward, .replace, .toggle, .turbo, .add, .reset]

def text : MappingOption → String
  | .forward => "forward"
  | .replace => "replace"
  | .toggle => "toggle"
  | .turbo => "turbo"
  | .add => "add"
  | .reset => "reset"

/-- The option of that name, in any letter case. -/
def named? (name : String) : Option MappingOption :=
  all.find? fun option => option.text == foldCase name

end MappingOption

structure MappingOptions where
  forward : Bool := false
  replace : Bool := false
  toggle : Bool := false
  turbo : Bool := false
  add : Bool := false
  reset : Bool := false
  deriving DecidableEq, Repr

namespace MappingOptions

def has (o : MappingOptions) : MappingOption → Bool
  | .forward => o.forward
  | .replace => o.replace
  | .toggle => o.toggle
  | .turbo => o.turbo
  | .add => o.add
  | .reset => o.reset

/-- The options with one more. -/
def insert (o : MappingOptions) : MappingOption → MappingOptions
  | .forward => { o with forward := true }
  | .replace => { o with replace := true }
  | .toggle => { o with toggle := true }
  | .turbo => { o with turbo := true }
  | .add => { o with add := true }
  | .reset => { o with reset := true }

/-- The options that are on, in listing order. -/
def toList (o : MappingOptions) : List MappingOption :=
  MappingOption.all.filter o.has

end MappingOptions

/-- A rule that drives `target` from `source`. -/
structure Mapping where
  source : Control
  sourceUser : UserRef := .index 0
  target : Control
  targetUser : UserRef := .active
  /-- The factor on the strength of the source. -/
  strength : Float := 1
  /-- Seconds: the time of a blink, of a hold after motion, of building up or of a full turn. -/
  rate : Float := 1
  options : MappingOptions := {}
  /-- All of them have to hold. -/
  conditions : List Condition := []
  /-- The name of the configuration to load. -/
  payload : Option String := none
  deriving Inhabited

namespace Mapping

/-- All conditions of the mapping hold. -/
def allows (m : Mapping) (board : Switchboard) (active : Nat) : Bool :=
  Condition.allHold board active m.conditions

/-- The mapping can be written in one line. -/
def hasText (m : Mapping) : Bool := m.sourceUser.hasText && m.targetUser.hasText

def text (m : Mapping) : String :=
  m.source.text ++ "@" ++ m.sourceUser.text ++ " -> " ++ m.target.text ++ "@" ++
    m.targetUser.text ++ " (x" ++ plainText m.strength ++ ")"

end Mapping

end VirtualPad
