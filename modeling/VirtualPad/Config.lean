import VirtualPad.Config.Diagnostic
import VirtualPad.Mapping

/-!
# Configurations

A configuration is all that the engine needs to run, together with the diagnostics about what it was
made from.
-/

namespace VirtualPad

structure Config where
  settings : Settings := {}
  pads : List PadSettings
  vocabulary : Vocabulary := {}
  mappings : List Mapping := []
  diagnostics : List Diagnostic := []
  deriving Inhabited

namespace Config

/-- The configuration of these settings and mappings, with a standard pad for every user. -/
def ofMappings (settings : Settings) (mappings : List Mapping) : Config :=
  { settings, pads := List.replicate settings.users {}, mappings }

/-- The configuration that maps nothing. -/
def standard : Config := ofMappings {} []

/-- Something was replaced, repaired or left out. -/
def hadError (c : Config) : Bool := !c.diagnostics.isEmpty

def padOf (c : Config) (user : Nat) : PadSettings := c.pads.getD user {}

/-- No mapping writes to the pad of a user beyond the limit. -/
def fits (c : Config) : Bool :=
  c.mappings.all fun m => match m.targetUser with
    | .index user => decide (user < userLimit) || !(c.vocabulary.descriptor m.target).isPadCell
    | _ => true

end Config

end VirtualPad
