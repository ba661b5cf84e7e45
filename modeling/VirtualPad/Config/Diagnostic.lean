import VirtualPad.Condition.Expression
import VirtualPad.Settings

/-!
# Diagnostics

What can be wrong with a configuration that could be read.  Nothing of it is fatal: a bad setting is
replaced, a bad mapping is left out or repaired, and a `Diagnostic` says so.  Mappings are counted
from one.
-/

namespace VirtualPad

/-- Why an option of a mapping was not taken as it stands. -/
inductive OptionProblem where
  | unknown (name : String)
  /-- Only a trigger or a stick can build up. -/
  | addNeedsStrength (target : String)
  /-- Motion does not blink. -/
  | turboOnMotion
  | unusedPayload

def OptionProblem.message : OptionProblem → String
  | .unknown name =>
    "unknown option '" ++ name ++ "' (expected one of forward, replace, toggle, turbo, add, reset)"
  | .addNeedsStrength target =>
    "'add' needs a trigger or stick destination, not '" ++ target ++ "'"
  | .turboOnMotion => "'turbo' has no effect on relative destinations"
  | .unusedPayload => "payload is only used by LoadConfig"

/-- Why a mapping was left out. -/
inductive MappingProblem where
  | badReference (text : String) (error : ExpressionError)
  | notASource (text : String)
  | notADestination (text : String)
  | missingPayload
  /-- Only one user can be the active one. -/
  | everyoneActive

def MappingProblem.message : MappingProblem → String
  | .badReference text error => "'" ++ text ++ "': " ++ error.message
  | .notASource text => "'" ++ text ++ "' cannot be used as a source"
  | .notADestination text => "'" ++ text ++ "' cannot be used as a destination"
  | .missingPayload => "LoadConfig needs a payload"
  | .everyoneActive => "the active user cannot be @all"

/-- A number of a mapping that can be out of range. -/
inductive NumberField where
  | strength
  | rate
  deriving DecidableEq, Repr

def NumberField.text : NumberField → String
  | .strength => "strength"
  | .rate => "rate"

/-- Something in a configuration that was replaced, repaired or left out. -/
inductive Diagnostic where
  | unknownControl (index : Nat) (name : String)
  | badCondition (index : Nat) (error : ExpressionError)
  | userOutOfRange (index user users : Nat)
  | badOption (index : Nat) (problem : OptionProblem)
  | badMapping (index : Nat) (problem : MappingProblem)
  | invalidValue (index : Nat) (field : NumberField) (value fallback : Float)
  | custom (error : VocabularyError)
  | settings (error : SettingsError)
  | extraPads (count users : Nat)

namespace Diagnostic

/-- A message about one mapping. -/
def about (index : Nat) (message : String) : String :=
  "mapping #" ++ Nat.repr index ++ ": " ++ message

def message : Diagnostic → String
  | .unknownControl index name => about index ("unknown control '" ++ name ++ "'")
  | .badCondition index error => about index ("bad condition: " ++ error.message)
  | .userOutOfRange index user users =>
    about index ("user " ++ Nat.repr user ++ " is out of range (1..=" ++ Nat.repr users ++ ")")
  | .badOption index problem => about index problem.message
  | .badMapping index problem => about index problem.message
  | .invalidValue index field value fallback =>
    about index ("invalid " ++ field.text ++ " " ++ plainText value ++ ", using " ++
      plainText fallback)
  | .custom error => "custom control: " ++ error.message
  | .settings error => "[general]: " ++ error.message
  | .extraPads count users =>
    Nat.repr count ++ " [[pad]] tables for " ++ Nat.repr users ++ " users, ignoring the rest"

def index? : Diagnostic → Option Nat
  | .unknownControl index _ | .badCondition index _ | .userOutOfRange index _ _
  | .badOption index _ | .badMapping index _ | .invalidValue index _ _ _ => some index
  | .custom _ | .settings _ | .extraPads _ _ => none

end Diagnostic

end VirtualPad
