import VirtualPad.Config
import VirtualPad.Config.File
import VirtualPad.Config.Verdict

/-!
# Compiling a configuration file

A file is compiled in order: the settings, the pads, the custom controls and then the mappings.
Names are looked up, users and numbers are checked against their ranges, options that make no sense
for a target are taken off, and conditions are read.  Compiling never fails.  What cannot be used is
left out or replaced, with a diagnostic for each time.
-/

namespace VirtualPad

/-! ## §1 Settings and pads -/

/-- The settings that the table `general` asks for, unchecked. -/
def GeneralTable.settings (g : GeneralTable) : Settings :=
  let s := Settings.standard
  let time (ms : Option Nat) (fallback : Nanoseconds) : Nanoseconds :=
    (ms.map Nanoseconds.ofMillis).getD fallback
  { users := g.users.getD s.users
    keyRepeatDelay := time g.keyRepeatDelayMs s.keyRepeatDelay
    keyRepeatInterval := time g.keyRepeatIntervalMs s.keyRepeatInterval
    motionInterval := time g.motionIntervalMs s.motionInterval
    rotateInterval := time g.rotateIntervalMs s.rotateInterval
    mouseSpeed := g.mouseSpeed.getD s.mouseSpeed
    wheelSpeed := g.wheelSpeed.getD s.wheelSpeed
    defaultRate := g.defaultRate.getD s.defaultRate }

def PadTable.settings (p : PadTable) : PadSettings :=
  let s : PadSettings := {}
  { stickShape := p.stickShape.getD s.stickShape, connected := p.connected.getD s.connected }

/-- The options of every user's pad; users without a table have standard pads. -/
def padsFor (tables : List PadTable) (users : Nat) : List PadSettings :=
  let pads := (tables.take users).map PadTable.settings
  pads ++ List.replicate (users - pads.length) ({} : PadSettings)

/-! ## §2 Custom controls -/

/-- Registers the custom controls of a file, variables first. -/
def CustomTable.register (c : CustomTable) : Vocabulary × List VocabularyError :=
  let names := c.vars.map (·, CustomKind.var) ++ c.keys.map (·, CustomKind.key)
  names.foldl (fun (v, errors) (name, kind) => match v.register name kind with
    | .ok (v, _) => (v, errors)
    | .error e => (v, errors ++ [e])) ({}, [])

/-! ## §3 Mappings -/

namespace MappingTable

/-- The control and the user that one end of a mapping names. -/
def endpoint (v : Vocabulary) (index : Nat) (text : String) : Verdict (Control × Option UserRef) :=
  match v.readRef text with
  | .ok found => pure found
  | .error (.unknownControl name) => .refuse (.unknownControl index name)
  | .error error => .refuse (.badMapping index (.badReference text error))

/-- What is wrong with naming that user. -/
def userDiagnostics (users index : Nat) : UserRef → List Diagnostic
  | .index user => if users ≤ user then [.userOutOfRange index (user + 1) users] else []
  | _ => []

/-- Leaves the mapping out if one of these users does not exist; every one of them is reported. -/
def requireUsers (users index : Nat) (refs : List UserRef) : Verdict Unit :=
  let found := refs.flatMap (userDiagnostics users index)
  ⟨if found.isEmpty then some () else none, found⟩

/-- The options by their names; unknown names are reported. -/
def readOptions (index : Nat) (names : List String) : Verdict MappingOptions :=
  let unknown := names.filter fun name => (MappingOption.named? name).isNone
  let options := names.filterMap MappingOption.named?
  .report (unknown.map fun name => .badOption index (.unknown name))
    (options.foldl MappingOptions.insert {})

/-- The target has a strength that can build up. -/
def buildsUp (target : Descriptor) : Bool :=
  match target.cell with
  | .pad (.trigger _) | .pad (.direction _ _ _) | .pad (.diagonal _ _ _) => true
  | _ => false

/-- The options without those that make no sense for the target. -/
def fitOptions (index : Nat) (targetText : String) (target : Descriptor)
    (options : MappingOptions) : Verdict MappingOptions := do
  let options ←
    if options.add && !buildsUp target then
      .report [.badOption index (.addNeedsStrength targetText)] { options with add := false }
    else pure options
  if options.turbo && target.flags.relative then
    .report [.badOption index .turboOnMotion] { options with turbo := false }
  else pure options

/-- Commands make demands on the payload and on the target user. -/
def checkCommand (index : Nat) (target : Descriptor) (user : UserRef) (payload : Option String) :
    Verdict Unit :=
  let unused : Verdict Unit :=
    if payload.isSome then .report [.badOption index .unusedPayload] () else pure ()
  match target.cell with
  | .command .loadConfig => .require payload.isSome (.badMapping index .missingPayload)
  | .command .setActiveUser | .command .holdActiveUser => do
    .require (user != .everyone) (.badMapping index .everyoneActive)
    unused
  | _ => unused

/-- The condition of a mapping as a list of at most one. -/
def readCondition (v : Vocabulary) (users index : Nat) : Option String → Verdict (List Condition)
  | none => pure []
  | some text =>
    match Condition.parse v text with
    | .error error => .refuse (.badCondition index error)
    | .ok condition => do
      requireUsers users index (condition.tests.map Test.user)
      return [condition]

/-- A number that is finite, at most `limit` and above zero, or zero if that is allowed; otherwise
the fallback, and a number that was refused is reported. -/
def readNumber (index : Nat) (field : NumberField) (value : Option Float)
    (fallback limit : Float) (allowsZero : Bool) : Verdict Float :=
  match value with
  | none => pure fallback
  | some x =>
    if x.isFinite && decide (x ≤ limit) && (decide (0 < x) || (allowsZero && x == 0)) then pure x
    else .report [.invalidValue index field x fallback] fallback

def largest : Float := Float.ofBits 0x7FEFFFFFFFFFFFFF

/-- Compiles one mapping.  Controls without users keep their state under the first user. -/
def compile (settings : Settings) (v : Vocabulary) (index : Nat) (m : MappingTable) :
    Verdict Mapping := do
  let (source, sourceUser) ← endpoint v index m.source
  let (target, targetUser) ← endpoint v index m.target
  let src := v.descriptor source
  let dst := v.descriptor target
  .require src.isSource (.badMapping index (.notASource m.source))
  .require dst.isDestination (.badMapping index (.notADestination m.target))
  let sourceUser := if src.flags.ofUser then sourceUser.getD (.index 0) else .index 0
  let targetUser :=
    if dst.flags.ofUser || dst.isCommand then targetUser.getD .active else .index 0
  requireUsers settings.users index [sourceUser]
  requireUsers settings.users index [targetUser]
  let options ← readOptions index m.options
  let options ← fitOptions index m.target dst options
  checkCommand index dst targetUser m.payload
  let conditions ← readCondition v settings.users index m.condition
  let strength ← readNumber index .strength m.strength 1 largest true
  let rate ← readNumber index .rate m.rate settings.defaultRate maxRate false
  return {
    source, sourceUser, target, targetUser, strength, rate, options, conditions
    payload := m.payload }

end MappingTable

/-! ## §4 The whole file -/

namespace ConfigFile

def compile (f : ConfigFile) : Config :=
  let (settings, settingsErrors) := f.general.settings.sanitize
  let extraPads :=
    if settings.users < f.pads.length then [.extraPads f.pads.length settings.users] else []
  let (vocabulary, customErrors) := f.custom.register
  let verdicts := f.mappings.zipIdx.map fun (m, place) =>
    m.compile settings vocabulary (place + 1)
  { settings
    pads := padsFor f.pads settings.users
    vocabulary
    mappings := verdicts.filterMap Verdict.value
    diagnostics := settingsErrors.map .settings ++ extraPads ++ customErrors.map .custom ++
      verdicts.flatMap Verdict.diagnostics }

end ConfigFile

end VirtualPad
