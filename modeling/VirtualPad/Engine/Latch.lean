import VirtualPad.Clock
import VirtualPad.Mapping
import VirtualPad.Slots

/-!
# Latches

Every mapping has a latch: what it remembers between events.  `Latch.respond` says what a press or
a release of the source does to the latch and to the output, and `timerPlan` says which timer runs
afterwards.  Both look at one mapping alone; carrying out what they decide is the engine's work.
-/

namespace VirtualPad

/-- Why the timer of a mapping runs. -/
inductive TimerKind where
  /-- The output blinks. -/
  | turbo
  /-- A hold that motion has started comes to its end. -/
  | release
  /-- Motion or adding up goes on. -/
  | repeating
  /-- A rotator moves on. -/
  | rotate
  /-- A held key begins to repeat. -/
  | keyRepeatDelay
  /-- A held key repeats. -/
  | keyRepeat
  deriving DecidableEq, Repr

def TimerKind.text : TimerKind → String
  | .turbo => "Turbo"
  | .release => "Release"
  | .repeating => "Repeat"
  | .rotate => "Rotate"
  | .keyRepeatDelay => "KeyRepeatDelay"
  | .keyRepeat => "KeyRepeat"

/-- What a mapping remembers. -/
structure Latch where
  /-- The last state of the source. -/
  rawDown : Bool := false
  /-- The mapping is in effect. -/
  active : Bool := false
  /-- The state that presses switch, with the toggle option. -/
  toggled : Bool := false
  /-- The phase of blinking, with the turbo option. -/
  lit : Bool := false
  /-- The strength last written to the target. -/
  strength : Float := 0
  /-- The user whose event put the mapping into effect. -/
  sourceUser : User := User.first
  /-- The users whose pads the mapping is written to. -/
  applied : List User := []
  timer : Option (TimerToken × TimerKind) := none
  /-- The active user to go back to when a hold of the active user ends. -/
  restoreUser : Option User := none
  deriving Inhabited

/-- The latch holds something that a forced release has to undo. -/
def Latch.isLatched (l : Latch) : Bool := l.active || l.rawDown || l.timer.isSome

/-- A press or release of a source. -/
structure Pulse where
  user : User
  down : Bool
  strength : Float

/-- What a pulse makes of a mapping. -/
structure Response where
  /-- The mapping was in effect before. -/
  was : Bool
  /-- The mapping is in effect from now on. -/
  now : Bool
  /-- The target is to be written. -/
  emits : Bool
  /-- The strength to write. -/
  strength : Float

/-- Nothing new to tell the target, and the target is one that needs to be told only news. -/
def Mapping.isSettled (m : Mapping) (source target : Descriptor) (forced was now : Bool) : Bool :=
  now == was &&
    ((!target.flags.repeatable && source.flags.repeatable) || m.options.toggle ||
      m.options.turbo || m.options.reset || forced)

/-- The state that presses switch, after a pulse.  Only the beginning of a press switches it. -/
def Latch.switched (l : Latch) (m : Mapping) (down forced : Bool) : Bool :=
  if !m.options.toggle then l.toggled
  else if forced then false
  else if down && !l.rawDown then !l.toggled
  else l.toggled

/-- The mapping is to be in effect after a pulse. -/
def Latch.wanted (l : Latch) (m : Mapping) (down forced : Bool) : Bool :=
  if m.options.toggle then l.switched m down forced else down && !forced

/-- The latch after a pulse, and what is to be done about it.  There is no response when the pulse
is swallowed.  A forced release puts the latch back whatever the source does. -/
def Latch.respond (l : Latch) (m : Mapping) (source target : Descriptor) (down : Bool)
    (strength : Float) (forced : Bool) : Latch × Option Response :=
  if target.flags.relative && !down then
    ({ l with rawDown := false, active := false },
      some { was := l.active, now := false, emits := false, strength := 0 })
  else if m.options.add && !down && !m.conditions.isEmpty && !forced then
    -- What was built up under conditions stays until they fail.
    ({ l with rawDown := false }, none)
  else
    let now := l.wanted m down forced
    let after := { l with rawDown := down && !forced, toggled := l.switched m down forced }
    if m.isSettled source target forced l.active now then (after, none)
    else
      let emits := !m.options.turbo || now || l.lit
      let lit := if m.options.turbo then now else l.lit
      ({ after with lit, active := now },
        some { was := l.active, now, emits, strength := if now then strength * m.strength else 0 })

/-- What becomes of the timer of a mapping. -/
inductive TimerPlan where
  | keep
  | stop
  | once (delay : Nanoseconds) (kind : TimerKind)
  | repeating (period : Nanoseconds) (kind : TimerKind)
  deriving DecidableEq, Repr

/-- The timer of a mapping after it came into effect, stayed in effect or ended. -/
def Mapping.timerPlan (m : Mapping) (source target : Descriptor) (settings : Settings)
    (was now : Bool) : TimerPlan :=
  let whenRising (plan : TimerPlan) : TimerPlan := if was then .keep else plan
  let turns := match target.cell with
    | .rotator _ _ => true
    | _ => false
  if !now then .stop
  else if m.options.turbo then whenRising (.repeating (Nanoseconds.ofRate m.rate) .turbo)
  else if turns then whenRising (.repeating settings.rotateInterval .rotate)
  else if source.flags.relative && !target.flags.relative then
    -- Every motion extends the hold.
    .once (Nanoseconds.ofRate m.rate) .release
  else if !source.flags.relative && (target.flags.relative || m.options.add) then
    whenRising (.repeating settings.motionInterval .repeating)
  else if (!source.flags.repeatable || m.options.toggle) && target.flags.repeatable then
    whenRising (.once settings.keyRepeatDelay .keyRepeatDelay)
  else .keep

end VirtualPad
