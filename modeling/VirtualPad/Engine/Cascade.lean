import VirtualPad.Engine.Turn

/-!
# Cascades

A source moves; its mappings run in the order of declaration; the pairs it is a part of may move
with it; and mappings whose conditions have stopped holding are released.  A mapping may drive a
variable, which is a source again, so all of this nests.  `feed` bounds the nesting: with no room
left it does nothing.

A mapping that runs at some depth reaches the sources below it through the argument `onVar`, so that
`runBinding` is an ordinary definition, and `feed` is the only recursive one.  Writing to a target
only answers the pulse of a variable that changes with it; `runBinding` passes the pulse on.
-/

namespace VirtualPad

/-- How deep variables and pairs may feed others below the source of an event. -/
def cascadeRoom : Nat := 8

/-- Something that hears of a pulse of a control, and answers whether to keep the event from the
system. -/
abbrev Listener := Turn → Control → Pulse → Turn × Bool

namespace Turn

/-! ## §1 Writing a target -/

/-- The unit motion of a cell at a strength. -/
def motionOf (dx dy : Int) (amount : Float) : Motion Float :=
  ⟨Float.ofInt dx * amount, Float.ofInt dy * amount⟩

/-- Writes a contribution to an output, and answers the pulse of a variable that changes with it.  A
key is sent again on every press, the others only when they change. -/
def writeOutput (t : Turn) (kind : OutputKind) (target : Control) (slot : Slot)
    (down replaces : Bool) : Turn × Option Pulse :=
  match t.engine.outputs[target]? with
  | none => (t, none)
  | some before =>
    let after := ButtonCell.set before slot down replaces
    let changed := ButtonCell.differs before after
    let pressed := ButtonCell.pressed after
    let t := t.mapEngine fun e => { e with outputs := e.outputs.insert target after }
    match kind with
    | .keyboard => (if changed || (down && pressed) then t.tell (.key target pressed) else t, none)
    | .mouseButton => (if changed then t.tell (.mouseButton target pressed) else t, none)
    | .customKey => (if changed then t.tell (.custom target pressed) else t, none)
    | .var =>
      (t, if changed then some { user := User.first, down := pressed, strength := 1 } else none)

/-- Writes the contribution of a binding to its target, and answers the pulse of a variable that
changes with it.  Rotators move with their timers and keep their angle on release, so nothing is
written to them here. -/
def writeTarget (t : Turn) (id : Nat) (source target : Descriptor) (down : Bool)
    (strength : Float) : Turn × Option Pulse :=
  match t.engine.bindings[id]? with
  | none => (t, none)
  | some b =>
    let moves := down && source.flags.relative
    match target.cell, b.slot with
    | .motion dx dy, _ => (if moves then t.movePointer (motionOf dx dy strength) else t, none)
    | .wheel dx dy, _ => (if moves then t.turnWheel (motionOf dx dy strength) else t, none)
    | .pad cell, some slot =>
      let contribution : Pad.Contribution :=
        { down, strength, replaces := b.mapping.options.replace, adds := b.mapping.options.add }
      (t.updatePads b.latch.applied fun pad => pad.write cell slot contribution, none)
    | .output kind, some slot =>
      t.writeOutput kind b.mapping.target slot down b.mapping.options.replace
    | _, _ => (t, none)

/-- A variable that has changed moves as a source. -/
def relay (onVar : Listener) (target : Control) (t : Turn) : Option Pulse → Turn
  | none => t
  | some pulse => (onVar t target pulse).1

/-! ## §2 Commands -/

/-- Makes the requests of a command mapping.  A command is given on release, except that holding the
active user is given on both edges.  A forced release ends holds and gives no other command. -/
def giveCommand (t : Turn) (id : Nat) (command : Command) (r : Response) (forced : Bool) : Turn :=
  match t.engine.bindings[id]? with
  | none => t
  | some b =>
    let rising := r.now && !r.was
    let falling := r.was && !r.now
    let holds := command == .holdActiveUser
    let fires := if forced then falling && holds else falling || (rising && holds)
    if fires then
      let users :=
        if falling && !b.latch.applied.isEmpty then b.latch.applied
        else t.engine.targetUsers b.mapping.targetUser
      users.foldl (fun t user => t.request
        { command, user, pressed := rising, payload := b.mapping.payload, mapping := id }) t
    else t

/-! ## §3 Running a binding -/

/-- A binding comes into effect: it settles on its users and, with the reset option, clears what was
built up in their cells. -/
def rise (t : Turn) (id : Nat) (m : Mapping) (target : Descriptor) (user : User) : Turn :=
  let users := t.engine.targetUsers m.targetUser
  let t := t.mapLatch id fun l => { l with sourceUser := user, applied := users }
  match target.padCell? with
  | some cell => if m.options.reset then t.updatePads users fun pad => pad.resetAdds cell else t
  | none => t

/-- Does what a response asks for at once: a binding that comes into effect settles on its users, and
its command is given or its target is written.  Answers the pulse of a variable that changes. -/
def perform (t : Turn) (id : Nat) (m : Mapping) (source target : Descriptor) (user : User)
    (r : Response) (forced : Bool) : Turn × Option Pulse :=
  let t := if r.now && !r.was then t.rise id m target user else t
  match target.cell with
  | .command command => (t.giveCommand id command r forced, none)
  | _ =>
    if r.emits then
      let t := if r.now then t.mapLatch id fun l => { l with strength := r.strength } else t
      let lit := (t.engine.latch id).lit
      t.writeTarget id source target (r.now && (!m.options.turbo || lit)) r.strength
    else (t, none)

/-- Does what is left to do after a response: the timer follows, and a binding that has ended lets go
of its users. -/
def settle (t : Turn) (id : Nat) (m : Mapping) (source target : Descriptor) (r : Response) :
    Turn :=
  let plan := m.timerPlan source target t.engine.settings r.was r.now
  let t := t.mapEngine fun e => e.followPlan id plan
  if r.now then t else t.mapLatch id fun l => { l with applied := [] }

/-- Carries a response out, if there is one: the target is written, a variable that changes with it
moves as a source, and then the rest is done. -/
def carryOut (onVar : Listener) (t : Turn) (id : Nat) (m : Mapping) (source target : Descriptor)
    (user : User) (forced : Bool) : Option Response → Turn
  | none => t
  | some r =>
    let (t, echo) := t.perform id m source target user r forced
    (relay onVar m.target t echo).settle id m source target r

/-- The binding takes part in a pulse of its source. -/
def accepts (t : Turn) (b : Binding) (source target : Descriptor) (pulse : Pulse) : Bool :=
  !(t.engine.disabled && target.cell != .command .toggleDisable) &&
    (!source.flags.ofUser || b.mapping.sourceUser.covers pulse.user t.engine.activeUser) &&
    !(target.needsSlot && b.slot.isNone) &&
    (if pulse.down then b.mapping.allows t.engine.board t.engine.activeUser
      else b.latch.isLatched)

/-- Runs a binding for a pulse of its source and answers whether to keep the event from the system.
A forced release is run whatever the state of the engine, and keeps nothing from the system. -/
def runBinding (onVar : Listener) (t : Turn) (id : Nat) (pulse : Pulse) (forced : Bool) :
    Turn × Bool :=
  match t.engine.bindings[id]? with
  | none => (t, false)
  | some b =>
    let source := t.engine.descriptor b.mapping.source
    let target := t.engine.descriptor b.mapping.target
    if !forced && !t.accepts b source target pulse then (t, false)
    else
      let (latch, response) :=
        b.latch.respond b.mapping source target pulse.down pulse.strength forced
      ((t.mapLatch id fun _ => latch).carryOut onVar id b.mapping source target pulse.user forced
        response, !forced && !b.mapping.options.forward)

/-- Releases a binding by force. -/
def release (onVar : Listener) (t : Turn) (id : Nat) : Turn :=
  let user := (t.engine.latch id).sourceUser
  (t.runBinding onVar id { user, down := false, strength := 0 } true).1

/-- Releases a binding that holds something although its conditions have stopped holding. -/
def review (onVar : Listener) (t : Turn) (id : Nat) : Turn :=
  match t.engine.bindings[id]? with
  | none => t
  | some b =>
    if b.latch.isLatched && !b.mapping.allows t.engine.board t.engine.activeUser then
      t.release onVar id
    else t

/-! ## §4 Sources -/

/-- The state a pair should have for a user, if the control is a pair. -/
def pairState? (t : Turn) (pair : Control) (user : User) : Option Bool :=
  let d := t.engine.descriptor pair
  d.pair.map fun (a, b) =>
    let first := t.engine.board.isDown a user
    let second := t.engine.board.isDown b user
    if d.flags.andPair then first && second else first || second

/-- Moves a pair whose state does not go with its components any more. -/
def followPair (onPair : Listener) (pulse : Pulse) (t : Turn) (pair : Control) : Turn × Bool :=
  match t.pairState? pair pulse.user with
  | none => (t, false)
  | some down =>
    if down != t.engine.board.isDown pair pulse.user then onPair t pair { pulse with down }
    else (t, false)

/-- Does one thing after another and answers whether any of them said yes. -/
def sweep {α : Type} (run : Turn → α → Turn × Bool) (t : Turn) (items : List α) : Turn × Bool :=
  items.foldl (fun (t, any) item =>
    let (t, this) := run t item
    (t, any || this)) (t, false)

/-- The user under whom a control keeps its state.  Controls without users keep it under the first
one. -/
def stateUser (t : Turn) (c : Control) (user : User) : User :=
  if (t.engine.descriptor c).flags.ofUser then user else User.first

/-- A control goes down or up on the board. -/
def mark (t : Turn) (c : Control) (user : User) (down : Bool) : Turn :=
  t.mapEngine fun e => { e with board := e.board.set c user down }

/-- A source moves.  The first number bounds how deep the cascade may go. -/
def feed : Nat → Listener
  | 0, t, _, _ => (t, false)
  | room + 1, t, source, pulse =>
    let pulse := { pulse with user := t.stateUser source pulse.user }
    match t.engine.board.line? source with
    | none => (t, false)
    | some line =>
      let t := t.mark source pulse.user pulse.down
      let (t, kept) := sweep (fun t id => t.runBinding (feed room) id pulse false) t line.chain
      let (t, keptByPair) := sweep (followPair (feed room) pulse) t line.pairs
      let t :=
        if line.moves pulse.user pulse.down then line.watchers.foldl (review (feed room)) t else t
      (t, kept || keptByPair)

/-- Hears of the pulses of variables while a binding runs outside of any cascade. -/
def listen : Listener := feed cascadeRoom

end Turn

end VirtualPad
