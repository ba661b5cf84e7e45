import VirtualPad.Engine.Cascade

/-!
# Ticks

What the timer of a binding does when it goes off.  The kinds of timer differ in what goes on
between two ticks: an output blinks, a hold runs out, motion or a strength builds up, a rotator
turns, a key repeats.
-/

namespace VirtualPad

/-- What becomes of a timer that goes off.  A hold is over with its only tick; the delay before a key
repeats gives way to the repeating itself; the other kinds go on. -/
def Engine.lapse (e : Engine) (use : TimerUse) : Engine :=
  match use.kind with
  | .release => e.forgetTimer use.binding use.token
  | .keyRepeatDelay =>
    e.startTimer use.binding .keyRepeat (.repeating e.settings.keyRepeatInterval)
  | .turbo | .repeating | .rotate | .keyRepeat => e

namespace Turn

/-- The output blinks: it takes the other phase.  Commands do not blink.  Answers the pulse of a
variable that changes. -/
def blink (t : Turn) (id : Nat) (source target : Descriptor) : Turn × Option Pulse :=
  let t := t.mapLatch id fun l => { l with lit := !l.lit }
  let l := t.engine.latch id
  if target.isCommand then (t, none)
  else t.writeTarget id source target (l.active && l.lit) l.strength

/-- The hold that motion has started is over: the source counts as released. -/
def endHold (t : Turn) (id : Nat) : Turn :=
  let user := (t.engine.latch id).sourceUser
  (t.runBinding listen id { user, down := false, strength := 0 } false).1

/-- Motion goes on, or a strength builds up further. -/
def goOn (t : Turn) (id : Nat) (target : Descriptor) : Turn :=
  match t.engine.bindings[id]? with
  | none => t
  | some b =>
    let s := t.engine.settings
    let strength := b.latch.strength
    match target.cell, b.slot with
    | .motion dx dy, _ => t.movePointer (motionOf dx dy (strength * s.mouseSpeed))
    | .wheel dx dy, _ => t.turnWheel (motionOf dx dy (strength * s.wheelSpeed))
    | .pad cell, some slot =>
      if b.mapping.options.add then
        let amount := strength * s.motionInterval.toSeconds / b.mapping.rate
        t.updatePads b.latch.applied fun pad =>
          pad.add cell slot amount b.mapping.options.replace
      else t
    | _, _ => t

/-- A rotator moves on.  At a rate of one second it makes a full turn in a second. -/
def turnStick (t : Turn) (id : Nat) (target : Descriptor) : Turn :=
  match t.engine.bindings[id]?, target.cell with
  | some b, .rotator stick clockwise =>
    let way := t.engine.settings.rotateInterval.toSeconds / b.mapping.rate * Rotation.turn
    t.updatePads b.latch.applied fun pad =>
      let speed := ModifierCell.product (pad.stick stick).rotateModifier
      pad.rotate stick (way * speed) clockwise
  | _, _ => t

/-- A held key is sent once more. -/
def repeatKey (t : Turn) (id : Nat) (target : Descriptor) : Turn :=
  match t.engine.bindings[id]? with
  | none => t
  | some b =>
    let key := b.mapping.target
    let held := match t.engine.outputs[key]? with
      | some cell => ButtonCell.pressed cell
      | none => false
    if target.cell == .output .keyboard && held then t.tell (.key key true) else t

def tick (t : Turn) (use : TimerUse) : Turn :=
  let id := use.binding
  match t.engine.bindings[id]? with
  | none => t
  | some b =>
    let source := t.engine.descriptor b.mapping.source
    let target := t.engine.descriptor b.mapping.target
    let t := t.mapEngine fun e => e.lapse use
    match use.kind with
    | .turbo =>
      let (t, echo) := t.blink id source target
      relay listen b.mapping.target t echo
    | .release => t.endHold id
    | .repeating => t.goOn id target
    | .rotate => t.turnStick id target
    | .keyRepeatDelay | .keyRepeat => t.repeatKey id target

end Turn
end VirtualPad
