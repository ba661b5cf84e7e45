import VirtualPad.Engine.Install
import VirtualPad.Engine.Tick

/-!
# The engine

The engine takes what the host captures and what the clock announces, one at a time.  Each of them
is one turn, and the requests made in it are carried out right after.  The answer to captured input
says whether to keep the event from the system.
-/

namespace VirtualPad
namespace Engine

def ofConfig (config : Config) : Engine :=
  ({ pads := PadBank.ofCount config.settings.users } : Engine).install config 0

/-! ## §1 Input -/

/-- Feeds a pulse of a source in a turn of its own. -/
def accept (e : Engine) (source : Control) (pulse : Pulse) (time : Nat) : Engine × Bool :=
  let e := { e with lastTime := time }
  let (t, kept) := Turn.feed (cascadeRoom + 1) { engine := e, time } source pulse
  (t.commit.drainQueue time, kept)

/-- A source is pressed or released.  Users beyond the limit are ignored, and a strength that is no
finite number counts as full. -/
def processInput (e : Engine) (source : Control) (user : Nat) (down : Bool) (strength : Float)
    (time : Nat) : Engine × Bool :=
  if h : user < userLimit then
    let strength := if strength.isFinite then Scalar.clamp strength 0 1 else 1
    e.accept source { user := ⟨user, h⟩, down, strength } time
  else (e, false)

/-- A source moves by an amount.  No motion at all ends a hold. -/
def processRelative (e : Engine) (source : Control) (user : Nat) (magnitude : Float)
    (time : Nat) : Engine × Bool :=
  if h : user < userLimit then
    if magnitude.isFinite then
      e.accept source { user := ⟨user, h⟩, down := magnitude != 0, strength := magnitude.abs } time
    else (e, false)
  else (e, false)

/-- A timer goes off.  Timers that are not running any more are ignored. -/
def onTimer (e : Engine) (token : TimerToken) (time : Nat) : Engine :=
  match e.timerUse? token with
  | none => e
  | some use =>
    ({ e with lastTime := time }.inTurn time fun t => t.tick use).drainQueue time

/-! ## §2 Time -/

/-- Lets timers that are due not later than `limit` go off as long as there are any; the number
bounds how many. -/
def runDue (limit : Nanoseconds) : Nat → Engine → Engine
  | 0, e => e
  | bound + 1, e =>
    match e.clock.nextDue? limit with
    | none => e
    | some (token, due, clock) =>
      runDue limit bound ({ e with clock }.onTimer token (due.toMillis % twoTo 64))

/-- How many timers can go off up to a time at most.  Each binding has one timer, and a timer that
no binding knows any more goes off once.  A timer that goes off again does so a millisecond later
at the earliest, except when the tick of another one starts it anew; only blinking does that, and
each blink can start every binding once. -/
def tickBound (e : Engine) (limit : Nanoseconds) : Nat :=
  let millis := (limit - e.clock.now) / Nanoseconds.perMilli + 2
  let once := (e.bindings.size + e.clock.timers.length) * millis + 1
  once * once

/-- Lets every timer go off that is due by a time, given in milliseconds, and moves the clock
there. -/
def runUntil (e : Engine) (ms : Nat) : Engine :=
  let limit := Nanoseconds.ofMillis ms
  let e := runDue limit (e.tickBound limit) e
  { e with clock := e.clock.advanceTo limit }

/-! ## §3 Releasing and reloading -/

def releaseAll (e : Engine) (time : Nat) : Engine :=
  (e.forceReleaseAll time).drainQueue time

/-- Puts another configuration in place.  Whatever is held under the old one is released first. -/
def reload (e : Engine) (config : Config) : Engine :=
  let time := e.lastTime
  let e := (e.forceReleaseAll time).drainQueue time
  let e := e.timers.foldl (fun e t => e.ask (.cancel t.token)) e
  (e.install config time).drainQueue time

/-! ## §4 Questions -/

def snapshot? (e : Engine) (user : Nat) : Option Snapshot := e.pads.snapshot? user

def snapshots (e : Engine) : List Snapshot :=
  (List.range e.userCount).filterMap e.snapshot?

/-- A direction of a stick is held out, by a strength or by the rotator alone. -/
def directionDown (s : Stick) (axis : Axis) (side : Side) : Bool :=
  let shown := s.shown axis
  let toward := match side with
    | .negative => decide (shown < 0)
    | .positive => decide (0 < shown)
  StrengthCell.pressed ((s.axis axis).side side) || (s.coasting && toward)

/-- A cell of a pad is in use. -/
def cellDown (p : Pad) : PadCell → Bool
  | .button index => ButtonCell.pressed (p.button index)
  | .trigger index => (p.trigger index).pressed
  | .direction stick axis side => directionDown (p.stick stick) axis side
  | _ => false

/-- A control is down as the engine sees it: as a source, as an output, or as a part of a pad. -/
def isKeyDown (e : Engine) (c : Control) (user : Nat) : Bool :=
  let d := e.descriptor c
  let user := if d.flags.ofUser then user else 0
  match e.board.isDown? c user, e.outputs[c]? with
  | some down, _ => down
  | none, some cell => ButtonCell.pressed cell
  | none, none =>
    if h : user < userLimit then
      if user < e.userCount then
        match d.padCell? with
        | some cell => cellDown (e.pads.pad ⟨user, h⟩) cell
        | none => false
      else false
    else false

/-- A source has been pressed an odd number of times. -/
def isToggled (e : Engine) (c : Control) (user : Nat) : Bool :=
  let user := if (e.descriptor c).flags.ofUser then user else 0
  (e.board.isToggled? c user).getD false

end Engine
end VirtualPad
