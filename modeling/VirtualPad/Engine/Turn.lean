import VirtualPad.Engine.State

/-!
# Turns

Everything that one event or one tick leads to happens in one turn.  A turn changes the state of the
engine as it goes, but what others can see of it is gathered and only comes out when the turn is
committed: first one snapshot of each pad that changed, then the effects on the host, then the
motion, and last the requests, which join the queue.

So nobody sees a pad in the middle of a turn, and a pad's version grows by at most one in a turn.
-/

namespace VirtualPad

/-- The engine in the middle of an event. -/
structure Turn where
  engine : Engine
  /-- The time of the event in milliseconds. -/
  time : Nat
  /-- The users whose pads have changed, in the order of their first change. -/
  changed : List User := []
  /-- What the host is going to be told, in order. -/
  effects : Array HostEvent := #[]
  pointer : Motion Float := Motion.none
  wheel : Motion Float := Motion.none
  /-- The pointer or the wheel was told to move, if only by nothing. -/
  moved : Bool := false
  /-- The requests made in this turn, in order. -/
  requests : List Request := []

namespace Turn

def mapEngine (t : Turn) (change : Engine → Engine) : Turn :=
  { t with engine := change t.engine }

def mapLatch (t : Turn) (id : Nat) (change : Latch → Latch) : Turn :=
  t.mapEngine fun e => e.mapLatch id change

/-- Notes that a pad has changed. -/
def noteChange (t : Turn) (user : User) : Turn :=
  if t.changed.contains user then t else { t with changed := t.changed ++ [user] }

/-- Writes to a user's pad and notes whether the change can be seen. -/
def updatePad (t : Turn) (user : User) (change : Pad → Pad × Bool) : Turn :=
  let (pad, seen) := change (t.engine.pads.pad user)
  let t := t.mapEngine fun e => { e with pads := e.pads.set user pad }
  if seen then t.noteChange user else t

/-- Writes the same to the pads of several users. -/
def updatePads (t : Turn) (users : List User) (change : Pad → Pad × Bool) : Turn :=
  users.foldl (fun t user => t.updatePad user change) t

/-- The host is going to be told. -/
def tell (t : Turn) (event : HostEvent) : Turn :=
  { t with effects := t.effects.push event }

def movePointer (t : Turn) (m : Motion Float) : Turn :=
  { t with pointer := t.pointer.plus m, moved := true }

def turnWheel (t : Turn) (m : Motion Float) : Turn :=
  { t with wheel := t.wheel.plus m, moved := true }

def request (t : Turn) (r : Request) : Turn :=
  { t with requests := t.requests ++ [r] }

def commitPad (time : Nat) (e : Engine) (user : User) : Engine :=
  let pad := (e.pads.pad user).commit time
  { e with
    pads := e.pads.set user pad
    journal := { e.journal with snapshots := e.journal.snapshots.push (pad.snapshot user) } }

def tellHost (e : Engine) (events : Array HostEvent) : Engine :=
  { e with journal := { e.journal with events := e.journal.events ++ events } }

/-- Ends the turn: what it gathered becomes visible. -/
def commit (t : Turn) : Engine :=
  let e := t.changed.foldl (commitPad t.time) t.engine
  let e := tellHost e t.effects
  let e :=
    if t.moved then
      let (remainder, events) := e.remainder.flush t.pointer t.wheel
      tellHost { e with remainder } events.toArray
    else e
  { e with queue := e.queue ++ t.requests }

end Turn

/-- A turn of its own for something that happens at a time. -/
def Engine.inTurn (e : Engine) (time : Nat) (run : Turn → Turn) : Engine :=
  (run { engine := e, time }).commit

end VirtualPad
