import VirtualPad.Settings

/-!
# The clock

A clock that only moves when it is told to.  It keeps the timers that have been asked for, at most
one for each token.  Asking for the next due timer takes the earliest one, moves the clock to its
time and, if it repeats, arms it again one period later.  Of timers due at the same time the one
armed first goes first.
-/

namespace VirtualPad

/-- The name of a timer. -/
abbrev TimerToken := Nat

/-- A timer that is armed. -/
structure Timer where
  token : TimerToken
  due : Nanoseconds
  /-- A repeating timer is armed again this much later. -/
  period : Option Nanoseconds
  /-- Its place in the order of arming. -/
  order : Nat
  deriving DecidableEq, Repr

def Timer.before (a b : Timer) : Bool :=
  decide (a.due < b.due) || (a.due == b.due && decide (a.order < b.order))

/-- A clock and its timers. -/
structure Clock where
  now : Nanoseconds := 0
  timers : List Timer := []
  /-- How many timers have been armed so far. -/
  armings : Nat := 0
  deriving Inhabited

namespace Clock

/-- The time in whole milliseconds, as a 64-bit number. -/
def nowMillis (c : Clock) : Nat := c.now.toMillis % twoTo 64

/-- A timer with that token is armed. -/
def isArmed (c : Clock) (token : TimerToken) : Bool :=
  c.timers.any fun t => t.token == token

def cancel (c : Clock) (token : TimerToken) : Clock :=
  { c with timers := c.timers.filter fun t => t.token != token }

/-- Arms a timer; an older one with the same token is dropped. -/
def arm (c : Clock) (token : TimerToken) (due : Nanoseconds) (period : Option Nanoseconds) :
    Clock :=
  let c := c.cancel token
  { c with
    timers := c.timers ++ [{ token, due, period, order := c.armings + 1 }]
    armings := c.armings + 1 }

def once (c : Clock) (delay : Nanoseconds) (token : TimerToken) : Clock :=
  c.arm token (c.now + delay) none

/-- Asks for a tick after every period, the first one period from now.  Later periods last at least
a millisecond. -/
def repeating (c : Clock) (period : Nanoseconds) (token : TimerToken) : Clock :=
  c.arm token (c.now + period) (some (max period Nanoseconds.perMilli))

/-- The timer of a list that goes first. -/
def earliest? : List Timer → Option Timer
  | [] => none
  | t :: rest =>
    match earliest? rest with
    | none => some t
    | some u => if u.before t then some u else some t

/-- The timer that is due next, not later than `limit`. -/
def nextTimer? (c : Clock) (limit : Nanoseconds) : Option Timer :=
  earliest? (c.timers.filter fun t => decide (t.due ≤ limit))

/-- The clock after a timer has gone off: at its time at the earliest, and with the timer armed
again if it repeats. -/
def fire (c : Clock) (t : Timer) : Clock :=
  let c := { c with
    now := max c.now t.due
    timers := c.timers.filter fun u => u.order != t.order }
  match t.period with
  | none => c
  | some period => c.arm t.token (t.due + period) (some period)

/-- Takes the next timer due not later than `limit`: its token, its time and the clock after it. -/
def nextDue? (c : Clock) (limit : Nanoseconds) : Option (TimerToken × Nanoseconds × Clock) :=
  (c.nextTimer? limit).map fun t => (t.token, t.due, c.fire t)

/-- Moves the clock forward without firing anything. -/
def advanceTo (c : Clock) (time : Nanoseconds) : Clock :=
  { c with now := max c.now time }

/-- How often a timer goes off up to a time if nothing else happens. -/
def Timer.firings (t : Timer) (limit : Nanoseconds) : Nat :=
  if t.due ≤ limit then
    match t.period with
    | none => 1
    | some period => 1 + (limit - t.due) / period
  else 0

/-- How often the timers of a clock go off up to a time if nothing else happens. -/
def firings (c : Clock) (limit : Nanoseconds) : Nat :=
  c.timers.foldl (fun n t => n + Timer.firings t limit) 0

/-- Takes timers due not later than `limit` as long as there are any; the number bounds how many. -/
def takeDue (limit : Nanoseconds) : Nat → Clock → List (TimerToken × Nanoseconds) × Clock
  | 0, c => ([], c)
  | bound + 1, c =>
    match c.nextDue? limit with
    | none => ([], c)
    | some (token, due, c) =>
      let (rest, c) := takeDue limit bound c
      ((token, due) :: rest, c)

/-- Takes every timer due not later than `limit`, in order. -/
def drain (c : Clock) (limit : Nanoseconds) : List (TimerToken × Nanoseconds) × Clock :=
  takeDue limit (c.firings limit) c

end Clock

end VirtualPad
