import VirtualPad.Config.Compile
import VirtualPad.Document.Toml
import VirtualPad.Engine
import VirtualPad.Report

/-!
# Replays

A script lists events with the times they happen at.  Replaying it feeds them to an engine in the
order of their times, lets the timers in between go off, and prints what comes out: the snapshots of
the pads as they are committed, under the times of their commits, and what the host is told, under
the time that has been reached.
-/

namespace VirtualPad

structure ScriptEvent where
  /-- The time of the event in milliseconds. -/
  time : Nat
  /-- A control, with or without `@` and a user. -/
  control : String
  /-- The user, counted from one; goes before the user in `control`. -/
  user : Option Nat := none
  down : Bool := true
  strength : Option Float := none
  /-- The amount of motion, if the event is one of motion. -/
  magnitude : Option Float := none

structure Script where
  /-- How long the clock runs on after the last event, in milliseconds. -/
  tail : Nat := 0
  events : List ScriptEvent := []

/-! ## §1 Reading a script -/

def ScriptEvent.ofValue? (format : Format) (v : Value) : Option ScriptEvent := do
  let r ← Record.ofValue? format ["at_ms", "control", "user", "down", "strength", "magnitude"] v
  return {
    time := ← r.required "at_ms" Value.natural?
    control := ← r.required "control" Value.text?
    user := ← r.optional "user" Value.natural?
    down := ← r.orElse "down" Value.truth? true
    strength := ← r.optional "strength" Value.number?
    magnitude := ← r.optional "magnitude" Value.number? }

def Script.ofValue? (format : Format) (v : Value) : Option Script := do
  let r ← Record.ofValue? format ["tail_ms", "event"] v
  return {
    tail := ← r.orElse "tail_ms" Value.natural? 0
    events := ← r.orElse "event" (Value.list? (ScriptEvent.ofValue? format)) [] }

/-- The events in the order of their times; events of the same time stay in the order of the
script. -/
def Script.inOrder (s : Script) : List ScriptEvent :=
  s.events.mergeSort fun a b => decide (a.time ≤ b.time)

/-! ## §2 Lines -/

/-- A line under a time. -/
def timedLine (time : Nat) (text : String) : String :=
  "[" ++ padLeft (Nat.repr time) 6 ++ " ms] " ++ text

def stickText (s : Float × Float) : String :=
  "(" ++ fixedText 2 s.1 ++ ", " ++ fixedText 2 s.2 ++ ")"

def Snapshot.text (s : Snapshot) : String :=
  "pad " ++ Nat.repr (s.user + 1) ++ " v" ++ Nat.repr s.version ++ " " ++
    (if s.connected then "" else "disconnected ") ++
    "buttons=" ++ hexText s.buttons 4 ++
    " lt=" ++ fixedText 2 s.triggers.1 ++ " rt=" ++ fixedText 2 s.triggers.2 ++
    " ls=" ++ stickText (s.stick leftPart) ++ " rs=" ++ stickText (s.stick rightPart)

/-- The word for going down or up. -/
def edgeText (down : Bool) : String := if down then " down" else " up"

def HostEvent.text : HostEvent → String
  | .key c down => "key " ++ c.text ++ edgeText down
  | .mouseButton c down => "mouse " ++ c.text ++ edgeText down
  | .custom c down => "custom " ++ c.text ++ edgeText down
  | .motion dx dy => "motion " ++ toString dx ++ " " ++ toString dy
  | .scroll dx dy => "scroll " ++ toString dx ++ " " ++ toString dy
  | .command r =>
    "command " ++ r.command.text ++ " user " ++ Nat.repr (r.user + 1) ++
      (match r.payload with
        | none => ""
        | some name => " '" ++ name ++ "'")

/-! ## §3 Replaying -/

/-- A replay in progress. -/
structure Replay where
  engine : Engine
  lines : Array String := #[]

namespace Replay

/-- Prints what has come out of the engine by a time. -/
def flush (r : Replay) (time : Nat) : Replay :=
  let journal := r.engine.journal
  { engine := { r.engine with journal := {} }
    lines := r.lines ++
      journal.snapshots.map (fun s => timedLine s.timestamp s.text) ++
      journal.events.map (fun e => timedLine time e.text) }

def waitUntil (r : Replay) (time : Nat) : Replay :=
  { r with engine := r.engine.runUntil time }.flush time

/-- The control and the user of an event, or what is wrong with them. -/
def resolve (e : Engine) (event : ScriptEvent) : Except (List String) (Control × Nat) :=
  match e.vocabulary.readRef event.control with
  | .error error => .error ["bad control '" ++ event.control ++ "'", error.message]
  | .ok (c, ref) =>
    match event.user.map (fun n => UserRef.index (n - 1)) <|> ref with
    | none => .ok (c, 0)
    | some (.index user) => .ok (c, user)
    | some .active => .ok (c, e.activeUser)
    | some .everyone => .error ["'" ++ event.control ++ "': input events need a single user"]

/-- Feeds an event to the engine. -/
def feed (r : Replay) (event : ScriptEvent) (c : Control) (user : Nat) : Replay :=
  let engine := match event.magnitude with
    | some magnitude => (r.engine.processRelative c user magnitude event.time).1
    | none => (r.engine.processInput c user event.down (event.strength.getD 1) event.time).1
  { r with engine }.flush event.time

/-- Plays events one after the other.  The first one that cannot be played ends the replay. -/
def play : List ScriptEvent → Replay → Replay × List String
  | [], r => (r, [])
  | event :: rest, r =>
    let r := r.waitUntil event.time
    match resolve r.engine event with
    | .error messages => (r, messages)
    | .ok (c, user) => play rest (r.feed event c user)

end Replay

/-- Replays a script from the start and reports what came out.  At the end every pad in use is shown
as it was left. -/
def Config.replay (config : Config) (script : Script) : Report :=
  let events := script.inOrder
  -- What happens while the configuration is installed is not part of the replay.
  let engine := { Engine.ofConfig config with journal := {} }
  match Replay.play events { engine } with
  | (r, []) =>
    let last := match events.getLast? with
      | some event => event.time
      | none => 0
    let r := r.waitUntil (last + script.tail)
    { lines := r.lines.toList ++ r.engine.snapshots.map fun s => "final " ++ s.text }
  | (r, problem) => { lines := r.lines.toList, problem }

/-- Replays the script that a text holds. -/
def Config.replayText (config : Config) (text : String) : Report :=
  match (Toml.parse text).bind (Script.ofValue? .toml) with
  | none => { lines := [], problem := ["failed to parse"] }
  | some script => config.replay script

/-- The configuration that a text holds, if it is one. -/
def Config.ofText? (text : String) : Option Config :=
  ((Toml.parse text).bind (ConfigFile.ofValue? .toml)).map ConfigFile.compile

end VirtualPad
