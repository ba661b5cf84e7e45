import VirtualPad.Config.Compile
import VirtualPad.Engine

/-!
# Runs of an engine

An engine starts on a configuration and is driven from outside by calls, one at a time and in any
order.  Every statement about what an engine can ever be like is a statement about the engines that
are `Reachable`.

A host with a clock of its own also tells the engine which timers have gone off.  It may do so early,
late, twice or in any order, and then the timers that the engine's own clock has armed are of no
meaning.  All that does not rest on the clock holds at every engine that is `Operated` in this way.

The predicate `admits` says which configurations the engine may be given, at the start and when it
is reloaded.
-/

namespace VirtualPad

/-- The configuration comes from a configuration file. -/
def Config.IsCompiled (c : Config) : Prop := ∃ file : ConfigFile, file.compile = c

/-- What drives an engine from outside. -/
inductive Call where
  | input (source : Control) (user : Nat) (down : Bool) (strength : Float) (time : Nat)
  | motion (source : Control) (user : Nat) (magnitude : Float) (time : Nat)
  | runUntil (ms : Nat)
  | releaseAll (time : Nat)
  | reload (config : Config)

/-- The configuration that a call brings with it, if any, is admitted. -/
def Call.Admitted (admits : Config → Prop) : Call → Prop
  | .reload config => admits config
  | _ => True

/-- The control that a call moves. -/
def Call.source? : Call → Option Control
  | .input source _ _ _ _ => some source
  | .motion source _ _ _ => some source
  | _ => none

/-- The control that a call presses.  Motion counts as a press. -/
def Call.pressed? : Call → Option Control
  | .input source _ down _ _ => if down then some source else none
  | .motion source _ magnitude _ => if magnitude != 0 then some source else none
  | _ => none

namespace Engine

/-- The engine after a call. -/
def after (e : Engine) : Call → Engine
  | .input source user down strength time => (e.processInput source user down strength time).1
  | .motion source user magnitude time => (e.processRelative source user magnitude time).1
  | .runUntil ms => e.runUntil ms
  | .releaseAll time => e.releaseAll time
  | .reload config => e.reload config

/-- Whether the event that a call brings is to be kept from the system. -/
def answer (e : Engine) : Call → Bool
  | .input source user down strength time => (e.processInput source user down strength time).2
  | .motion source user magnitude time => (e.processRelative source user magnitude time).2
  | _ => false

/-- The engine after several calls in a row. -/
def afterAll (e : Engine) (calls : List Call) : Engine := calls.foldl after e

/-- The engine can come about between two calls. -/
inductive Reachable (admits : Config → Prop) : Engine → Prop
  | start {config : Config} (hconfig : admits config) : Reachable admits (ofConfig config)
  | call {e : Engine} {call : Call} (hcall : call.Admitted admits) (he : Reachable admits e) :
      Reachable admits (e.after call)

/-- The engine can come about between two operations: calls, and timers that the host says have gone
off. -/
inductive Operated (admits : Config → Prop) : Engine → Prop
  | start {config : Config} (hconfig : admits config) : Operated admits (ofConfig config)
  | call {e : Engine} {call : Call} (hcall : call.Admitted admits) (he : Operated admits e) :
      Operated admits (e.after call)
  | timer {e : Engine} (token : TimerToken) (time : Nat) (he : Operated admits e) :
      Operated admits (e.onTimer token time)

/-- An engine may start on any configuration file. -/
theorem Reachable.compiled (file : ConfigFile) :
    Reachable Config.IsCompiled (ofConfig file.compile) :=
  .start ⟨file, rfl⟩

theorem Reachable.input {admits : Config → Prop} {e : Engine} (he : Reachable admits e)
    (source : Control) (user : Nat) (down : Bool) (strength : Float) (time : Nat) :
    Reachable admits (e.after (.input source user down strength time)) := by
  have hcall : (Call.input source user down strength time).Admitted admits := trivial
  exact he.call hcall

theorem Reachable.operated {admits : Config → Prop} {e : Engine} (he : Reachable admits e) :
    Operated admits e := by
  induction he with
  | start hconfig => exact .start hconfig
  | call hcall _ ih => exact .call hcall ih

end Engine

end VirtualPad
