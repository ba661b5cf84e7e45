import VirtualPad.Proofs.Commits
import VirtualPad.Proofs.Requests

/-!
# Requests, made and carried out

A response of a binding with a command for its target makes requests (`Turn.asks`).  They wait until
the turn is over, and are then carried out one by one.  The engine keeps no list of the requests that
it has carried out.  The definitions here go through an operation the way the engine does and write
that list down, the first request first.  They read the engine and leave it alone, so there is one
list for every operation.

Between two operations, then, an engine goes through stages (`Engine.Stage`): a turn, which carries
out nothing, or one request that is taken off the queue and carried out.  What holds at every stage
may speak of the requests carried out so far.
-/

namespace VirtualPad

/-! ## §1 What a response asks for -/

/-- The command of a mapping is given with a response: with every release, except that a hold is given
with both edges, and that of forced releases only the ends of holds are. -/
def Response.gives (r : Response) (command : Command) (forced : Bool) : Bool :=
  let rising := r.now && !r.was
  let falling := r.was && !r.now
  let holds := command == .holdActiveUser
  if forced then falling && holds else falling || (rising && holds)

theorem Engine.targetUsers_congr {e e' : Engine} (hlayout : e'.layout = e.layout)
    (hactive : e'.activeUser = e.activeUser) (ref : UserRef) :
    e'.targetUsers ref = e.targetUsers ref := by
  have hcount : e'.userCount = e.userCount := congrArg Layout.users hlayout
  cases ref with
  | index user => rfl
  | active => exact congrArg (fun user => [user]) hactive
  | everyone =>
    unfold Engine.targetUsers
    rw [hcount]

@[simp] theorem Engine.board_followPlan (e : Engine) (id : Nat) (plan : TimerPlan) :
    (e.followPlan id plan).board = e.board :=
  (congrArg Engine.board (Engine.untimed_followPlan e id plan) :)

namespace Turn

/-- The users for whom a command is given: those that the binding has settled on, if it ends. -/
def givenFor (t : Turn) (b : Binding) (r : Response) : List User :=
  if r.was && !r.now && !b.latch.applied.isEmpty then b.latch.applied
  else t.engine.targetUsers b.mapping.targetUser

/-- The requests that a response of a binding makes. -/
def asks (t : Turn) (id : Nat) (b : Binding) (r : Response) (forced : Bool) : List Request :=
  match (t.targetOf b).cell with
  | .command command =>
    if r.gives command forced then
      (t.givenFor b r).map fun user =>
        { command, user, pressed := r.now && !r.was, payload := b.mapping.payload, mapping := id }
    else []
  | _ => []

theorem requests_rise (t : Turn) (id : Nat) (m : Mapping) (target : Descriptor) (user : User) :
    (t.rise id m target user).requests = t.requests := by
  unfold rise
  dsimp only
  split
  · split
    · exact requests_updatePads _ _ _
    · rfl
  · rfl

theorem requests_giveCommand {t : Turn} {id : Nat} {b : Binding}
    (hb : t.engine.bindings[id]? = some b) (command : Command) (r : Response) (forced : Bool) :
    (t.giveCommand id command r forced).requests = t.requests ++
      if r.gives command forced then
        (t.givenFor b r).map fun user =>
          { command, user, pressed := r.now && !r.was, payload := b.mapping.payload, mapping := id }
      else [] := by
  unfold giveCommand
  rw [hb]
  dsimp only
  rw [foldl_request]
  by_cases hgives : r.gives command forced = true
  · rw [if_pos hgives]
    exact congrArg requests (if_pos hgives)
  · rw [if_neg hgives, List.append_nil]
    exact congrArg requests (if_neg hgives)

theorem asks_of_not_command {t : Turn} {b : Binding}
    (hcell : ∀ command, (t.targetOf b).cell ≠ .command command) (id : Nat) (r : Response)
    (forced : Bool) : t.asks id b r forced = [] := by
  unfold asks
  split
  · rename_i command hcommand
    exact absurd hcommand (hcell command)
  · rfl

/-- They are in the name of the binding and for the command that is its target. -/
theorem mem_asks {t : Turn} {id : Nat} {b : Binding} {r : Response} {forced : Bool} {q : Request}
    (hq : q ∈ t.asks id b r forced) : (t.targetOf b).cell = .command q.command ∧ q.mapping = id ∧
      q.pressed = (r.now && !r.was) := by
  unfold asks at hq
  split at hq
  · rename_i command hcell
    split at hq
    · obtain ⟨user, -, rfl⟩ := List.mem_map.mp hq
      exact ⟨hcell, rfl, rfl⟩
    · contradiction
  · contradiction

/-- **The first step of an answer** makes the requests that the response asks for. -/
theorem requests_firstStep {t : Turn} {id : Nat} {b : Binding}
    (hb : t.engine.bindings[id]? = some b) (pulse : Pulse) (forced : Bool) {latch : Latch}
    (happlied : latch.applied = b.latch.applied) (r : Response) :
    (t.firstStep id b pulse forced latch (some r)).requests = t.requests ++ t.asks id b r forced := by
  have hb' : (t.mapLatch id fun _ => latch).engine.bindings[id]? = some { b with latch } := by
    rw [engine_mapLatch, Engine.getElem?_mapLatch, if_pos rfl, hb]
    rfl
  unfold firstStep perform
  dsimp only
  split
  · rename_i command hcell
    by_cases hrises : (r.now && !r.was) = true
    · -- It has settled on its users just now, and they are those that its target means.
      have hsteps := (t.mapLatch id fun _ => latch).steps_rise id b.mapping (t.targetOf b) pulse.user
      obtain ⟨b', hrisen, hmapping, -⟩ := Engine.binding_congr hsteps.layout hb'
      have hfalling : (r.was && !r.now) = false := by
        simp only [Bool.and_eq_true, Bool.not_eq_true'] at hrises
        simp [hrises]
      have husers := Engine.targetUsers_congr hsteps.layout hsteps.gates.1 b.mapping.targetUser
      rw [if_pos hrises, requests_giveCommand hrisen, requests_rise]
      simp only [asks, hcell, givenFor, hfalling, hmapping, husers]
      rfl
    · rw [if_neg hrises, requests_giveCommand hb']
      simp only [asks, hcell, givenFor, happlied]
      rfl
  · rename_i hnone
    rw [asks_of_not_command hnone, List.append_nil]
    have hrisen : (if (r.now && !r.was) = true then
        (t.mapLatch id fun _ => latch).rise id b.mapping (t.targetOf b) pulse.user
        else t.mapLatch id fun _ => latch).requests = t.requests := by
      split
      · exact requests_rise _ _ _ _ _
      · rfl
    split
    · rw [requests_writeTarget]
      split <;> exact hrisen
    · exact hrisen

/-- A command touches nothing but the latch of its binding, which settles on its users when it comes
into effect. -/
theorem engine_firstStep_command {t : Turn} {b : Binding} {command : Command}
    (hcell : (t.targetOf b).cell = .command command) (id : Nat) (pulse : Pulse) (forced : Bool)
    (latch : Latch) (r : Response) :
    (t.firstStep id b pulse forced latch (some r)).engine = t.engine.mapLatch id fun _ =>
      if r.now && !r.was then
        { latch with
          sourceUser := pulse.user, applied := t.engine.targetUsers b.mapping.targetUser }
      else latch := by
  have hcontrol : (t.targetOf b).padCell? = none := by
    unfold Descriptor.padCell?
    rw [hcell]
  unfold firstStep perform
  simp only [hcell, engine_giveCommand]
  split
  · unfold rise
    rw [hcontrol]
    dsimp only
    rw [engine_mapLatch, engine_mapLatch, Engine.mapLatch_mapLatch]
    rfl
  · rfl

end Turn

namespace Engine

/-! ## §2 What an operation carries out -/

/-- The requests that are carried out as long as there are any; the number bounds how many. -/
def ordersAll (time : Nat) : Nat → Engine → List Request
  | 0, _ => []
  | bound + 1, e =>
    match e.queue with
    | [] => []
    | r :: rest => r :: ordersAll time bound ({ e with queue := rest }.obey r time)

/-- The requests that are carried out to drain the queue. -/
def ordersDrained (e : Engine) (time : Nat) : List Request :=
  ordersAll time (e.queue.length + userLimit * e.bindings.size) e

/-- The requests that are carried out after the turn of an event. -/
def ordersAfter (e : Engine) (event : Event) : List Request :=
  match e.turnOf? event with
  | none => []
  | some t => t.commit.ordersDrained event.time

/-- The requests that are carried out while timers go off that are due. -/
def ordersDue (limit : Nanoseconds) : Nat → Engine → List Request
  | 0, _ => []
  | bound + 1, e =>
    match e.clock.nextDue? limit with
    | none => []
    | some (token, due, clock) =>
      let time := due.toMillis % twoTo 64
      ({ e with clock } : Engine).ordersAfter (.timer token time) ++
        ordersDue limit bound ({ e with clock }.onTimer token time)

/-- The requests that a call has the engine carry out. -/
def orders (e : Engine) : Call → List Request
  | .input source user down strength time =>
    e.ordersAfter (.input source user down strength time)
  | .motion source user magnitude time => e.ordersAfter (.motion source user magnitude time)
  | .runUntil ms => ordersDue (.ofMillis ms) (e.tickBound (.ofMillis ms)) e
  | .releaseAll time => (e.forceReleaseAll time).ordersDrained time
  | .reload config =>
    (e.forceReleaseAll e.lastTime).ordersDrained e.lastTime ++
      (e.freed.install config e.lastTime).ordersDrained e.lastTime

/-- The requests that several calls in a row have the engine carry out. -/
def ordersAlong : Engine → List Call → List Request
  | _, [] => []
  | e, call :: rest => e.orders call ++ ordersAlong (e.after call) rest

/-- The engine is driven from outside without being reloaded, by calls and by timers that the host
says have gone off, and carries out these requests. -/
inductive Session : Engine → List Request → Engine → Prop
  | start (e : Engine) : Session e [] e
  | call {e e' : Engine} {log : List Request} (h : Session e log e') {call : Call}
      (hcall : ∀ config, call ≠ .reload config) :
      Session e (log ++ e'.orders call) (e'.after call)
  | timer {e e' : Engine} {log : List Request} (h : Session e log e') (token : TimerToken)
      (time : Nat) :
      Session e (log ++ e'.ordersAfter (.timer token time)) (e'.onTimer token time)

/-! ## §3 Stages -/

/-- One stage of what an engine does between two operations, and the request carried out in it. -/
inductive Stage : Engine → List Request → Engine → Prop
  /-- A source moves. -/
  | feed (e : Engine) (c : Control) (pulse : Pulse) (time : Nat) :
      Stage e [] (Turn.feed (cascadeRoom + 1) { engine := { e with lastTime := time }, time } c
        pulse).1.commit
  /-- A timer that is running goes off. -/
  | expire {e : Engine} {token : TimerToken} {use : TimerUse}
      (huse : e.timerUse? token = some use) (time : Nat) :
      Stage e [] (({ engine := { e with lastTime := time }, time } : Turn).tick use).commit
  | release (e : Engine) (time : Nat) : Stage e [] (e.forceReleaseAll time)
  /-- Time passes. -/
  | pass (e : Engine) (clock : Clock) : Stage e [] { e with clock }
  | obey {e : Engine} {r : Request} {rest : List Request} (hqueue : e.queue = r :: rest)
      (time : Nat) : Stage e [r] ({ e with queue := rest }.obey r time)

/-- One stage after another, with the requests carried out in them. -/
inductive Stages : Engine → List Request → Engine → Prop
  | refl (e : Engine) : Stages e [] e
  | tail {e e' e'' : Engine} {log last : List Request} (h : Stages e log e')
      (hlast : Stage e' last e'') : Stages e (log ++ last) e''

namespace Stages

variable {e e' e'' : Engine} {log log' : List Request}

theorem single (h : Stage e log e') : Stages e log e' := (refl e).tail h

theorem trans (h : Stages e log e') (h' : Stages e' log' e'') : Stages e (log ++ log') e'' := by
  induction h' with
  | refl => exact (List.append_nil log).symm ▸ h
  | tail _ hlast ih =>
    rw [← List.append_assoc]
    exact ih.tail hlast

end Stages

theorem stages_obeyAll (time bound : Nat) (e : Engine) :
    Stages e (ordersAll time bound e) (obeyAll time bound e) := by
  induction bound generalizing e with
  | zero => exact .refl e
  | succ bound ih =>
    unfold obeyAll ordersAll
    cases hqueue : e.queue with
    | nil => exact .refl e
    | cons r rest => exact (Stages.single (.obey hqueue time)).trans (ih _)

theorem stages_drainQueue (e : Engine) (time : Nat) :
    Stages e (e.ordersDrained time) (e.drainQueue time) :=
  stages_obeyAll time _ e

theorem stage_turnOf? {e : Engine} {event : Event} {t : Turn} (h : e.turnOf? event = some t) :
    Stage e [] t.commit := by
  cases event with
  | input source user down strength time =>
    simp only [turnOf?, Option.dite_none_right_eq_some, Option.some.injEq] at h
    obtain ⟨-, rfl⟩ := h
    exact .feed e source _ time
  | motion source user magnitude time =>
    simp only [turnOf?, Option.dite_none_right_eq_some, Option.ite_none_right_eq_some,
      Option.some.injEq] at h
    obtain ⟨-, -, rfl⟩ := h
    exact .feed e source _ time
  | timer token time =>
    obtain ⟨use, huse, rfl⟩ := Option.map_eq_some_iff.mp h
    exact .expire huse time

theorem stages_handle (e : Engine) (event : Event) :
    Stages e (e.ordersAfter event) (e.handle event) := by
  rw [handle_eq]
  unfold ordersAfter
  cases hturn : e.turnOf? event with
  | none => exact .refl e
  | some t => exact (Stages.single (stage_turnOf? hturn)).trans (stages_drainQueue t.commit _)

theorem stages_runDue (limit : Nanoseconds) (bound : Nat) (e : Engine) :
    Stages e (ordersDue limit bound e) (runDue limit bound e) := by
  induction bound generalizing e with
  | zero => exact .refl e
  | succ bound ih =>
    unfold runDue ordersDue
    cases hdue : e.clock.nextDue? limit with
    | none => exact .refl e
    | some next =>
      -- The clock is past the timer before the engine hears of it.
      obtain ⟨token, due, clock⟩ := next
      have hticked := stages_handle ({ e with clock } : Engine)
        (.timer token (due.toMillis % twoTo 64))
      exact (Stages.single (.pass e clock)).trans (hticked.trans (ih _))

/-- **A call goes through stages**, unless it reloads. -/
theorem stages_after (e : Engine) {call : Call} (hcall : ∀ config, call ≠ .reload config) :
    Stages e (e.orders call) (e.after call) := by
  cases call with
  | input source user down strength time =>
    exact stages_handle e (.input source user down strength time)
  | motion source user magnitude time => exact stages_handle e (.motion source user magnitude time)
  | runUntil ms =>
    have hend : Stages e (e.orders (.runUntil ms) ++ []) (e.runUntil ms) :=
      .tail (stages_runDue (.ofMillis ms) (e.tickBound (.ofMillis ms)) e) (.pass _ _)
    rwa [List.append_nil] at hend
  | releaseAll time => exact (Stages.single (.release e time)).trans (stages_drainQueue _ time)
  | reload config => exact absurd rfl (hcall config)

/-- **And so does a session.** -/
theorem Session.stages {e e' : Engine} {log : List Request} (h : Session e log e') :
    Stages e log e' := by
  induction h with
  | start => exact .refl e
  | call _ hcall ih => exact ih.trans (stages_after _ hcall)
  | timer _ token time ih => exact ih.trans (stages_handle _ (.timer token time))

theorem Session.operated {admits : Config → Prop} {e e' : Engine} {log : List Request}
    (h : Session e log e') (he : Operated admits e) : Operated admits e' := by
  induction h with
  | start => exact he
  | @call _ _ _ call hcall ih =>
    refine .call ?_ ih
    cases call with
    | reload config => exact absurd rfl (hcall config)
    | input | motion | runUntil | releaseAll => trivial
  | timer _ token time ih => exact .timer token time ih

/-- Calls in a row go on with a session. -/
theorem Session.calls {e e' : Engine} {log : List Request} (h : Session e log e')
    {calls : List Call} (hcalls : ∀ call ∈ calls, ∀ config, call ≠ .reload config) :
    Session e (log ++ e'.ordersAlong calls) (e'.afterAll calls) := by
  induction calls generalizing e' log with
  | nil => exact (List.append_nil log).symm ▸ h
  | cons call rest ih =>
    have hnext := ih (h.call (hcalls call (List.mem_cons_self ..))) fun other hother =>
      hcalls other (List.mem_cons_of_mem _ hother)
    rw [List.append_assoc] at hnext
    exact hnext

end Engine

end VirtualPad
