import VirtualPad.Proofs.GivenCommands
import VirtualPad.Proofs.HostEdges

/-!
# What the host is told of commands

Requests for the host wait until the turn is over, and then the host is told of them, all before the
call is over.  So a binding that gives a command to the host is heard with every release of its
source and at no other time (`Engine.received_per_release`).

But it makes one request for each of its users.  A command that is given for all users reaches the
host as often as there are users, with every release.
-/

namespace VirtualPad

/-- How many users a target means, of so many. -/
def UserRef.count (users : Nat) : UserRef → Nat
  | .everyone => users
  | _ => 1

/-- The request of a mapping in an event, if it is one. -/
def HostEvent.requestOf? (id : Nat) : HostEvent → Option Request
  | .command r => if r.mapping = id then some r else none
  | _ => none

/-- The requests of a mapping among what the host is told. -/
def requestsOf (id : Nat) (events : List HostEvent) : List Request :=
  events.filterMap (HostEvent.requestOf? id)

theorem requestsOf_append (id : Nat) (events more : List HostEvent) :
    requestsOf id (events ++ more) = requestsOf id events ++ requestsOf id more :=
  List.filterMap_append

namespace Turn

/-! ## §1 Turns -/

/-- Steps tell the host of no requests. -/
theorem Step.requestsOf {t t' : Turn} (h : Step t t') (id : Nat) :
    requestsOf id (t'.engine.journal.events.toList ++ t'.effects.toList) =
      requestsOf id (t.engine.journal.events.toList ++ t.effects.toList) := by
  have htold : ∀ (t : Turn) (event : HostEvent), event.requestOf? id = none →
      VirtualPad.requestsOf id ((t.tell event).engine.journal.events.toList ++
        (t.tell event).effects.toList) =
      VirtualPad.requestsOf id (t.engine.journal.events.toList ++ t.effects.toList) := by
    intro t event hevent
    simp [tell, VirtualPad.requestsOf, hevent]
  cases h with
  | latch | mark | pointer | wheel | request => rfl
  | plan id plan =>
    have hevents := congrArg (fun e => e.journal.events) (Engine.untimed_followPlan t.engine id plan)
    exact congrArg (fun events : Array HostEvent => VirtualPad.requestsOf _
      (events.toList ++ t.effects.toList)) hevents
  | lapse use =>
    have hevents := congrArg (fun e => e.journal.events) (Engine.untimed_lapse t.engine use)
    exact congrArg (fun events : Array HostEvent => VirtualPad.requestsOf _
      (events.toList ++ t.effects.toList)) hevents
  | pads users hwriting => rw [effects_updatePads, engine_updatePads]
  | @output kind target slot down replaces hkind =>
    unfold writeOutput
    split
    · rfl
    · cases kind with
      | keyboard | mouseButton | customKey =>
        dsimp only
        split
        · exact htold _ _ rfl
        · rfl
      | var => rfl
  | resend hkind hcell hheld => exact htold t _ rfl

theorem Steps.requestsOf {t t' : Turn} (h : Steps t t') (id : Nat) :
    requestsOf id (t'.engine.journal.events.toList ++ t'.effects.toList) =
      requestsOf id (t.engine.journal.events.toList ++ t.effects.toList) := by
  induction h with
  | refl => rfl
  | tail _ hstep ih => exact (hstep.requestsOf id).trans ih

end Turn

namespace Engine

/-- The requests of a mapping that the host has been told of. -/
def received (e : Engine) (id : Nat) : List Request := requestsOf id e.journal.events.toList

variable {e e' e'' : Engine} {id : Nat} {m : Mapping} {command : Command}

/-- The host is told of no requests by a turn. -/
theorem received_commit {e : Engine} {lastTime time : Nat} {t : Turn}
    (h : Turn.Steps { engine := { e with lastTime }, time } t) (id : Nat) :
    t.commit.received id = e.received id := by
  refine (Turn.filterMap_commit (fun _ _ => rfl) (fun _ _ => rfl) t).trans
    ((h.requestsOf id).trans ?_)
  exact congrArg (requestsOf id) (List.append_nil _)

/-! ## §2 Carrying out requests -/

/-- Between two turns a binding, the board and the switch stay as they are, and nothing waits that has
not waited before.  The host is told of some requests of the mapping. -/
structure Undisturbed (id : Nat) (told : List Request) (e e' : Engine) : Prop where
  layout : e'.layout = e.layout
  active : (e'.latch id).active = (e.latch id).active
  applied : (e'.latch id).applied = (e.latch id).applied
  board : e'.board = e.board
  disabled : e'.disabled = e.disabled
  queue : e'.queue = e.queue
  received : e'.received id = e.received id ++ told

namespace Undisturbed

variable {told told' : List Request}

theorem refl (id : Nat) (e : Engine) : Undisturbed id [] e e :=
  ⟨rfl, rfl, rfl, rfl, rfl, rfl, (List.append_nil _).symm⟩

theorem trans (h : Undisturbed id told e e') (h' : Undisturbed id told' e' e'') :
    Undisturbed id (told ++ told') e e'' where
  layout := h'.layout.trans h.layout
  active := h'.active.trans h.active
  applied := h'.applied.trans h.applied
  board := h'.board.trans h.board
  disabled := h'.disabled.trans h.disabled
  queue := h'.queue.trans h.queue
  received := by rw [h'.received, h.received, List.append_assoc]

theorem remember (id : Nat) (e : Engine) (other : Nat) (user : Option User) :
    Undisturbed id [] e (e.mapLatch other fun l => { l with restoreUser := user }) where
  layout := layout_mapLatch _ _ _
  active := latch_mapLatch_congr Latch.active rfl id
  applied := latch_mapLatch_congr Latch.applied rfl id
  board := rfl
  disabled := rfl
  queue := rfl
  received := (List.append_nil _).symm

theorem setActiveUser (id : Nat) (e : Engine) (user : User) :
    Undisturbed id [] e (e.setActiveUser user) := by
  unfold Engine.setActiveUser
  split
  · exact ⟨rfl, rfl, rfl, rfl, rfl, rfl, (List.append_nil _).symm⟩
  · exact .refl id e

/-- A pad is connected or disconnected. -/
theorem connect (id : Nat) (e : Engine) (user : User) (time : Nat) :
    Undisturbed id [] e (e.inTurn time fun t =>
      t.updatePad user fun pad => ({ pad with connected := !pad.connected }, true)) := by
  have hsteps : Turn.Steps { engine := e, time } (({ engine := e, time } : Turn).updatePad user
      fun pad => ({ pad with connected := !pad.connected }, true)) :=
    .single (.pads _ [user] .connect)
  have hreceived := @received_commit e e.lastTime time _ hsteps id
  show Undisturbed id [] e (({ engine := e, time } : Turn).updatePad user
    fun pad => ({ pad with connected := !pad.connected }, true)).commit
  generalize hturn : ({ engine := e, time } : Turn).updatePad user
    (fun pad => ({ pad with connected := !pad.connected }, true)) = t at hsteps hreceived
  have hengine : t.engine = { e with pads := t.engine.pads } := by
    rw [← hturn, Turn.engine_updatePad]
  have hrequests : t.requests = [] := by rw [← hturn, Turn.requests_updatePad]
  obtain ⟨pads, queue, remainder, snapshots, events, hcommit, hcount⟩ := t.commit_frame
  have hlayout : t.commit.layout = e.layout := by
    rw [hcommit]
    exact (layout_write t.engine t.engine.outputs hcount).trans hsteps.layout
  refine ⟨hlayout, ?_, ?_, ?_, ?_, ?_, hreceived.trans (List.append_nil _).symm⟩
  · rw [hcommit, hengine]
    rfl
  · rw [hcommit, hengine]
    rfl
  · rw [hcommit, hengine]
  · rw [hcommit, hengine]
  · rw [Turn.queue_commit, hrequests, List.append_nil, hengine]

/-- What waits is of no meaning. -/
theorem requeue (h : Undisturbed id told e e') :
    Undisturbed id told { e with queue := [] } { e' with queue := [] } :=
  ⟨h.layout, h.active, h.applied, h.board, h.disabled, rfl, h.received⟩

end Undisturbed

/-- **Carrying out a request** leaves the binding alone, unless it switches the mappings off.  The host
is told of the request if it is one for the host. -/
theorem undisturbed_obey (id : Nat) (e : Engine) {r : Request} (hon : r.command ≠ .toggleDisable) (time : Nat) :
    Undisturbed id (if r.mapping = id ∧ (r.command = .reload ∨ r.command = .loadConfig) then [r]
      else []) e (e.obey r time) := by
  -- Reload and LoadConfig are all that the host receives.
  have hforward : (r.command = .reload ∨ r.command = .loadConfig) →
      Undisturbed id (if r.mapping = id then [r] else []) e (Turn.tellHost e #[.command r]) := by
    refine fun _ => ⟨rfl, rfl, rfl, rfl, rfl, rfl, ?_⟩
    unfold received Turn.tellHost
    rw [Array.toList_append, requestsOf_append]
    refine congrArg (e.received id ++ ·) ?_
    by_cases hmapping : r.mapping = id
    · simp [requestsOf, HostEvent.requestOf?, hmapping]
    · simp [requestsOf, HostEvent.requestOf?, hmapping]
  unfold obey
  cases hcommand : r.command with
  | toggleDisable => exact absurd hcommand hon
  | setActiveUser => simpa using Undisturbed.setActiveUser id e r.user
  | holdActiveUser =>
    simp only [reduceCtorEq, or_self, and_false, if_false]
    split
    · exact .refl id e
    · split
      · exact (Undisturbed.remember id e _ _).trans (.setActiveUser id _ _)
      · split
        · exact .refl id e
        · exact (Undisturbed.remember id e _ _).trans (.setActiveUser id _ _)
  | toggleConnected =>
    simp only [reduceCtorEq, or_self, and_false, if_false]
    split
    · exact .connect id e r.user time
    · exact .refl id e
  | reload => simpa using hforward (.inl hcommand)
  | loadConfig => simpa using hforward (.inr hcommand)

/-- All requests are carried out, and the host is told of those for the host. -/
theorem undisturbed_obeyAll (time bound : Nat) {e : Engine}
    (hon : ∀ r ∈ ordersAll time bound e, r.command ≠ .toggleDisable)
    (hhost : ∀ r ∈ e.queue, r.mapping = id → r.command = .reload ∨ r.command = .loadConfig)
    (hempty : (obeyAll time bound e).queue = []) :
    Undisturbed id (e.queue.filter fun r => r.mapping == id) { e with queue := [] }
      (obeyAll time bound e) := by
  have hdone : ∀ {e : Engine}, e.queue = [] →
      Undisturbed id (e.queue.filter fun r => r.mapping == id) { e with queue := [] } e := by
    intro e hqueue
    have hsame : ({ e with queue := [] } : Engine) = e := by rw [← hqueue]
    rw [hsame, hqueue]
    exact .refl id e
  induction bound generalizing e with
  | zero => exact hdone hempty
  | succ bound ih =>
    -- The request that waits longest is obeyed, and those behind it go on waiting.
    cases hqueue : e.queue with
    | nil =>
      have hstop : obeyAll time (bound + 1) e = e := by
        rw [obeyAll]
        simp only [hqueue]
      have hnothing := hdone hqueue
      rw [hqueue] at hnothing
      rw [hstop]
      exact hnothing
    | cons r rest =>
      have hstep : obeyAll time (bound + 1) e =
          obeyAll time bound ({ e with queue := rest }.obey r time) := by
        rw [obeyAll]
        simp only [hqueue]
      have horders : ordersAll time (bound + 1) e =
          r :: ordersAll time bound ({ e with queue := rest }.obey r time) := by
        rw [ordersAll]
        simp only [hqueue]
      rw [horders] at hon
      rw [hqueue] at hhost
      rw [hstep] at hempty ⊢
      have hfirst := undisturbed_obey id { e with queue := rest }
        (hon r List.mem_cons_self) time
      have hrest := ih (fun q hq => hon q (List.mem_cons_of_mem _ hq))
        (fun q hq => hhost q (List.mem_cons_of_mem _ (by rwa [hfirst.queue] at hq))) hempty
      have hboth := hfirst.requeue.trans hrest
      rw [hfirst.queue] at hboth
      convert hboth using 1
      by_cases hmapping : r.mapping = id
      · rw [if_pos ⟨hmapping, hhost r List.mem_cons_self hmapping⟩]
        simp [hmapping]
      · simp [hmapping]

/-! ## §3 Calls -/

/-- How often a control without users goes up in a series of calls. -/
def releases (k : Control) : Engine → List Call → Nat
  | _, [] => 0
  | e, call :: rest =>
    (if e.board.isDown k User.first && !(e.after call).board.isDown k User.first then 1 else 0) +
      releases k (e.after call) rest

/-- The engine is on, and a binding that gives a command is in effect just while its source is
down. -/
structure Accounted (id : Nat) (m : Mapping) (command : Command) (count : Nat) (e : Engine) :
    Prop where
  operated : Operated Config.IsCompiled e
  gives : e.Gives id m command
  on : e.disabled = false
  means : (e.targetUsers m.targetUser).length = count
  active : (e.latch id).active = e.board.isDown m.source User.first
  users : (e.latch id).active = true → (e.latch id).applied.length = count

/-- A call that moves a source is an event whose turn feeds the source, if it is heard. -/
theorem fed_cases (e : Engine) {call : Call} (hfed : call.source?.isSome = true) :
    ∃ event, e.after call = e.handle event ∧ e.orders call = e.ordersAfter event ∧
      ∀ t, e.turnOf? event = some t → ∃ c pulse, t = (Turn.feed (cascadeRoom + 1)
        { engine := { e with lastTime := event.time }, time := event.time } c pulse).1 := by
  cases call with
  | input source user down strength time =>
    refine ⟨.input source user down strength time, rfl, rfl, fun t ht => ?_⟩
    simp only [turnOf?, Option.dite_none_right_eq_some, Option.some.injEq] at ht
    obtain ⟨-, rfl⟩ := ht
    exact ⟨source, _, rfl⟩
  | motion source user magnitude time =>
    refine ⟨.motion source user magnitude time, rfl, rfl, fun t ht => ?_⟩
    simp only [turnOf?, Option.dite_none_right_eq_some, Option.ite_none_right_eq_some,
      Option.some.injEq] at ht
    obtain ⟨-, -, rfl⟩ := ht
    exact ⟨source, _, rfl⟩
  | runUntil | releaseAll | reload => contradiction

namespace Accounted

variable {count : Nat}

/-- **The turn of an input**: if the source goes up by it, the binding requests something for each of
its users. -/
theorem feed (he : Accounted id m command count e) (c : Control) (pulse : Pulse) (time : Nat) :
    let start : Turn := { engine := { e with lastTime := time }, time }
    let t := (Turn.feed (cascadeRoom + 1) start c pulse).1
    t.engine.layout = e.layout ∧
      (t.engine.latch id).active = t.engine.board.isDown m.source User.first ∧
      ((t.engine.latch id).active = true → (t.engine.latch id).applied.length = count) ∧
      (t.asked id).length = (if e.board.isDown m.source User.first &&
        !t.engine.board.isDown m.source User.first then count else 0) ∧
      ∀ r ∈ t.asked id, r.command = command := by
  intro start t
  have hgives : start.engine.Gives id m command := he.gives.congr rfl
  by_cases hc : c = m.source
  · subst hc
    have h : Turn.Gave id m.source command count pulse.down
        (start.mark m.source User.first pulse.down) t :=
      Turn.gave_feed _ hgives he.on he.means he.users pulse
    -- The board has a line for the source.
    obtain ⟨line, hline, -⟩ := (he.gives.chain_iff m.source).mpr rfl
    have hdown : t.engine.board.isDown m.source User.first = pulse.down := by
      rw [h.isDown]
      show (e.board.set m.source User.first pulse.down).isDown m.source User.first = _
      rw [Switchboard.isDown_set, if_pos ⟨rfl, rfl, by decide, by simp [hline]⟩]
    obtain ⟨made, hmade, hlength, hall⟩ := h.asked
    have hasked : t.asked id = made := hmade
    have hwas : ((start.mark m.source User.first pulse.down).engine.latch id).active =
      e.board.isDown m.source User.first := he.active
    refine ⟨h.layout.trans (layout_setBoard _ _ _ _), h.active.trans hdown.symm,
      fun hactive => h.users (h.active ▸ hactive), ?_, hasked ▸ hall⟩
    rw [hasked, hlength, hwas, hdown]
  · have h : Turn.Bystands id m.source start t := Turn.leavesAlone_feed _ _ _ pulse hgives hc
    have hasked : t.asked id = [] := h.asked
    refine ⟨h.layout, ?_, ?_, ?_, ?_⟩
    · rw [h.latch, h.isDown]
      exact he.active
    · rw [h.latch]
      exact he.users
    · rw [hasked, h.isDown]
      show 0 = if e.board.isDown _ _ && !e.board.isDown _ _ then _ else _
      simp
    · simp [hasked]

/-- **After the turn** the requests of the binding are handed to the host. -/
theorem drained (he : Accounted id m command count e) {t : Turn} {lastTime time : Nat}
    (hsteps : Turn.Steps { engine := { e with lastTime }, time } t)
    (hactive : (t.engine.latch id).active = t.engine.board.isDown m.source User.first)
    (husers : (t.engine.latch id).active = true → (t.engine.latch id).applied.length = count)
    (hall : ∀ r ∈ t.asked id, r.command = command)
    (hon : ∀ r ∈ t.commit.ordersDrained time, r.command ≠ .toggleDisable)
    (hmeasured : Measured t.commit)
    (hoperated : Operated Config.IsCompiled (t.commit.drainQueue time)) :
    Accounted id m command count (t.commit.drainQueue time) ∧
      (t.commit.drainQueue time).board = t.engine.board ∧
      (t.commit.drainQueue time).received id = e.received id ++ t.asked id := by
  -- Only this turn's requests wait when it is over.
  have hqueue : t.commit.queue = t.requests := by
    rw [Turn.queue_commit, hsteps.queue]
    exact congrArg (· ++ t.requests) he.operated.queue_nil
  have hhost : ∀ r ∈ t.commit.queue, r.mapping = id →
      r.command = .reload ∨ r.command = .loadConfig := by
    intro r hr hmapping
    rw [hall r (List.mem_filter.mpr ⟨hqueue ▸ hr, by simpa using hmapping⟩)]
    exact he.gives.host
  have hdrained : Undisturbed id (t.commit.queue.filter fun r => r.mapping == id)
      { t.commit with queue := [] } (t.commit.drainQueue time) :=
    undisturbed_obeyAll time _ hon hhost (queue_drainQueue hmeasured time)
  rw [hqueue] at hdrained
  have hreceived := (hdrained.received).trans
    (congrArg (· ++ t.asked id) (received_commit hsteps id))
  obtain ⟨pads, queue, remainder, snapshots, events, hcommit, hcount⟩ := t.commit_frame
  have hlayout : (t.commit.drainQueue time).layout = e.layout := by
    refine hdrained.layout.trans (Eq.trans ?_ hsteps.layout)
    rw [hcommit]
    exact layout_write t.engine t.engine.outputs hcount
  have hboard : (t.commit.drainQueue time).board = t.engine.board := by
    refine hdrained.board.trans ?_
    rw [hcommit]
  have hlatch : t.commit.latch id = t.engine.latch id := by
    rw [hcommit]
    rfl
  refine ⟨⟨hoperated, he.gives.congr hlayout, ?_, ?_, ?_, ?_⟩, hboard, hreceived⟩
  · refine hdrained.disabled.trans (Eq.trans ?_ (hsteps.gates.2.trans he.on))
    rw [hcommit]
  · rw [length_targetUsers_congr hlayout, he.means]
  · rw [hboard, ← hactive, ← hlatch]
    exact hdrained.active
  · intro hup
    rw [← husers (by rw [← hup, ← hlatch]; exact hdrained.active.symm), ← hlatch]
    exact congrArg List.length hdrained.applied

/-- **A call that moves a source** hands the host the requests of the binding if the binding's own
source goes up by it, and none otherwise. -/
theorem after (he : Accounted id m command count e) {call : Call} (hfed : call.source?.isSome = true)
    (hon : ∀ r ∈ e.orders call, r.command ≠ .toggleDisable) :
    Accounted id m command count (e.after call) ∧
      ((e.after call).received id).length = (e.received id).length +
        if e.board.isDown m.source User.first &&
          !(e.after call).board.isDown m.source User.first then count else 0 := by
  have hoperated : Operated Config.IsCompiled (e.after call) := by
    refine .call ?_ he.operated
    cases call <;> trivial
  obtain ⟨event, hafter, horders, hturn⟩ := e.fed_cases hfed
  rw [hafter] at hoperated ⊢
  rw [horders] at hon
  unfold ordersAfter at hon
  rw [handle_eq] at hoperated ⊢
  cases ht : e.turnOf? event with
  | none => exact ⟨he, by simp⟩
  | some t =>
    rw [ht] at hon hoperated
    obtain ⟨c, pulse, rfl⟩ := hturn t ht
    obtain ⟨-, hactive, husers, hlength, hall⟩ := he.feed c pulse event.time
    obtain ⟨hafter, hboard, hreceived⟩ := he.drained (Turn.steps_feed _ _ c pulse) hactive husers
      hall hon ((Deed.feed e c pulse event.time).measured he.operated.measured) hoperated
    refine ⟨hafter, ?_⟩
    dsimp only
    rw [hreceived, hboard, List.length_append, hlength]

/-- **Calls that move sources** hand the host the requests of the binding as often as its source goes
up. -/
theorem afterAll {calls : List Call} (he : Accounted id m command count e)
    (hfed : ∀ call ∈ calls, call.source?.isSome = true)
    (hon : ∀ r ∈ e.ordersAlong calls, r.command ≠ .toggleDisable) :
    ((e.afterAll calls).received id).length =
      (e.received id).length + e.releases m.source calls * count := by
  induction calls generalizing e with
  | nil => simp [Engine.afterAll, releases]
  | cons call rest ih =>
    rw [ordersAlong, List.forall_mem_append] at hon
    rw [List.forall_mem_cons] at hfed
    obtain ⟨hnext, hlength⟩ := he.after hfed.1 hon.1
    have hrest := ih hnext hfed.2 hon.2
    unfold Engine.afterAll at hrest ⊢
    rw [List.foldl_cons, hrest, hlength, releases]
    split
    · rw [Nat.add_mul, Nat.one_mul, Nat.add_assoc]
    · rw [Nat.zero_add, Nat.add_zero]

end Accounted

/-- The users that a target means after an installation. -/
theorem length_targetUsers_install {config : Config} (hconfig : config.IsCompiled) {m : Mapping}
    (hm : m ∈ config.mappings) (e : Engine) (time : Nat) :
    ((e.install config time).targetUsers m.targetUser).length =
      m.targetUser.count config.settings.users := by
  have husers := hconfig.users.2
  cases huser : m.targetUser with
  | index user =>
    have hin := Nat.lt_of_lt_of_le ((hconfig.checked hm).targetUser user huser) husers
    simp [targetUsers, hin, UserRef.count]
  | active => rfl
  | everyone =>
    have hall : ∀ n : Fin (userLimit + 1),
        ((List.finRange userLimit).filter fun user => decide (user.val < n.val)).length = n.val := by
      decide
    unfold targetUsers UserRef.count
    rw [count_install, hconfig.clampUsers]
    exact hall ⟨config.settings.users, Nat.lt_succ_of_le husers⟩

/-- **Every release of its source hands the command of a mapping to the host**, once for each user that
the target means, as long as the mappings stay switched on: an engine that is on is switched off by
carrying out a request for that, and in no other way. -/
theorem received_per_release (file : ConfigFile) {id : Nat} {m : Mapping}
    (hm : file.compile.mappings[id]? = some m)
    (hcommand : (file.compile.vocabulary.descriptor m.target).cell = .command .reload ∨
      (file.compile.vocabulary.descriptor m.target).cell = .command .loadConfig)
    (hconditions : m.conditions = []) (htoggle : m.options.toggle = false)
    (husers : (file.compile.vocabulary.descriptor m.source).flags.ofUser = false)
    (hvar : (file.compile.vocabulary.descriptor m.source).cell ≠ .output .var)
    (hpair : (file.compile.vocabulary.descriptor m.source).pair = none) (calls : List Call)
    (hfed : ∀ call ∈ calls, call.source?.isSome = true)
    (hon : ∀ r ∈ (ofConfig file.compile).ordersAlong calls, r.command ≠ .toggleDisable) :
    (((ofConfig file.compile).afterAll calls).received id).length =
      (ofConfig file.compile).releases m.source calls *
        m.targetUser.count file.compile.settings.users := by
  have hconfig : file.compile.IsCompiled := ⟨file, rfl⟩
  have hmem := List.mem_of_getElem? hm
  obtain ⟨command, htarget, hhost⟩ : ∃ command,
      (file.compile.vocabulary.descriptor m.target).cell = .command command ∧
      (command = .reload ∨ command = .loadConfig) :=
    hcommand.elim (fun h => ⟨_, h, .inl rfl⟩) fun h => ⟨_, h, .inr rfl⟩
  -- A compiled mapping builds up no command, and in a fresh engine nothing is down or asked for.
  have hadd : m.options.add = false := by
    cases hadd : m.options.add with
    | false => rfl
    | true =>
      have hbuilds := hconfig.adds hmem hadd
      simp [MappingTable.buildsUp, htarget] at hbuilds
  have hlatch : (ofConfig file.compile).latch id = {} := install_latch _ _ _ _
  have hstart : Accounted id m command (m.targetUser.count file.compile.settings.users)
      (ofConfig file.compile) := {
    operated := .start hconfig
    gives := {
      wired := wired_install _ _ _
      binding := exists_install_binding _ _ hm
      target := (congrArg Descriptor.cell (install_descriptor _ _ _ _)).trans htarget
      host := hhost
      unconditional := hconditions
      options := ⟨htoggle, hadd⟩
      userless := by
        rw [ofConfig, install_descriptor]
        exact husers
      notVar := by
        rw [ofConfig, install_descriptor]
        exact hvar
      notPair := by
        rw [ofConfig, install_descriptor]
        exact hpair }
    on := install_disabled _ _ _
    means := length_targetUsers_install hconfig hmem _ _
    active := by
      rw [hlatch, ofConfig, isDown_install]
    users := by
      rw [hlatch]
      simp }
  have hnothing : (ofConfig file.compile).received id = [] :=
    filterMap_events_install (fun _ _ => rfl) (fun _ _ => rfl) _ _ _
  -- From there on each call keeps the account.
  rw [hstart.afterAll hfed hon, hnothing, List.length_nil, Nat.zero_add]

/-- Tab reloads the configuration, for both users and for the active one. -/
def reloadingConfig : ConfigFile :=
  { general := { users := some 2 }
    mappings :=
      [{ source := "Tab", target := "Reload@all" }, { source := "Tab", target := "Reload" }] }

/-- Tab is pressed, repeats, and is released; then its release comes once more. -/
def tabbing : List Call :=
  [.input ⟨0x09⟩ 0 true 1 0, .input ⟨0x09⟩ 0 true 1 1, .input ⟨0x09⟩ 0 false 0 2,
    .input ⟨0x09⟩ 0 false 0 3]

/-- The command for the active user is given once. -/
theorem received_per_release_tabbing :
    (ofConfig reloadingConfig.compile).releases ⟨0x09⟩ tabbing = 1 ∧
      (((ofConfig reloadingConfig.compile).afterAll tabbing).received 1).length = 1 := by
  have hmapping : (reloadingConfig.compile.mappings[1]?).map (fun m =>
      (m.source, m.targetUser, m.conditions.length, m.options.toggle,
        (reloadingConfig.compile.vocabulary.descriptor m.target).cell)) =
      some (⟨0x09⟩, .active, 0, false, .command .reload) := by
    decide +kernel
  have hreleases : (ofConfig reloadingConfig.compile).releases ⟨0x09⟩ tabbing = 1 := by
    decide +kernel
  have hsource : ((reloadingConfig.compile.vocabulary.descriptor ⟨0x09⟩).flags.ofUser,
      (reloadingConfig.compile.vocabulary.descriptor ⟨0x09⟩).cell,
      (reloadingConfig.compile.vocabulary.descriptor ⟨0x09⟩).pair) =
      (false, .output .keyboard, none) := by
    decide +kernel
  have hon : ∀ r ∈ (ofConfig reloadingConfig.compile).ordersAlong tabbing,
      r.command ≠ .toggleDisable := by
    decide +kernel
  obtain ⟨m, hm, hrest⟩ := Option.map_eq_some_iff.mp hmapping
  simp only [Prod.mk.injEq, List.length_eq_zero_iff] at hrest hsource
  obtain ⟨hkey, huser, hconditions, htoggle, hcell⟩ := hrest
  refine ⟨hreleases, ?_⟩
  rw [received_per_release reloadingConfig hm (.inl hcell) hconditions htoggle
    (by rw [hkey, hsource.1]) (by simp [hkey, hsource.2.1]) (by rw [hkey, hsource.2.2]) tabbing
    (by decide) hon, hkey, huser, hreleases]
  rfl

/-- The command for both users is given twice, with one release. -/
theorem received_twice_tabbing :
    (∃ m, reloadingConfig.compile.mappings[0]? = some m ∧ m.source = ⟨0x09⟩ ∧
      m.targetUser = .everyone ∧ m.conditions = [] ∧ m.options = ({} : MappingOptions) ∧
      (reloadingConfig.compile.vocabulary.descriptor m.target).cell = .command .reload) ∧
    (∀ r ∈ (ofConfig reloadingConfig.compile).ordersAlong tabbing, r.command ≠ .toggleDisable) ∧
    (ofConfig reloadingConfig.compile).releases ⟨0x09⟩ tabbing = 1 ∧
    (((ofConfig reloadingConfig.compile).afterAll tabbing).received 0).length = 2 := by
  have hmapping : (reloadingConfig.compile.mappings[0]?).map (fun m =>
      (m.source, m.targetUser, m.conditions.length, m.options,
        (reloadingConfig.compile.vocabulary.descriptor m.target).cell)) =
      some (⟨0x09⟩, .everyone, 0, ({} : MappingOptions), .command .reload) := by
    decide +kernel
  obtain ⟨m, hm, hrest⟩ := Option.map_eq_some_iff.mp hmapping
  simp only [Prod.mk.injEq, List.length_eq_zero_iff] at hrest
  refine ⟨⟨m, hm, hrest⟩, ?_, ?_, ?_⟩
  all_goals decide +kernel

end Engine

end VirtualPad
