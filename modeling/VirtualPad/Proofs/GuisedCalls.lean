import VirtualPad.Proofs.Guises
import VirtualPad.Proofs.SameVersion

/-!
# Calls in disguise

Two engines are the same in disguise if one of them is the other under some guise.  They stay so
whatever happens to both of them, with the same past: turns, requests, timers that go off on their own
clocks, releases and reloads.  So they give the same answers to all calls, and the host hears the same
from them.

* `Disguised.commit`: what a turn has gathered becomes visible in the same way.
* `Disguised.obey`: a request is carried out in the same way.
* `bind_relabel`: a mapping that is bound finds its slot without looking at versions and times.
* `Disguised.after`: the same calls lead to the same.
-/

namespace VirtualPad

/-- The second engine is the first one under a guise with that past. -/
def Engine.Disguised (past : Past) (e e' : Engine) : Prop :=
  ∃ g : Guise, g.toPast = past ∧ e' = e.under g

namespace Engine.Disguised

variable {past : Past} {e e' : Engine}

theorem intro (e : Engine) (g : Guise) : Disguised g.toPast e (e.under g) := ⟨g, rfl, rfl⟩

/-! ## §1 Turns -/

theorem commitPad (h : Disguised past e e') (time time' : Nat) (user : User) :
    Disguised past (Turn.commitPad time e user) (Turn.commitPad time' e' user) := by
  obtain ⟨g, rfl, rfl⟩ := h
  -- The pad gets the version that follows the one of the guise.
  refine ⟨{ g with
    labels := Function.update g.labels user ((g.labels user).1 + 1, time')
    snapshots := (Turn.commitPad time' (e.under g) user).journal.snapshots }, rfl, ?_⟩
  have hpads := e.pads.set_relabel g.labels user ((e.pads.pad user).commit time)
    ((g.labels user).1 + 1, time')
  have hpad : ((e.under g).pads.pad user).commit time' =
      ((e.pads.pad user).commit time).relabel ((g.labels user).1 + 1, time') := by
    rw [pads_under, PadBank.pad_relabel]
    rfl
  have hset : (Turn.commitPad time' (e.under g) user).pads =
      (Turn.commitPad time e user).pads.relabel
        (Function.update g.labels user ((g.labels user).1 + 1, time')) := by
    simp only [Turn.commitPad, hpad]
    exact hpads
  unfold under
  rw [← hset]
  rfl

theorem tellHost (h : Disguised past e e') (events : Array HostEvent) :
    Disguised past (Turn.tellHost e events) (Turn.tellHost e' events) := by
  obtain ⟨g, rfl, rfl⟩ := h
  refine ⟨g, rfl, ?_⟩
  simp [Turn.tellHost, under, Array.append_assoc]

theorem flush (h : Disguised past e e') (pointer wheel : Motion Float) :
    Disguised past
      (Turn.tellHost { e with remainder := (e.remainder.flush pointer wheel).1 }
        (e.remainder.flush pointer wheel).2.toArray)
      (Turn.tellHost { e' with remainder := (e'.remainder.flush pointer wheel).1 }
        (e'.remainder.flush pointer wheel).2.toArray) := by
  obtain ⟨g, rfl, rfl⟩ := h
  exact tellHost ⟨g, rfl, rfl⟩ _

theorem enqueue (h : Disguised past e e') (requests : List Request) :
    Disguised past { e with queue := e.queue ++ requests }
      { e' with queue := e'.queue ++ requests } := by
  obtain ⟨g, rfl, rfl⟩ := h
  exact ⟨g, rfl, rfl⟩

/-- **A turn that ends** is committed in the same way. -/
theorem commit (t : Turn) (g : Guise) (time : Nat) :
    Disguised g.toPast t.commit (t.under g time).commit := by
  have hpads : ∀ (users : List User) {e e' : Engine}, Disguised g.toPast e e' →
      Disguised g.toPast (users.foldl (Turn.commitPad t.time) e)
        (users.foldl (Turn.commitPad time) e') := by
    intro users
    induction users with
    | nil => exact fun h => h
    | cons user rest ih => exact fun h => ih (h.commitPad t.time time user)
  have htold := (hpads t.changed (.intro t.engine g)).tellHost t.effects
  -- Motion is flushed if there was any, and then the requests join the queue.
  cases hmoved : t.moved with
  | true =>
    have hflushed := (htold.flush t.pointer t.wheel).enqueue t.requests
    simpa [Turn.commit, Turn.under, hmoved] using hflushed
  | false =>
    have hquiet := htold.enqueue t.requests
    simpa [Turn.commit, Turn.under, hmoved] using hquiet

theorem inTurn (h : Disguised past e e') (time time' : Nat) {run : Turn → Turn}
    (hrun : ∀ (t : Turn) (g : Guise), run (t.under g time') = (run t).under g time') :
    Disguised past (e.inTurn time run) (e'.inTurn time' run) := by
  obtain ⟨g, rfl, rfl⟩ := h
  have hopened : ({ engine := e.under g, time := time' } : Turn) =
      ({ engine := e, time } : Turn).under g time' := rfl
  unfold Engine.inTurn
  rw [hopened, hrun]
  exact commit _ g time'

/-! ## §2 Requests -/

theorem mapLatch (h : Disguised past e e') (id : Nat) {change : Latch → Latch}
    (hchange : ∀ l tokens, change (l.shift tokens) = (change l).shift tokens) :
    Disguised past (e.mapLatch id change) (e'.mapLatch id change) := by
  obtain ⟨g, rfl, rfl⟩ := h
  exact ⟨g, rfl, mapLatch_under e g id fun l => hchange l g.tokens⟩

theorem forceReleaseAll (h : Disguised past e e') (time time' : Nat) :
    Disguised past (e.forceReleaseAll time) (e'.forceReleaseAll time') := by
  have hsize : e'.bindings.size = e.bindings.size := by
    obtain ⟨g, rfl, rfl⟩ := h
    exact size_under e g
  unfold Engine.forceReleaseAll
  rw [hsize]
  apply h.inTurn
  intro t g
  rw [Turn.foldl_under t g time' fun t id => Turn.forceRelease_under t g time' id]
  dsimp only [Turn.engine_under]
  rw [targetUsers_under]
  exact Turn.updatePads_under _ g time' _ fun p label => rfl

theorem setActiveUser (h : Disguised past e e') (user : User) :
    Disguised past (e.setActiveUser user) (e'.setActiveUser user) := by
  obtain ⟨g, rfl, rfl⟩ := h
  unfold Engine.setActiveUser
  rw [userCount_under]
  split
  · exact ⟨g, rfl, rfl⟩
  · exact ⟨g, rfl, rfl⟩

/-- A request is carried out in the same way. -/
theorem obey (h : Disguised past e e') (r : Request) (time time' : Nat) :
    Disguised past (e.obey r time) (e'.obey r time') := by
  -- All that a request looks at is the same on both sides.
  have hfacts : e'.disabled = e.disabled ∧ e'.bindings.size = e.bindings.size ∧
      e'.activeUser = e.activeUser ∧ e'.userCount = e.userCount ∧
      (e'.latch r.mapping).restoreUser = (e.latch r.mapping).restoreUser := by
    obtain ⟨g, rfl, rfl⟩ := h
    simp [Latch.shift]
  obtain ⟨hdisabled, hsize, hactive, hcount, hrestore⟩ := hfacts
  have hremember : ∀ before : Option User,
      Disguised past (e.mapLatch r.mapping fun l => { l with restoreUser := before })
        (e'.mapLatch r.mapping fun l => { l with restoreUser := before }) :=
    fun before => h.mapLatch r.mapping fun l tokens => rfl
  unfold Engine.obey
  rw [hdisabled, hsize, hactive, hcount, hrestore]
  cases r.command with
  | toggleDisable =>
    dsimp only
    split
    · obtain ⟨g, rfl, rfl⟩ := h
      exact ⟨g, rfl, rfl⟩
    · obtain ⟨g, rfl, hreleased⟩ := h.forceReleaseAll time time'
      exact ⟨g, rfl, by rw [hreleased]; rfl⟩
  | setActiveUser => exact h.setActiveUser r.user
  | holdActiveUser =>
    dsimp only
    split
    · exact h
    · split
      · exact (hremember _).setActiveUser r.user
      · split
        · exact h
        · exact (hremember none).setActiveUser _
  | toggleConnected =>
    dsimp only
    split
    · apply h.inTurn
      intro t g
      exact Turn.updatePad_under t g time' _ fun p label => rfl
    · exact h
  | reload | loadConfig => exact h.tellHost _

theorem obeyAll (h : Disguised past e e') (time time' bound : Nat) :
    Disguised past (obeyAll time bound e) (obeyAll time' bound e') := by
  induction bound generalizing e e' with
  | zero => exact h
  | succ bound ih =>
    have hqueue : e'.queue = e.queue := by
      obtain ⟨g, rfl, rfl⟩ := h
      rfl
    unfold Engine.obeyAll
    rw [hqueue]
    cases e.queue with
    | nil => exact h
    | cons r rest =>
      have htaken : Disguised past { e with queue := rest } { e' with queue := rest } := by
        obtain ⟨g, rfl, rfl⟩ := h
        exact ⟨g, rfl, rfl⟩
      exact ih (htaken.obey r time time')

theorem drainQueue (h : Disguised past e e') (time time' : Nat) :
    Disguised past (e.drainQueue time) (e'.drainQueue time') := by
  have hbound : e'.queue.length + userLimit * e'.bindings.size =
      e.queue.length + userLimit * e.bindings.size := by
    obtain ⟨g, rfl, rfl⟩ := h
    simp
  unfold Engine.drainQueue
  rw [hbound]
  exact h.obeyAll time time' _

theorem releaseAll (h : Disguised past e e') (time time' : Nat) :
    Disguised past (e.releaseAll time) (e'.releaseAll time') :=
  (h.forceReleaseAll time time').drainQueue time time'

/-! ## §3 Events -/

theorem setTime (h : Disguised past e e') (time time' : Nat) :
    Disguised past { e with lastTime := time } { e' with lastTime := time' } := by
  obtain ⟨g, rfl, rfl⟩ := h
  exact ⟨{ g with lastTime := time' }, rfl, rfl⟩

/-- A source that moves leads to the same, and the same is answered. -/
theorem accept (h : Disguised past e e') (c : Control) (pulse : Pulse) (time : Nat) :
    Disguised past (e.accept c pulse time).1 (e'.accept c pulse time).1 ∧
      (e'.accept c pulse time).2 = (e.accept c pulse time).2 := by
  -- Both engines take the time of the event, so the turn opens under the guise.
  obtain ⟨g, rfl, hstart⟩ := h.setTime time time
  have hfed := Turn.feed_under g time (cascadeRoom + 1) { engine := { e with lastTime := time }, time }
    c pulse
  have hopened : ({ engine := { e' with lastTime := time }, time } : Turn) =
      ({ engine := { e with lastTime := time }, time } : Turn).under g time := by
    rw [hstart]
    rfl
  unfold Engine.accept
  simp only [hopened, hfed, Turn.underFst]
  exact ⟨(commit _ g time).drainQueue time time, trivial⟩

/-- A timer that goes off is known by its later token. -/
theorem onTimer (h : Disguised past e e') (token : TimerToken) (time : Nat) :
    Disguised past (e.onTimer token time) (e'.onTimer (token + past.tokens) time) := by
  obtain ⟨g, rfl, hstart⟩ := h.setTime time time
  have huse : e'.timerUse? (token + g.tokens) =
      (e.timerUse? token).map fun use => use.shift g.tokens := by
    have htimed := timerUse?_under { e with lastTime := time } g token
    rw [← hstart] at htimed
    exact htimed
  unfold Engine.onTimer
  rw [huse]
  cases e.timerUse? token with
  | none => exact h
  | some use =>
    have hopened : ({ engine := { e' with lastTime := time }, time } : Turn) =
        ({ engine := { e with lastTime := time }, time } : Turn).under g time := by
      rw [hstart]
      rfl
    dsimp only [Option.map_some]
    unfold Engine.inTurn
    rw [hopened]
    dsimp only
    rw [Turn.tick_under]
    exact (commit _ g time).drainQueue time time

end Engine.Disguised

/-! ## §4 Time -/

namespace Clock

variable (tokens : TimerToken) (armings : Nat)

theorem earliest?_shift (timers : List Timer) :
    earliest? (timers.map fun t => t.shift tokens armings) =
      (earliest? timers).map fun t => t.shift tokens armings := by
  have hbefore : ∀ a b : Timer, (a.shift tokens armings).before (b.shift tokens armings) =
      a.before b := by
    intro a b
    have horder : decide (a.order + armings < b.order + armings) = decide (a.order < b.order) := by
      simp
    exact congrArg (fun first => decide (a.due < b.due) || (a.due == b.due && first)) horder
  induction timers with
  | nil => rfl
  | cons t rest ih =>
    simp only [List.map_cons, earliest?, ih]
    cases earliest? rest with
    | none => rfl
    | some u =>
      simp only [Option.map_some, hbefore]
      split <;> rfl

theorem fire_shift (c : Clock) (t : Timer) :
    (c.shift tokens armings).fire (t.shift tokens armings) =
      (c.fire t).shift tokens armings := by
  have htimers : (c.timers.map fun t => t.shift tokens armings).filter
      (fun u => u.order != t.order + armings) =
      (c.timers.filter fun u => u.order != t.order).map fun t => t.shift tokens armings := by
    rw [List.filter_map]
    congr 1
    apply List.filter_congr
    intro u _
    simp [Timer.shift, bne]
  -- The timer has left the clock; if it repeats it is armed again, as the next one in order.
  have hfired : ({ c.shift tokens armings with
      now := max c.now t.due
      timers := (c.timers.map fun t => t.shift tokens armings).filter
        fun u => u.order != t.order + armings } : Clock) =
      ({ c with
        now := max c.now t.due
        timers := c.timers.filter fun u => u.order != t.order } : Clock).shift tokens armings := by
    rw [htimers]
    rfl
  unfold fire
  cases hperiod : t.period with
  | none => simpa [Timer.shift, hperiod, shift] using hfired
  | some period =>
    dsimp only [Timer.shift]
    rw [hperiod]
    dsimp only
    rw [← arm_shift, ← hfired]
    rfl

/-- The next timer is the same one, by its later token. -/
theorem nextDue?_shift (c : Clock) (limit : Nanoseconds) :
    (c.shift tokens armings).nextDue? limit = (c.nextDue? limit).map fun (token, due, clock) =>
      (token + tokens, due, clock.shift tokens armings) := by
  have htimer : (c.shift tokens armings).nextTimer? limit =
      (c.nextTimer? limit).map fun t => t.shift tokens armings := by
    unfold nextTimer?
    rw [← earliest?_shift]
    congr 1
    simp only [shift, List.filter_map]
    rfl
  unfold nextDue?
  rw [htimer]
  cases c.nextTimer? limit with
  | none => rfl
  | some t =>
    simp only [Option.map_some, fire_shift]
    rfl

theorem advanceTo_shift (c : Clock) (limit : Nanoseconds) :
    (c.shift tokens armings).advanceTo limit = (c.advanceTo limit).shift tokens armings := rfl

end Clock

namespace Engine.Disguised

variable {past : Past} {e e' : Engine}

theorem setClock (h : Disguised past e e') (clock : Clock) :
    Disguised past { e with clock } { e' with clock := clock.shift past.tokens past.armings } := by
  obtain ⟨g, rfl, rfl⟩ := h
  exact ⟨g, rfl, rfl⟩

theorem clock (h : Disguised past e e') :
    e'.clock = e.clock.shift past.tokens past.armings := by
  obtain ⟨g, rfl, rfl⟩ := h
  rfl

/-- The same timers go off. -/
theorem runDue (h : Disguised past e e') (limit : Nanoseconds) (bound : Nat) :
    Disguised past (runDue limit bound e) (runDue limit bound e') := by
  induction bound generalizing e e' with
  | zero => exact h
  | succ bound ih =>
    unfold Engine.runDue
    rw [h.clock, Clock.nextDue?_shift]
    cases e.clock.nextDue? limit with
    | none => exact h
    | some next =>
      -- The other clock announces the same timer by its later token.
      obtain ⟨token, due, clock⟩ := next
      exact ih ((h.setClock clock).onTimer token _)

theorem runUntil (h : Disguised past e e') (ms : Nat) :
    Disguised past (e.runUntil ms) (e'.runUntil ms) := by
  have hbound : ∀ limit, e'.tickBound limit = e.tickBound limit := by
    obtain ⟨g, rfl, rfl⟩ := h
    intro limit
    simp [tickBound, under, Clock.shift]
  have hrun := h.runDue (Nanoseconds.ofMillis ms) (e.tickBound (Nanoseconds.ofMillis ms))
  unfold Engine.runUntil
  dsimp only
  rw [hbound, hrun.clock, Clock.advanceTo_shift]
  exact hrun.setClock _

/-! ## §5 Reloading -/

theorem cancelTimers (h : Disguised past e e') :
    Disguised past e.cancelTimers e'.cancelTimers := by
  have hcancel : ∀ (uses : List TimerUse) {e e' : Engine}, Disguised past e e' →
      Disguised past (uses.foldl (fun e t => e.ask (.cancel t.token)) e)
        ((uses.map fun use => use.shift past.tokens).foldl
          (fun e t => e.ask (.cancel t.token)) e') := by
    intro uses
    induction uses with
    | nil => exact fun h => h
    | cons use rest ih =>
      rintro e e' ⟨g, rfl, rfl⟩
      exact ih ⟨g, rfl, ask_under e g (.cancel use.token)⟩
  have htimers : e'.timers = e.timers.map fun use => use.shift past.tokens := by
    obtain ⟨g, rfl, rfl⟩ := h
    rfl
  unfold Engine.cancelTimers
  rw [htimers]
  exact hcancel e.timers h

theorem vacate (h : Disguised past e e') (config : Config) :
    Disguised past (e.vacate config) (e'.vacate config) := by
  obtain ⟨g, rfl, rfl⟩ := h
  refine ⟨g, rfl, ?_⟩
  simp only [Engine.vacate, under, PadBank.relabel, List.map_nil, Array.map_empty]
  rfl

end Engine.Disguised

namespace PadBank

variable (b : PadBank) (labels : User → Nat × Nat)

theorem owned_relabel (users : List User) (cell : PadCell) :
    (b.relabel labels).owned users cell = b.owned users cell := by
  have hpad : ∀ user, ((b.relabel labels).pad user).owned cell = (b.pad user).owned cell := by
    intro user
    rw [pad_relabel]
    cases cell <;> rfl
  unfold owned
  simp only [hpad]

theorem claim_relabel (users : List User) (cell : PadCell) (slot : Slot) :
    (b.relabel labels).claim users cell slot = (b.claim users cell slot).relabel labels := by
  unfold claim
  induction users generalizing b with
  | nil => rfl
  | cons user rest ih =>
    have hclaim : ((b.relabel labels).pad user).claim cell slot =
        ((b.pad user).claim cell slot).relabel (labels user) := by
      rw [pad_relabel]
      cases cell <;> rfl
    rw [List.foldl_cons, hclaim, relabel_set, ih]
    rfl

end PadBank

namespace Engine

theorem resetPads_under (config : Config) (t : Turn) (g : Guise) (time : Nat) :
    resetPads config (t.under g time) = (resetPads config t).under g time := by
  rw [resetPads_eq, resetPads_eq]
  apply Turn.foldl_under
  intro t user
  exact Turn.updatePad_under t g time user fun p label => rfl

/-- A mapping that is bound gets the slot that it claims. -/
theorem bind_eq (e : Engine) (m : Mapping) :
    e.bind m = { e with
      bindings := e.bindings.push { mapping := m, slot := (e.claimSlot m).2 }
      pads := (e.bind m).pads
      outputs := (e.bind m).outputs } := by
  unfold bind claimSlot
  cases (e.descriptor m.target).cell with
  | pad cell =>
    dsimp only
    cases (e.pads.owned (e.slotUsers m.targetUser) cell).lowestFree? <;> rfl
  | output kind =>
    dsimp only
    cases Mask.lowestFree? ((e.outputs[m.target]?).getD {}).owned <;> rfl
  | _ => rfl

/-- **Binding a mapping** looks at the vocabulary, at the outputs and at the slots of the pads, and at
nothing else. -/
theorem bind_relabel {e e' : Engine} {labels : User → Nat × Nat}
    (hvocabulary : e'.vocabulary = e.vocabulary) (hpads : e'.pads = e.pads.relabel labels)
    (houtputs : e'.outputs = e.outputs) (m : Mapping) :
    e'.bind m = { e' with
      bindings := e'.bindings.push { mapping := m, slot := (e.claimSlot m).2 }
      pads := (e.bind m).pads.relabel labels
      outputs := (e.bind m).outputs } := by
  have hdescriptor : e'.descriptor m.target = e.descriptor m.target := by
    unfold descriptor
    rw [hvocabulary]
  have hcount : e'.userCount = e.userCount := by
    unfold userCount
    rw [hpads, PadBank.count_relabel]
  have husers : e'.slotUsers m.targetUser = e.slotUsers m.targetUser := by
    cases m.targetUser <;> simp only [slotUsers, targetUsers, hcount]
  unfold bind claimSlot
  rw [hdescriptor, husers, hpads, houtputs]
  cases (e.descriptor m.target).cell with
  | pad cell =>
    dsimp only
    rw [PadBank.owned_relabel]
    cases (e.pads.owned (e.slotUsers m.targetUser) cell).lowestFree? with
    | none => simp [hpads, houtputs]
    | some slot => simp [PadBank.claim_relabel]
  | output kind =>
    dsimp only
    cases Mask.lowestFree? ((e.outputs[m.target]?).getD {}).owned <;> simp
  | _ => simp [hpads, houtputs]

theorem bind_under (e : Engine) (g : Guise) (m : Mapping) :
    (e.under g).bind m = (e.bind m).under g := by
  rw [bind_relabel (vocabulary_under e g) rfl rfl m, bind_eq e m]
  simp [under, Binding.shift, Latch.shift]

namespace Disguised

variable {past : Past} {e e' : Engine}

theorem install (h : Disguised past e e') (config : Config) (time time' : Nat) :
    Disguised past (e.install config time) (e'.install config time') := by
  have hbinds : ∀ (mappings : List Mapping) {e e' : Engine}, Disguised past e e' →
      Disguised past (mappings.foldl bind e) (mappings.foldl bind e') := by
    intro mappings
    induction mappings with
    | nil => exact fun h => h
    | cons m rest ih =>
      rintro e e' ⟨g, rfl, rfl⟩
      exact ih ⟨g, rfl, bind_under e g m⟩
  have hreset := (h.vacate config).inTurn time time'
    fun t g => resetPads_under config t g time'
  exact hbinds config.mappings hreset

/-- A reload leads to the same. -/
theorem reload (h : Disguised past e e') (config : Config) :
    Disguised past (e.reload config) (e'.reload config) :=
  (((h.releaseAll e.lastTime e'.lastTime).cancelTimers).install config e.lastTime
    e'.lastTime).drainQueue e.lastTime e'.lastTime

/-! ## §6 Calls -/

/-- **The same calls** lead to the same, and get the same answers. -/
theorem after (h : Disguised past e e') (call : Call) :
    Disguised past (e.after call) (e'.after call) ∧ e'.answer call = e.answer call := by
  cases call with
  | input source user down strength time =>
    dsimp only [Engine.after, Engine.answer, Engine.processInput]
    split
    · exact h.accept source _ time
    · exact ⟨h, rfl⟩
  | motion source user magnitude time =>
    dsimp only [Engine.after, Engine.answer, Engine.processRelative]
    split
    · split
      · exact h.accept source _ time
      · exact ⟨h, rfl⟩
    · exact ⟨h, rfl⟩
  | runUntil ms => exact ⟨h.runUntil ms, rfl⟩
  | releaseAll time => exact ⟨h.releaseAll time time, rfl⟩
  | reload config => exact ⟨h.reload config, rfl⟩

end Disguised

end Engine

end VirtualPad
