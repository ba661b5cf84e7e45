import VirtualPad.Proofs.Histories

/-!
# What holds at every reachable engine

A property of engines is `Stable` when it is kept by everything an engine is made of: the moves of
single bindings, sources, chores, forced releases, timers that go off, and installations.  Whatever
is stable and holds at the start holds at every reachable engine.

The induction over calls, requests and ticks is done here, once for all properties.  It is done for
properties of an engine together with its history, `StableAlong`; those that do not look at the
history are a special case.
-/

namespace VirtualPad

/-! ## §1 What the parts of a turn keep -/

/-- Committing a turn is a series of chores. -/
theorem Turn.commit_keeps {P : Engine → Prop}
    (hchore : ∀ {e e' : Engine}, Engine.Chore e e' → P e → P e') (t : Turn) (ht : P t.engine) :
    P t.commit := by
  have htell : ∀ (e : Engine) (events : Array HostEvent), P e → P (Turn.tellHost e events) :=
    fun e events he => hchore (.note e e.queue e.remainder e.lastTime
      e.journal.snapshots (e.journal.events ++ events)) he
  -- Pads are labelled, the host is told, motion is flushed and requests are queued, in this order.
  have hpads : P (t.changed.foldl (Turn.commitPad t.time) t.engine) := by
    generalize t.changed = users
    generalize t.engine = e at ht
    induction users generalizing e with
    | nil => exact ht
    | cons user rest ih =>
      apply ih
      have hlabel : Engine.Chore e _ :=
        .label user ((e.pads.pad user).commit t.time) ⟨rfl, rfl, rfl⟩
      exact hchore (.note _ e.queue e.remainder e.lastTime _ e.journal.events)
        (hchore hlabel ht)
  have htold := htell _ t.effects hpads
  unfold Turn.commit
  dsimp only
  generalize Turn.tellHost (t.changed.foldl (Turn.commitPad t.time) t.engine) t.effects = told at htold ⊢
  have hflushed : P (if t.moved then Turn.tellHost
      { told with remainder := (told.remainder.flush t.pointer t.wheel).1 }
      (told.remainder.flush t.pointer t.wheel).2.toArray else told) := by
    split
    · exact htell _ _ (hchore (.note told told.queue _ told.lastTime
        told.journal.snapshots told.journal.events) htold)
    · exact htold
  generalize (if t.moved then _ else _ : Engine) = flushed at hflushed ⊢
  exact hchore (.note flushed (flushed.queue ++ t.requests) flushed.remainder
    flushed.lastTime flushed.journal.snapshots flushed.journal.events) hflushed

section

variable {Q : List Heard → Engine → Prop}
  (hquiet : ∀ {history : List Heard} {t t' : Turn}, Turn.Move t t' → Turn.Quiet t t' →
    Q history t.engine → Q history t'.engine)
  (hanswer : Turn.AnswerKeeps Q)
  (hfeed : ∀ room, Turn.KeepsAlong Q (Turn.feed room) (Turn.logFeed room))
  (history : List Heard)

include hquiet hanswer hfeed

theorem Engine.forceRelease_along (t : Turn) (ids : List Nat) (ht : Q history t.engine) :
    Q (Turn.logWalk Engine.forceRelease Engine.logForceRelease t ids history)
      (ids.foldl Engine.forceRelease t).engine := by
  refine Turn.foldl_along (fun {history} t id ht => ?_) t ids ht
  unfold Engine.logForceRelease Engine.forceRelease
  refine hquiet (.stop id) (Turn.quiet_of_untimed (Engine.untimed_stopTimer _ id)) ?_
  by_cases hlatched : (t.engine.latch id).isLatched = true
  · rw [if_pos hlatched, if_pos hlatched]
    exact Turn.release_along hquiet hanswer (hfeed cascadeRoom) t id ht
  · rw [if_neg hlatched, if_neg hlatched]
    exact ht

/-- Releasing everything keeps what the quiet moves, the answers, the sources and the chores keep, if
emptying the pads does. -/
theorem Engine.forceReleaseAll_along
    (hchore : ∀ {history : List Heard} {e e' : Engine}, Engine.Chore e e' → Q history e →
      Q history e')
    (hclear : ∀ {history : List Heard} (e : Engine) (users : List User), Q history e →
      Q history { e with pads := e.pads.change users Pad.releaseAll })
    (e : Engine) (time : Nat) (he : Q history e) :
    Q (e.logForceReleaseAll time history) (e.forceReleaseAll time) := by
  refine Turn.commit_keeps hchore _ ?_
  dsimp only
  rw [Turn.engine_updatePads]
  exact hclear _ _ (Engine.forceRelease_along hquiet hanswer hfeed history _ _ he)

end

section

variable {P : Engine → Prop}
  (hmove : ∀ {t t' : Turn}, Turn.Move t t' → P t.engine → P t'.engine)
  (hfeed : ∀ room, Turn.Keeps P (Turn.feed room))

include hmove hfeed

theorem Engine.forceRelease_keeps (t : Turn) (ids : List Nat) (ht : P t.engine) :
    P (ids.foldl Engine.forceRelease t).engine := by
  have hrun := Engine.forceRelease_along (Q := fun _ => P) (fun h _ ht => hmove h ht)
    (fun hb hreaches hrespond ht => hmove (.firstStep hb hreaches hrespond) ht)
    (fun room => (hfeed room).along _) [] t ids
  exact hrun ht

/-- Releasing everything keeps what the moves, the sources and the chores keep, if emptying the pads
does. -/
theorem Engine.forceReleaseAll_keeps
    (hchore : ∀ {e e' : Engine}, Engine.Chore e e' → P e → P e')
    (hclear : ∀ (e : Engine) (users : List User), P e →
      P { e with pads := e.pads.change users Pad.releaseAll })
    (e : Engine) (time : Nat) (he : P e) : P (e.forceReleaseAll time) := by
  have hrun := Engine.forceReleaseAll_along (Q := fun _ => P) (fun h _ ht => hmove h ht)
    (fun hb hreaches hrespond ht => hmove (.firstStep hb hreaches hrespond) ht)
    (fun room => (hfeed room).along _) [] hchore hclear e time
  exact hrun he

end

/-! ## §2 Stable properties -/

/-- What is done about requests keeps the property, together with what has been answered. -/
structure KeptByRequests (Q : List Heard → Engine → Prop) : Prop where
  chore {history : List Heard} {e e' : Engine} : Engine.Chore e e' → Q history e → Q history e'
  /-- Everything is released, and the mappings may be switched off after that. -/
  force {history : List Heard} (e : Engine) (time : Nat) : Q history e →
    Q (e.logForceReleaseAll time history) (e.forceReleaseAll time) ∧
      Q (e.logForceReleaseAll time history) (e.forceReleaseAll time).switchOff

/-- What is done in turns keeps the property too. -/
structure KeptInTurns (Q : List Heard → Engine → Prop) : Prop extends KeptByRequests Q where
  quiet {history : List Heard} {t t' : Turn} : Turn.Move t t' → Turn.Quiet t t' →
    Q history t.engine → Q history t'.engine
  answer : Turn.AnswerKeeps Q
  feed (room : Nat) : Turn.KeepsAlong Q (Turn.feed room) (Turn.logFeed room)

/-- Everything an engine does keeps the property, together with what has been answered. -/
structure StableAlong (admits : Config → Prop) (Q : List Heard → Engine → Prop) : Prop
    extends KeptInTurns Q where
  /-- A timer of a binding goes off, and what becomes of the timer is settled. -/
  lapse {history : List Heard} {e : Engine} {limit due : Nanoseconds} {token : TimerToken}
    {clock : Clock} {use : TimerUse} {b : Binding}
    (hdue : e.clock.nextDue? limit = some (token, due, clock))
    (huse : e.timerUse? token = some use) (hb : e.bindings[use.binding]? = some b) :
    Q history e → Q history (({ e with clock } : Engine).lapse use)
  /-- A timer goes off that belongs to no binding. -/
  stray {history : List Heard} {e : Engine} {limit due : Nanoseconds} {token : TimerToken}
    {clock : Clock} (hdue : e.clock.nextDue? limit = some (token, due, clock))
    (huse : ∀ use b, e.timerUse? token = some use → e.bindings[use.binding]? ≠ some b) :
    Q history e → Q history { e with clock }
  /-- A configuration is installed, and nothing has been answered since. -/
  install {history : List Heard} (e : Engine) {config : Config} (time : Nat) :
    admits config → Q history e → Q [] (e.cancelTimers.install config time)

/-! ## §3 Requests -/

namespace KeptByRequests

variable {Q : List Heard → Engine → Prop} (hQ : KeptByRequests Q) {history : List Heard}

include hQ

theorem commit (t : Turn) (ht : Q history t.engine) : Q history t.commit :=
  Turn.commit_keeps hQ.chore t ht

/-- Making another user the active one is a chore, if there is a pad for that user. -/
theorem setActiveUser (e : Engine) (user : User) (he : Q history e) :
    Q history (e.setActiveUser user) := by
  unfold Engine.setActiveUser
  split
  · rename_i huser
    exact hQ.chore (.activate user huser) he
  · exact he

theorem obey (e : Engine) (r : Request) (time : Nat) (he : Q history e) :
    Q (e.logObey r time history) (e.obey r time) := by
  unfold Engine.logObey Engine.obey
  cases r.command with
  | toggleDisable =>
    dsimp only
    by_cases hdisabled : e.disabled = true
    · rw [if_pos hdisabled, if_pos hdisabled]
      exact hQ.chore (.enable e) he
    · rw [if_neg hdisabled, if_neg hdisabled]
      exact (hQ.force e time he).2
  | setActiveUser => exact hQ.setActiveUser e r.user he
  | holdActiveUser =>
    dsimp only
    split
    · exact he
    · split
      · exact hQ.setActiveUser _ r.user (hQ.chore (.remember e r.mapping (some e.activeUser)) he)
      · split
        · exact he
        · exact hQ.setActiveUser _ _ (hQ.chore (.remember e r.mapping none) he)
  | toggleConnected =>
    dsimp only
    split
    · refine hQ.commit _ ?_
      rw [Turn.engine_updatePad]
      exact hQ.chore (.label r.user _ ⟨rfl, rfl, rfl⟩) he
    · exact he
  | reload => exact hQ.chore (.note e e.queue e.remainder e.lastTime e.journal.snapshots _) he
  | loadConfig => exact hQ.chore (.note e e.queue e.remainder e.lastTime e.journal.snapshots _) he

theorem obeyAll (time bound : Nat) (e : Engine) (he : Q history e) :
    Q (Engine.logObeyAll time bound e history) (Engine.obeyAll time bound e) := by
  induction bound generalizing e history with
  | zero => exact he
  | succ bound ih =>
    unfold Engine.logObeyAll Engine.obeyAll
    cases e.queue with
    | nil => exact he
    | cons r rest =>
      exact ih _ (hQ.obey _ r time (hQ.chore (.note e rest e.remainder e.lastTime
        e.journal.snapshots e.journal.events) he))

theorem drainQueue (e : Engine) (time : Nat) (he : Q history e) :
    Q (e.logDrain time history) (e.drainQueue time) :=
  hQ.obeyAll time _ e he

theorem releaseAll (e : Engine) (time : Nat) (he : Q history e) :
    Q (e.logReleaseAll time history) (e.releaseAll time) :=
  hQ.drainQueue _ time (hQ.force e time he).1

end KeptByRequests

/-! ## §4 Turns -/

/-- Once the timer itself has been dealt with, its binding has the same source and the same target as
before, and a timer that makes it blink is still on the table. -/
theorem Turn.lapsed_binding {t lapsed : Turn} {use : TimerUse} {b : Binding}
    (hlapse : (t.mapEngine fun e => e.lapse use) = lapsed) (huse : use ∈ t.engine.timers)
    (hb : t.engine.bindings[use.binding]? = some b) :
    ∃ b', lapsed.engine.bindings[use.binding]? = some b' ∧ lapsed.sourceOf b' = t.sourceOf b ∧
      lapsed.targetOf b' = t.targetOf b ∧ (use.kind = .turbo → use ∈ lapsed.engine.timers) := by
  subst hlapse
  have hlayout := Engine.layout_of_untimed (Engine.untimed_lapse t.engine use)
  obtain ⟨b', hb', hmapping, -⟩ := Engine.binding_congr hlayout hb
  refine ⟨b', hb', Turn.sourceOf_congr hlayout hmapping, Turn.targetOf_congr hlayout hmapping,
    fun hkind => ?_⟩
  show use ∈ (t.engine.lapse use).timers
  unfold Engine.lapse
  rw [hkind]
  exact huse

namespace KeptInTurns

variable {Q : List Heard → Engine → Prop} (hQ : KeptInTurns Q) {history : List Heard}

include hQ

/-- A tick keeps the property, if it holds once the timer itself has been dealt with. -/
theorem tick {t : Turn} {use : TimerUse} {b : Binding}
    (huse : use ∈ t.engine.timers) (hb : t.engine.bindings[use.binding]? = some b)
    (hlapse : Q history (t.engine.lapse use)) :
    Q (t.logTick use history) (t.tick use).engine := by
  have hlisten : Turn.KeepsAlong Q Turn.listen (Turn.logFeed cascadeRoom) := hQ.feed cascadeRoom
  have hafter : Q history (t.mapEngine fun e => e.lapse use).engine := hlapse
  obtain ⟨b', hb', hsource, htarget, hstays⟩ := Turn.lapsed_binding rfl huse hb
  unfold Turn.logTick Turn.tick
  dsimp only
  rw [hb]
  dsimp only
  generalize (t.mapEngine fun e => e.lapse use) = t' at hafter hsource htarget hb' hstays ⊢
  cases hkind : use.kind with
  | turbo =>
    have hblink := hQ.quiet (.blink hb' ⟨use, hstays hkind, rfl, hkind⟩) (Turn.quiet_blink _ _ _ _)
      hafter
    rw [hsource, htarget] at hblink
    exact Turn.relay_along hlisten _ _ _ hblink
  | release => exact Turn.runBinding_along hQ.quiet hQ.answer hlisten t' _ _ _ hafter
  | repeating =>
    have hgo := hQ.quiet (.goOn hb') (Turn.quiet_goOn _ _ _) hafter
    rw [htarget] at hgo
    exact hgo
  | rotate =>
    have hturn := hQ.quiet (.turnStick hb') (Turn.quiet_turnStick _ _ _) hafter
    rw [htarget] at hturn
    exact hturn
  | keyRepeatDelay | keyRepeat =>
    show Q history (t'.repeatKey _ _).engine
    rw [Turn.engine_repeatKey]
    exact hafter

/-- Feeding a source in a turn of its own keeps the property. -/
theorem accept (e : Engine) (source : Control) (pulse : Pulse) (time : Nat) (he : Q history e) :
    Q (e.logAccept source pulse time history) (e.accept source pulse time).1 := by
  have htimed : Q history { e with lastTime := time } := hQ.chore (.note e e.queue e.remainder
    time e.journal.snapshots e.journal.events) he
  have hfed := (hQ.feed (cascadeRoom + 1)).keeps { engine := { e with lastTime := time }, time }
    source pulse htimed
  exact hQ.drainQueue _ time (hQ.commit _ hfed)

/-- A timer that goes off keeps the property, if what becomes of the timer does. -/
theorem onTimer {e : Engine} {token : TimerToken} (time : Nat)
    (hstray : (∀ use b, e.timerUse? token = some use → e.bindings[use.binding]? ≠ some b) →
      Q history e)
    (hlapse : ∀ use b, e.timerUse? token = some use → e.bindings[use.binding]? = some b →
      Q history (({ e with lastTime := time } : Engine).lapse use)) :
    Q (e.logTimer token time history) (e.onTimer token time) := by
  unfold Engine.logTimer Engine.onTimer
  cases huse : e.timerUse? token with
  | none =>
    refine hstray fun use b hfound => ?_
    rw [huse] at hfound
    contradiction
  | some use =>
    refine hQ.drainQueue _ time (hQ.commit _ ?_)
    cases hb : e.bindings[use.binding]? with
    | none =>
      have hstays : Q history { e with lastTime := time } := by
        refine hQ.chore (.note e e.queue e.remainder time e.journal.snapshots e.journal.events)
          (hstray ?_)
        intro use' b hfound hb'
        obtain rfl : use' = use := Option.some.inj (hfound.symm.trans huse)
        rw [hb] at hb'
        contradiction
      unfold Turn.logTick Turn.tick
      dsimp only
      rw [hb]
      exact hstays
    | some b => exact hQ.tick (List.mem_of_find?_eq_some huse) hb (hlapse use b huse hb)

end KeptInTurns

/-! ## §5 Calls -/

namespace StableAlong

variable {admits : Config → Prop} {Q : List Heard → Engine → Prop} (hQ : StableAlong admits Q)
  {history : List Heard}

include hQ

/-- A timer that goes off by the clock keeps the property. -/
theorem expire {e : Engine} {limit due : Nanoseconds} {token : TimerToken} {clock : Clock}
    (time : Nat) (hdue : e.clock.nextDue? limit = some (token, due, clock)) (he : Q history e) :
    Q (({ e with clock } : Engine).logTimer token time history)
      (({ e with clock } : Engine).onTimer token time) := by
  have htimed : Q history { e with lastTime := time } := hQ.chore (.note e e.queue e.remainder
    time e.journal.snapshots e.journal.events) he
  exact hQ.onTimer time (fun hstray => hQ.stray hdue hstray he) fun use b huse hb =>
    hQ.lapse (e := { e with lastTime := time }) hdue huse hb htimed

theorem runDue (limit : Nanoseconds) (bound : Nat) (e : Engine) (he : Q history e) :
    Q (Engine.logDue limit bound e history) (Engine.runDue limit bound e) := by
  induction bound generalizing e history with
  | zero => exact he
  | succ bound ih =>
    unfold Engine.logDue Engine.runDue
    cases hdue : e.clock.nextDue? limit with
    | none => exact he
    | some next =>
      obtain ⟨token, due, clock⟩ := next
      exact ih _ (hQ.expire _ hdue he)

/-- A configuration that takes the place of another keeps the property. -/
theorem reload (e : Engine) {config : Config} (hconfig : admits config) (he : Q history e) :
    Q (e.logCall history (.reload config)) (e.reload config) := by
  have hfree := hQ.releaseAll e e.lastTime he
  exact hQ.drainQueue _ e.lastTime (hQ.install _ e.lastTime hconfig hfree)

theorem after (e : Engine) (call : Call) (hcall : call.Admitted admits) (he : Q history e) :
    Q (e.logCall history call) (e.after call) := by
  cases call with
  | input source user down strength time =>
    unfold Engine.logCall Engine.after Engine.processInput
    dsimp only
    by_cases huser : user < userLimit
    · rw [dif_pos huser, dif_pos huser]
      exact hQ.accept e source _ time he
    · rw [dif_neg huser, dif_neg huser]
      exact he
  | motion source user magnitude time =>
    unfold Engine.logCall Engine.after Engine.processRelative
    dsimp only
    by_cases huser : user < userLimit
    · rw [dif_pos huser, dif_pos huser]
      by_cases hfinite : magnitude.isFinite = true
      · rw [if_pos hfinite, if_pos hfinite]
        exact hQ.accept e source _ time he
      · rw [if_neg hfinite, if_neg hfinite]
        exact he
    · rw [dif_neg huser, dif_neg huser]
      exact he
  | runUntil ms =>
    exact hQ.chore (.advance _ _) (hQ.runDue _ _ e he)
  | releaseAll time => exact hQ.releaseAll e time he
  | reload config => exact hQ.reload e hcall he

/-- **The induction over runs.** What is stable along histories and holds of every engine that starts
holds of every engine with the history that it has come about by. -/
theorem traced (hstart : ∀ {config : Config}, admits config → Q [] (Engine.ofConfig config))
    {e : Engine} (he : Engine.Traced admits history e) : Q history e := by
  induction he with
  | start hconfig => exact hstart hconfig
  | call hcall _ ih => exact hQ.after _ _ hcall ih

end StableAlong

/-! ## §6 Properties of the engine alone -/

/-- The property says nothing about the clock. -/
def Timeless (P : Engine → Prop) : Prop := ∀ (e : Engine) (clock : Clock), P e → P { e with clock }

/-- What becomes of a timer is the same under any clock, apart from the clock. -/
theorem Engine.lapse_clock (e : Engine) (clock : Clock) (use : TimerUse) :
    ∃ after, ({ e with clock } : Engine).lapse use = { e.lapse use with clock := after } := by
  have hstop : ∀ id, ∃ after, ({ e with clock } : Engine).stopTimer id =
      { e.stopTimer id with clock := after } := by
    intro id
    unfold stopTimer
    rw [show (({ e with clock } : Engine).latch id).timer = (e.latch id).timer from rfl]
    split <;> exact ⟨_, rfl⟩
  unfold lapse
  cases use.kind with
  | keyRepeatDelay =>
    obtain ⟨after, hstopped⟩ := hstop use.binding
    unfold startTimer
    rw [hstopped]
    exact ⟨_, rfl⟩
  | release | turbo | repeating | rotate | keyRepeat => exact ⟨_, rfl⟩

/-- Everything an engine does keeps the property. -/
structure Stable (admits : Config → Prop) (P : Engine → Prop) : Prop where
  move {t t' : Turn} : Turn.Move t t' → P t.engine → P t'.engine
  feed (room : Nat) : Turn.Keeps P (Turn.feed room)
  chore {e e' : Engine} : Engine.Chore e e' → P e → P e'
  force (e : Engine) (time : Nat) : P e →
    P (e.forceReleaseAll time) ∧ P (e.forceReleaseAll time).switchOff
  lapse {e : Engine} {limit due : Nanoseconds} {token : TimerToken} {clock : Clock}
    {use : TimerUse} {b : Binding} (hdue : e.clock.nextDue? limit = some (token, due, clock))
    (huse : e.timerUse? token = some use) (hb : e.bindings[use.binding]? = some b) :
    P e → P (({ e with clock } : Engine).lapse use)
  stray {e : Engine} {limit due : Nanoseconds} {token : TimerToken} {clock : Clock}
    (hdue : e.clock.nextDue? limit = some (token, due, clock))
    (huse : ∀ use b, e.timerUse? token = some use → e.bindings[use.binding]? ≠ some b) :
    P e → P { e with clock }
  install (e : Engine) {config : Config} (time : Nat) :
    admits config → P e → P (e.cancelTimers.install config time)

namespace Stable

variable {admits : Config → Prop} {P : Engine → Prop} (hP : Stable admits P)

include hP

/-- What is stable is so along any history. -/
theorem along : StableAlong admits fun _ => P where
  quiet h _ ht := hP.move h ht
  answer hb hreaches hrespond ht := hP.move (.firstStep hb hreaches hrespond) ht
  feed room := (hP.feed room).along _
  chore := hP.chore
  force := hP.force
  lapse := hP.lapse
  stray := hP.stray
  install := hP.install

theorem after (e : Engine) (call : Call) (hcall : call.Admitted admits) (he : P e) :
    P (e.after call) :=
  @StableAlong.after admits (fun _ => P) hP.along [] e call hcall he

theorem afterAll (e : Engine) (calls : List Call) (hcalls : ∀ c ∈ calls, c.Admitted admits)
    (he : P e) : P (e.afterAll calls) := by
  induction calls generalizing e with
  | nil => exact he
  | cons c rest ih =>
    have hhead := hP.after e c (hcalls c List.mem_cons_self) he
    exact ih (e.after c) (fun c hc => hcalls c (List.mem_cons_of_mem _ hc)) hhead

/-- What is stable and holds of every engine that starts holds of every engine that can be
reached. -/
theorem reachable (hstart : ∀ {config : Config}, admits config → P (Engine.ofConfig config))
    {e : Engine} (he : Engine.Reachable admits e) : P e := by
  obtain ⟨history, hhistory⟩ := he.traced
  exact hP.along.traced hstart hhistory

/-- A timer may lapse at any time, if the property says nothing about the clock. -/
theorem lapseAnytime (htimeless : Timeless P) {e : Engine} {token : TimerToken} {use : TimerUse}
    {b : Binding} (huse : e.timerUse? token = some use) (hb : e.bindings[use.binding]? = some b)
    (he : P e) : P (e.lapse use) := by
  -- On a clock that has just this timer to offer, it is due.
  have hdue : ({ timers := [⟨token, 0, none, 0⟩] } : Clock).nextDue? 0 = some (token, 0, {}) := rfl
  have hlapsed := hP.lapse (e := { e with clock := { timers := [⟨token, 0, none, 0⟩] } }) hdue huse hb
    (htimeless e _ he)
  obtain ⟨clock, hsame⟩ := e.lapse_clock {} use
  have hafter : P { e.lapse use with clock } := by
    rw [← hsame]
    exact hlapsed
  exact htimeless { e.lapse use with clock } (e.lapse use).clock hafter

/-- What is stable and says nothing about the clock holds between any two operations, if it holds of
every engine that starts. -/
theorem operated (htimeless : Timeless P)
    (hstart : ∀ {config : Config}, admits config → P (Engine.ofConfig config))
    {e : Engine} (he : Engine.Operated admits e) : P e := by
  induction he with
  | start hconfig => exact hstart hconfig
  | call hcall _ ih => exact hP.after _ _ hcall ih
  | @timer e token time _ ih =>
    refine @KeptInTurns.onTimer (fun _ => P) hP.along.toKeptInTurns [] e token time (fun _ => ih)
      fun use b huse hb => hP.lapseAnytime (e := { e with lastTime := time }) htimeless huse hb ?_
    exact hP.chore (.note e e.queue e.remainder time e.journal.snapshots e.journal.events) ih

end Stable

end VirtualPad
