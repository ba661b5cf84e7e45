import VirtualPad.Proofs.Stability
import VirtualPad.Proofs.Steps

/-!
# What an engine does between two installations

An operation makes the engine do one thing after another: turns, which take many steps each, and
errands between the turns.  `Engine.Duty` lists what carrying out requests comes to, and
`Engine.Deed` adds the turns that an operation begins with.  An operation is a series of deeds; only
reloading puts an installation in between, and by then everything has been released.  Nothing is said
of the clock: to a deed, any timer in the table may go off.

So there are two ways to show that something holds between any two operations.  What the steps of a
turn keep, with all that the turn has gathered, is kept by a deed (`Deed.keeps`).  And what only
whole turns keep is looked at deed by deed.
-/

namespace VirtualPad

namespace Engine

/-- Something small that is done between two turns. -/
inductive Errand : Engine → Engine → Prop
  /-- The next request is taken off the queue. -/
  | take {e : Engine} {r : Request} {rest : List Request} (hqueue : e.queue = r :: rest) :
      Errand e { e with queue := rest }
  /-- The host is handed a command that it has to carry out itself. -/
  | forward (e : Engine) {r : Request} (hcommand : r.command = .reload ∨ r.command = .loadConfig) :
      Errand e (Turn.tellHost e #[.command r])
  | enable (e : Engine) : Errand e { e with disabled := false }
  | activate {e : Engine} (user : User) (huser : user < e.userCount) :
      Errand e { e with activeUser := user }
  | remember (e : Engine) (id : Nat) (user : Option User) :
      Errand e (e.mapLatch id fun l => { l with restoreUser := user })
  /-- Time passes. -/
  | pass (e : Engine) (clock : Clock) : Errand e { e with clock }

/-- What is done to carry out requests. -/
inductive Duty : Engine → Engine → Prop
  | errand {e e' : Engine} (h : Errand e e') : Duty e e'
  | switchOff (e : Engine) (time : Nat) : Duty e (e.forceReleaseAll time).switchOff
  /-- A pad is connected or disconnected. -/
  | connect (e : Engine) (user : User) (time : Nat) :
      Duty e (e.inTurn time fun t =>
        t.updatePad user fun pad => ({ pad with connected := !pad.connected }, true))

/-- A duty, or a turn that an operation begins with. -/
inductive Deed : Engine → Engine → Prop
  | duty {e e' : Engine} (h : Duty e e') : Deed e e'
  /-- A source moves. -/
  | feed (e : Engine) (c : Control) (pulse : Pulse) (time : Nat) :
      Deed e (Turn.feed (cascadeRoom + 1) { engine := { e with lastTime := time }, time } c
        pulse).1.commit
  /-- A timer that is running goes off. -/
  | expire {e : Engine} {token : TimerToken} {use : TimerUse}
      (huse : e.timerUse? token = some use) (time : Nat) :
      Deed e (({ engine := { e with lastTime := time }, time } : Turn).tick use).commit
  | release (e : Engine) (time : Nat) : Deed e (e.forceReleaseAll time)

/-- A deed that takes no source: the clock or the host has asked for it. -/
inductive Unfed : Engine → Engine → Prop
  | duty {e e' : Engine} (h : Duty e e') : Unfed e e'
  | expire {e : Engine} {token : TimerToken} {use : TimerUse}
      (huse : e.timerUse? token = some use) (time : Nat) :
      Unfed e (({ engine := { e with lastTime := time }, time } : Turn).tick use).commit
  | release (e : Engine) (time : Nat) : Unfed e (e.forceReleaseAll time)

theorem Unfed.deed {e e' : Engine} (h : Unfed e e') : Deed e e' := by
  cases h with
  | duty h => exact .duty h
  | expire huse time => exact .expire huse time
  | release time => exact .release e time

/-- One duty after another. -/
abbrev Duties : Engine → Engine → Prop := Relation.ReflTransGen Duty

/-- One deed after another. -/
abbrev Deeds : Engine → Engine → Prop := Relation.ReflTransGen Deed

theorem Duties.deeds {e e' : Engine} (h : Duties e e') : Deeds e e' :=
  Relation.ReflTransGen.mono (fun _ _ => .duty) _ _ h

/-- One deed after another, without a source. -/
abbrev Unfeds : Engine → Engine → Prop := Relation.ReflTransGen Unfed

theorem Duties.unfeds {e e' : Engine} (h : Duties e e') : Unfeds e e' :=
  Relation.ReflTransGen.mono (fun _ _ => .duty) _ _ h

theorem Unfeds.deeds {e e' : Engine} (h : Unfeds e e') : Deeds e e' :=
  Relation.ReflTransGen.mono (fun _ _ => Unfed.deed) _ _ h

/-! ## §1 Operations are deeds -/

theorem duties_setActiveUser (e : Engine) (user : User) : Duties e (e.setActiveUser user) := by
  unfold setActiveUser
  split
  · rename_i huser
    exact .single (.errand (.activate user huser))
  · exact .refl

theorem duties_obey (e : Engine) (r : Request) (time : Nat) : Duties e (e.obey r time) := by
  unfold obey
  cases hcommand : r.command with
  | toggleDisable =>
    dsimp only
    split
    · exact .single (.errand (.enable e))
    · exact .single (.switchOff e time)
  | setActiveUser => exact duties_setActiveUser e r.user
  | holdActiveUser =>
    have hremember : ∀ user, Duty e (e.mapLatch r.mapping fun l => { l with restoreUser := user }) :=
      fun user => .errand (.remember e r.mapping user)
    dsimp only
    split
    · exact .refl
    · split
      · exact .head (hremember _) (duties_setActiveUser _ r.user)
      · split
        · exact .refl
        · exact .head (hremember none) (duties_setActiveUser _ _)
  | toggleConnected =>
    dsimp only
    split
    · exact .single (.connect e r.user time)
    · exact .refl
  | reload => exact .single (.errand (.forward e (.inl hcommand)))
  | loadConfig => exact .single (.errand (.forward e (.inr hcommand)))

theorem duties_obeyAll (time bound : Nat) (e : Engine) : Duties e (obeyAll time bound e) := by
  induction bound generalizing e with
  | zero => exact .refl
  | succ bound ih =>
    unfold obeyAll
    split
    · exact .refl
    · rename_i r rest hqueue
      exact .head (.errand (.take hqueue)) ((duties_obey _ r time).trans (ih _))

theorem duties_drainQueue (e : Engine) (time : Nat) : Duties e (e.drainQueue time) :=
  duties_obeyAll time _ e

theorem deeds_accept (e : Engine) (c : Control) (pulse : Pulse) (time : Nat) :
    Deeds e (e.accept c pulse time).1 :=
  .head (.feed e c pulse time) (duties_drainQueue _ time).deeds

theorem unfeds_onTimer (e : Engine) (token : TimerToken) (time : Nat) :
    Unfeds e (e.onTimer token time) := by
  unfold onTimer
  cases huse : e.timerUse? token with
  | none => exact .refl
  | some use => exact .head (.expire huse time) (duties_drainQueue _ time).unfeds

theorem unfeds_runDue (limit : Nanoseconds) (bound : Nat) (e : Engine) :
    Unfeds e (runDue limit bound e) := by
  induction bound generalizing e with
  | zero => exact .refl
  | succ bound ih =>
    unfold runDue
    split
    · exact .refl
    · -- The clock is past the timer before the engine hears of it.
      rename_i token due clock _
      exact .head (.duty (.errand (.pass e clock))) ((unfeds_onTimer _ token _).trans (ih _))

theorem unfeds_runUntil (e : Engine) (ms : Nat) : Unfeds e (e.runUntil ms) :=
  (unfeds_runDue _ _ e).tail (.duty (.errand (.pass _ _)))

theorem unfeds_releaseAll (e : Engine) (time : Nat) : Unfeds e (e.releaseAll time) :=
  .head (.release e time) (duties_drainQueue _ time).unfeds

theorem deeds_onTimer (e : Engine) (token : TimerToken) (time : Nat) :
    Deeds e (e.onTimer token time) :=
  (unfeds_onTimer e token time).deeds

theorem deeds_releaseAll (e : Engine) (time : Nat) : Deeds e (e.releaseAll time) :=
  (unfeds_releaseAll e time).deeds

/-- An input moves its source, or it is for none of the users and goes unheard. -/
theorem processInput_cases (e : Engine) (source : Control) (user : Nat) (down : Bool)
    (strength : Float) (time : Nat) :
    (∃ pulse, pulse.down = down ∧
      e.processInput source user down strength time = e.accept source pulse time) ∨
      e.processInput source user down strength time = (e, false) := by
  unfold processInput
  split
  · exact .inl ⟨_, rfl, rfl⟩
  · exact .inr rfl

/-- So does a motion, unless it is by no finite amount. -/
theorem processRelative_cases (e : Engine) (source : Control) (user : Nat) (magnitude : Float)
    (time : Nat) :
    (∃ pulse, pulse.down = (magnitude != 0) ∧
      e.processRelative source user magnitude time = e.accept source pulse time) ∨
      e.processRelative source user magnitude time = (e, false) := by
  unfold processRelative
  split
  · split
    · exact .inl ⟨_, rfl, rfl⟩
    · exact .inr rfl
  · exact .inr rfl

/-- A call moves a source, or it goes without one, or it reloads. -/
theorem after_cases (e : Engine) (call : Call) :
    (∃ c pulse time, call.source? = some c ∧ (pulse.down = true → call.pressed? = some c) ∧
      e.after call = (e.accept c pulse time).1 ∧ e.answer call = (e.accept c pulse time).2) ∨
    Unfeds e (e.after call) ∨ ∃ config, call = .reload config := by
  have hunheard : e.after call = e → Unfeds e (e.after call) := fun h => h.symm ▸ .refl
  cases call with
  | input source user down strength time =>
    rcases e.processInput_cases source user down strength time with ⟨pulse, rfl, hfed⟩ | hnot
    · exact .inl ⟨source, pulse, time, rfl, fun h => if_pos h, congrArg Prod.fst hfed,
        congrArg Prod.snd hfed⟩
    · exact .inr (.inl (hunheard (congrArg Prod.fst hnot)))
  | motion source user magnitude time =>
    rcases e.processRelative_cases source user magnitude time with ⟨pulse, hdown, hfed⟩ | hnot
    · exact .inl ⟨source, pulse, time, rfl, fun h => if_pos (hdown.symm.trans h),
        congrArg Prod.fst hfed, congrArg Prod.snd hfed⟩
    · exact .inr (.inl (hunheard (congrArg Prod.fst hnot)))
  | runUntil ms => exact .inr (.inl (unfeds_runUntil e ms))
  | releaseAll time => exact .inr (.inl (unfeds_releaseAll e time))
  | reload config => exact .inr (.inr ⟨config, rfl⟩)

/-- **A call is a series of deeds**, unless it reloads. -/
theorem deeds_after (e : Engine) {call : Call} (hcall : ∀ config, call ≠ .reload config) :
    Deeds e (e.after call) := by
  rcases e.after_cases call with ⟨c, pulse, time, -, -, hafter, -⟩ | hunfeds | ⟨config, hreload⟩
  · rw [hafter]
    exact deeds_accept e c pulse time
  · exact hunfeds.deeds
  · exact absurd hreload (hcall config)

/-- The engine that a configuration is installed onto: everything has been released, and no timer
runs. -/
def freed (e : Engine) : Engine := (e.releaseAll e.lastTime).cancelTimers

theorem duties_reload (e : Engine) (config : Config) :
    Duties (e.freed.install config e.lastTime) (e.reload config) :=
  duties_drainQueue _ e.lastTime

/-- **The induction over deeds.** What every deed keeps holds between any two operations, if it holds
after every installation. -/
theorem Operated.of_deeds {admits : Config → Prop} {P : Engine → Prop}
    (hstart : ∀ {config : Config}, admits config → P (ofConfig config))
    (hdeed : ∀ {e e' : Engine}, Deed e e' → P e → P e')
    (hinstall : ∀ {e : Engine} {config : Config}, admits config → Operated admits e →
      P (e.releaseAll e.lastTime) → P (e.freed.install config e.lastTime))
    {e : Engine} (he : Operated admits e) : P e := by
  have hdeeds : ∀ {e e' : Engine}, Deeds e e' → P e → P e' := by
    intro e e' h hstart
    induction h with
    | refl => exact hstart
    | tail _ hlast ih => exact hdeed hlast ih
  induction he with
  | start hconfig => exact hstart hconfig
  | @call e call hcall he ih =>
    by_cases hreload : ∃ config, call = .reload config
    · -- Deeds on the old configuration, an installation, and deeds on the new one.
      obtain ⟨config, rfl⟩ := hreload
      have hfreed := hdeeds (deeds_releaseAll e e.lastTime) ih
      exact hdeeds (duties_reload e config).deeds (hinstall hcall he hfreed)
    · exact hdeeds (deeds_after e fun config h => hreload ⟨config, h⟩) ih
  | @timer e token time _ ih => exact hdeeds (deeds_onTimer e token time) ih

/-! ## §2 What deeds keep -/

section

variable {admits : Config → Prop} {P : Engine → Prop} (hP : Stable admits P) (htimeless : Timeless P)
  {e e' : Engine}

include hP htimeless

/-- An errand is a chore, or time passes. -/
theorem Errand.keeps_stable (h : Errand e e') (he : P e) : P e' := by
  cases h with
  | take hqueue => exact hP.chore (.note e _ _ _ _ _) he
  | forward hcommand => exact hP.chore (.note e e.queue e.remainder e.lastTime _ _) he
  | enable => exact hP.chore (.enable e) he
  | activate user huser => exact hP.chore (.activate user huser) he
  | remember id user => exact hP.chore (.remember e id user) he
  | pass clock => exact htimeless e clock he

theorem Duty.keeps_stable (h : Duty e e') (he : P e) : P e' := by
  cases h with
  | errand h => exact h.keeps_stable hP htimeless he
  | switchOff time => exact (hP.force e time he).2
  | connect user time =>
    refine Turn.commit_keeps hP.chore _ ?_
    rw [Turn.engine_updatePad]
    exact hP.chore (.label user _ ⟨rfl, rfl, rfl⟩) he

/-- **Stable properties are kept by every deed**, if they say nothing about the clock. -/
theorem Deed.keeps_stable (h : Deed e e') (he : P e) : P e' := by
  have htimed : ∀ time : Nat, P { e with lastTime := time } := fun time =>
    hP.chore (.note e e.queue e.remainder time e.journal.snapshots e.journal.events) he
  cases h with
  | duty h => exact h.keeps_stable hP htimeless he
  | feed c pulse time =>
    exact Turn.commit_keeps hP.chore _ ((hP.feed _).keeps _ c pulse (htimed time))
  | @expire token use huse time =>
    refine Turn.commit_keeps hP.chore _ ?_
    cases hb : e.bindings[use.binding]? with
    | none =>
      -- Without a binding there is nothing to tick.
      unfold Turn.tick
      dsimp only
      rw [hb]
      exact htimed time
    | some b =>
      have hlapsed := hP.lapseAnytime htimeless (e := { e with lastTime := time }) huse hb
        (htimed time)
      exact @KeptInTurns.tick (fun _ => P) hP.along.toKeptInTurns [] _ use b
        (List.mem_of_find?_eq_some huse) hb hlapsed
  | release time => exact (hP.force e time he).1

end

/-- Releasing everything is one turn. -/
theorem steps_forceReleaseAll (e : Engine) (time : Nat) :
    ∃ t, Turn.Steps { engine := e, time } t ∧ e.forceReleaseAll time = t.commit :=
  ⟨_, .tail (Turn.steps_forceReleases _ _) (.pads _ _ .releaseAll), rfl⟩

/-- **What the steps keep is kept by every deed**: `P` is about the engine between two turns, and `T`
about a turn that is going on. -/
theorem Deed.keeps {P : Engine → Prop} {T : Turn → Prop}
    (hopen : ∀ {e : Engine} (lastTime time : Nat), P e → T { engine := { e with lastTime }, time })
    (hstep : ∀ {t t' : Turn}, Turn.Step t t' → T t → T t')
    (hcommit : ∀ {t : Turn}, T t → P t.commit)
    (herrand : ∀ {e e' : Engine}, Errand e e' → P e → P e')
    (hoff : ∀ {e : Engine}, P e → P e.switchOff)
    {e e' : Engine} (h : Deed e e') (he : P e) : P e' := by
  have hsteps : ∀ {t t' : Turn}, Turn.Steps t t' → T t → T t' := by
    intro t t' h ht
    induction h with
    | refl => exact ht
    | tail _ hlast ih => exact hstep hlast ih
  have hforced : ∀ time, P (e.forceReleaseAll time) := by
    intro time
    obtain ⟨t, hrun, hend⟩ := steps_forceReleaseAll e time
    rw [hend]
    exact hcommit (hsteps hrun (hopen e.lastTime time he))
  cases h with
  | duty h =>
    cases h with
    | errand h => exact herrand h he
    | switchOff time => exact hoff (hforced time)
    | connect user time =>
      have hwrite := Turn.Step.pads { engine := e, time } [user] .connect
      exact hcommit (hstep hwrite (hopen e.lastTime time he))
  | feed c pulse time => exact hcommit (hsteps (Turn.steps_feed _ _ c pulse) (hopen _ _ he))
  | expire huse time => exact hcommit (hsteps (Turn.steps_tick _ _) (hopen _ _ he))
  | release time => exact hforced time

end Engine

end VirtualPad
