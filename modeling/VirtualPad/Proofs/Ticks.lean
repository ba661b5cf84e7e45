import VirtualPad.Proofs.Loads

/-!
# The loop of the clock ends

To run up to a time means to let timers go off until none is due any more.  A tick may start timers,
restart its own and stop others, and a key may repeat without delay, so it is not plain that the loop
ends.  It does because each tick makes the load of the engine lighter, and the bound in the definition
of the loop is at least as large as the load.

* `Engine.TicksUntil`: the loop, as a relation without a bound on the number of rounds.
* `Engine.Operated.onTime`: no timer is ever overdue between two operations.
* `Engine.runUntil_ticks`: the loop ends within its bound, with its ticks in order of time and on time.
-/

namespace VirtualPad
namespace Engine

variable {e e' : Engine} {limit : Nanoseconds}

/-! ## §1 The loop -/

/-- Timers go off one after another, each at the time that it is due, until none is due any more.  The
list says at which times, in milliseconds. -/
inductive TicksUntil (limit : Nanoseconds) : Engine → List Nat → Engine → Prop
  | done {e : Engine} (hdue : e.clock.nextDue? limit = none) : TicksUntil limit e [] e
  | tick {e last : Engine} {token : TimerToken} {due : Nanoseconds} {clock : Clock}
      {times : List Nat} (hdue : e.clock.nextDue? limit = some (token, due, clock))
      (hrest : TicksUntil limit (({ e with clock } : Engine).onTimer token
        (due.toMillis % twoTo 64)) times last) :
      TicksUntil limit e (due.toMillis % twoTo 64 :: times) last

/-- What holds in every round of the loop. -/
structure Looping (limit : Nanoseconds) (weight : Nat) (tokens : Finset TimerToken) (e : Engine) :
    Prop where
  onTime : OnTime e
  measured : Measured e
  queue : e.queue = []
  heavy : e.bindings.size * ticksLeft limit e.clock.now < weight
  confined : ∀ token, token ∉ tokens → e.straying limit token = 0

section

variable {weight : Nat} {tokens : Finset TimerToken} {token : TimerToken} {due : Nanoseconds}
  {clock : Clock}

/-- Time moves to the timer that goes off. -/
theorem OnTime.now_nextDue (he : OnTime e)
    (hdue : e.clock.nextDue? limit = some (token, due, clock)) :
    clock.now = due ∧ e.clock.now ≤ due ∧ due ≤ limit := by
  obtain ⟨t, ht, -, rfl, hlimit, rfl⟩ := Clock.nextDue?_some hdue
  rw [Clock.now_fire]
  exact ⟨Nat.max_eq_right (he.ahead t ht), he.ahead t ht, hlimit⟩

/-- One round of the loop. -/
theorem Looping.tick (he : Looping limit weight tokens e)
    (hdue : e.clock.nextDue? limit = some (token, due, clock)) (time : Nat) :
    Looping limit weight tokens (({ e with clock } : Engine).onTimer token time) ∧
      (({ e with clock } : Engine).onTimer token time).load limit weight tokens <
        e.load limit weight tokens ∧
      (({ e with clock } : Engine).onTimer token time).clock.now = due := by
  obtain ⟨own, stray, hpaced, hroom, hfewer, hless⟩ := lightens_onTimer he.onTime he.queue hdue
    he.heavy he.confined time
  obtain ⟨hnow, hlater, -⟩ := he.onTime.now_nextDue hdue
  have hpassed : Measured { e with clock } := measured_timeless e clock he.measured
  have hsize := size_congr (deeds_onTimer { e with clock } token time).layout
  have hstays := (now_onTimer { e with clock } token time).trans hnow
  have hbound := hpaced.load_le hroom weight tokens
  rw [hsize] at hbound
  refine ⟨?_, hbound.trans_lt hless, hstays⟩
  constructor
  · exact hpaced.onTime hstays
  · exact (deeds_onTimer _ token time).measured hpassed
  · exact queue_onTimer hpassed he.queue token time
  · rw [hsize, hstays]
    exact Nat.lt_of_le_of_lt (Nat.mul_le_mul_left _ (ticksLeft_mono limit hlater)) he.heavy
  · intro other hother
    have hzero := (hpaced.straying_le other).trans (hfewer other)
    rw [he.confined other hother] at hzero
    exact Nat.le_zero.mp hzero

/-- **The loop ends within as many rounds as the load allows.** -/
theorem Looping.runDue {bound : Nat} (he : Looping limit weight tokens e)
    (hbound : e.load limit weight tokens ≤ bound) :
    ∃ times, TicksUntil limit e times (runDue limit bound e) ∧ times.length ≤ bound := by
  induction bound generalizing e with
  | zero =>
    cases hdue : e.clock.nextDue? limit with
    | none => exact ⟨[], .done hdue, Nat.le_refl _⟩
    | some next =>
      -- Without any load left nothing goes off.
      obtain ⟨token, due, clock⟩ := next
      obtain ⟨-, hless, -⟩ := he.tick hdue 0
      exact absurd (hless.trans_le hbound) (Nat.not_lt_zero _)
  | succ bound ih =>
    unfold Engine.runDue
    cases hdue : e.clock.nextDue? limit with
    | none => exact ⟨[], .done hdue, Nat.zero_le _⟩
    | some next =>
      obtain ⟨token, due, clock⟩ := next
      obtain ⟨hnext, hless, -⟩ := he.tick hdue (due.toMillis % twoTo 64)
      obtain ⟨times, hticks, hlength⟩ := ih hnext (Nat.le_of_lt_succ (hless.trans_le hbound))
      exact ⟨_, .tick hdue hticks, Nat.succ_le_succ hlength⟩

/-- When the loop has ended nothing is due any more, and the time has not moved beyond the limit. -/
theorem Looping.ends {times : List Nat} {last : Engine} (hticks : TicksUntil limit e times last)
    (he : Looping limit weight tokens e) :
    OnTime last ∧ (∀ t ∈ last.clock.timers, limit < t.due) ∧ e.clock.now ≤ last.clock.now ∧
      last.clock.now ≤ max e.clock.now limit := by
  induction hticks with
  | done hdue => exact ⟨he.onTime, Clock.nextDue?_none hdue, Nat.le_refl _, Nat.le_max_left _ _⟩
  | @tick e last token due clock times hdue hrest ih =>
    obtain ⟨hnext, -, hnow⟩ := he.tick hdue (due.toMillis % twoTo 64)
    obtain ⟨-, hlater, hlimit⟩ := he.onTime.now_nextDue hdue
    obtain ⟨honTime, hnone, hearly, hlate⟩ := ih hnext
    rw [hnow] at hearly hlate
    rw [Nat.max_eq_right hlimit] at hlate
    exact ⟨honTime, hnone, Nat.le_trans hlater hearly, Nat.le_trans hlate (Nat.le_max_right _ _)⟩

/-- The ticks come in order of time, none of them before the loop began or after its limit. -/
theorem Looping.ordered {ms : Nat} (hms : ms < twoTo 64) {times : List Nat} {last : Engine}
    (hticks : TicksUntil (Nanoseconds.ofMillis ms) e times last)
    (he : Looping (Nanoseconds.ofMillis ms) weight tokens e) :
    times.Pairwise (· ≤ ·) ∧ ∀ time ∈ times, e.clock.now.toMillis ≤ time ∧ time ≤ ms := by
  induction hticks with
  | done hdue => exact ⟨.nil, nofun⟩
  | @tick e last token due clock times hdue hrest ih =>
    obtain ⟨hnext, -, hnow⟩ := he.tick hdue (due.toMillis % twoTo 64)
    obtain ⟨-, hlater, hlimit⟩ := he.onTime.now_nextDue hdue
    obtain ⟨hsorted, hrange⟩ := ih hnext
    rw [hnow] at hrange
    have hmillis : due.toMillis ≤ ms := by
      have hdivided := Nat.div_le_div_right (c := Nanoseconds.perMilli) hlimit
      exact hdivided.trans_eq (Nat.mul_div_cancel _ (by decide))
    have hstart : e.clock.now.toMillis ≤ due.toMillis := Nat.div_le_div_right hlater
    -- The time is a 64-bit number, so it is the time that was due.
    rw [Nat.mod_eq_of_lt (Nat.lt_of_le_of_lt hmillis hms)]
    refine ⟨List.pairwise_cons.mpr ⟨fun time htime => (hrange time htime).1, hsorted⟩, ?_⟩
    refine List.forall_mem_cons.mpr ⟨⟨hstart, hmillis⟩, fun time htime => ?_⟩
    exact ⟨Nat.le_trans hstart (hrange time htime).1, (hrange time htime).2⟩

end

/-! ## §2 Running up to a time -/

/-- The tokens that the clock has armed. -/
def armedTokens (e : Engine) : Finset TimerToken := (e.clock.timers.map Timer.token).toFinset

/-- The weight of a tick that relays: as much as all bindings can go off. -/
def tickWeight (e : Engine) (limit : Nanoseconds) : Nat :=
  e.bindings.size * ticksLeft limit e.clock.now + 1

theorem OnTime.looping (he : OnTime e) (hmeasured : Measured e) (hqueue : e.queue = [])
    (limit : Nanoseconds) : Looping limit (e.tickWeight limit) e.armedTokens e where
  onTime := he
  measured := hmeasured
  queue := hqueue
  heavy := Nat.lt_succ_self _
  confined token hout := by
    refine Nat.le_zero.mp (most_le fun t ht => ?_)
    rintro ⟨rfl, -⟩
    exact absurd (List.mem_toFinset.mpr (List.mem_map_of_mem ht)) hout

/-- **The bound of the definition is large enough.** -/
theorem OnTime.load_le (he : OnTime e) (limit : Nanoseconds) :
    e.load limit (e.tickWeight limit) e.armedTokens ≤ e.tickBound limit := by
  obtain ⟨cap, hcap⟩ : ∃ cap, cap = ticksLeft limit e.clock.now := ⟨_, rfl⟩
  -- No timer has more ticks left than one that were due now.
  have hmost : ∀ (tokens : TimerToken → Prop) [DecidablePred tokens],
      e.most limit tokens ≤ cap := fun tokens _ =>
    most_le fun t ht _ => (ticksLeft_mono limit (he.ahead t ht)).trans_eq hcap.symm
  have hshare : ∀ relays id, e.sharing limit relays id ≤ cap := by
    intro relays id
    cases relays with
    | true => exact max_le ((ticksLeft_mono limit (Nat.le_add_right _ _)).trans_eq hcap.symm) (hmost _)
    | false => exact hmost _
  have hloaded : e.load limit (e.tickWeight limit) e.armedTokens ≤
      e.bindings.size * (e.tickWeight limit * cap + cap) + e.clock.timers.length * cap := by
    refine Nat.add_le_add ?_ ?_
    · have hsum := Finset.sum_le_card_nsmul (Finset.range e.bindings.size) (fun id =>
        e.tickWeight limit * e.sharing limit true id + e.sharing limit false id) _ fun id _ =>
          Nat.add_le_add (Nat.mul_le_mul_left (e.tickWeight limit) (hshare true id)) (hshare false id)
      simpa using hsum
    · have hsum := Finset.sum_le_card_nsmul e.armedTokens (e.straying limit) cap fun token _ =>
        hmost _
      have hcard : e.armedTokens.card ≤ e.clock.timers.length :=
        (List.toFinset_card_le _).trans_eq (List.length_map _)
      exact hsum.trans (Nat.mul_le_mul_right cap hcard)
  -- There is one tick in a millisecond at most.
  have hfew : cap ≤ (limit - e.clock.now) / Nanoseconds.perMilli + 1 := by
    rw [hcap]
    unfold ticksLeft
    split
    · exact Nat.le_refl _
    · exact Nat.zero_le _
  refine hloaded.trans ?_
  unfold tickWeight tickBound
  rw [← hcap]
  dsimp only
  generalize (limit - e.clock.now) / Nanoseconds.perMilli = millis at hfew ⊢
  generalize e.bindings.size = size
  generalize e.clock.timers.length = armed
  have honce : (size + armed) * cap + 1 ≤ (size + armed) * (millis + 2) + 1 :=
    Nat.succ_le_succ (Nat.mul_le_mul_left _ (hfew.trans (Nat.le_succ _)))
  calc size * ((size * cap + 1) * cap + cap) + armed * cap
      ≤ size * ((size * cap + 1) * cap + cap) + armed * cap +
          (armed * cap * (armed * cap) + 2 * (size * cap) * (armed * cap) + armed * cap + 1) :=
        Nat.le_add_right _ _
    _ = ((size + armed) * cap + 1) * ((size + armed) * cap + 1) := by ring
    _ ≤ _ := Nat.mul_le_mul honce honce

/-- A run of the clock is a run of the loop, and then the clock moves on. -/
theorem OnTime.ticksUntil (he : OnTime e) (hmeasured : Measured e) (hqueue : e.queue = []) (ms : Nat) :
    ∃ times last, TicksUntil (Nanoseconds.ofMillis ms) e times last ∧
      e.runUntil ms = { last with clock := last.clock.advanceTo (Nanoseconds.ofMillis ms) } ∧
      times.length ≤ e.tickBound (Nanoseconds.ofMillis ms) := by
  obtain ⟨times, hticks, hlength⟩ :=
    (he.looping hmeasured hqueue (Nanoseconds.ofMillis ms)).runDue (he.load_le _)
  refine ⟨times, _, hticks, ?_, hlength⟩
  unfold Engine.runUntil
  rfl

/-- After a run of the clock no timer is overdue either. -/
theorem OnTime.runUntil (he : OnTime e) (hmeasured : Measured e) (hqueue : e.queue = []) (ms : Nat) :
    OnTime (e.runUntil ms) := by
  obtain ⟨times, last, hticks, hrun, -⟩ := he.ticksUntil hmeasured hqueue ms
  obtain ⟨hlast, hnone, -⟩ := (he.looping hmeasured hqueue _).ends hticks
  rw [hrun]
  have hadvanced : Paced 0 _ _ _ { last with
    clock := last.clock.advanceTo (Nanoseconds.ofMillis ms) } := hlast.paced.chore (.advance _ _)
  refine ⟨hadvanced.toOrderly, fun t ht => ?_⟩
  exact max_le (hlast.ahead t ht) (Nat.le_of_lt (hnone t ht))

/-- No timer is overdue, and no request waits. -/
structure InTime (e : Engine) : Prop where
  onTime : OnTime e
  measured : Measured e
  queue : e.queue = []

namespace InTime

theorem start {config : Config} (hconfig : config.IsCompiled) : InTime (ofConfig config) where
  onTime := by
    have hinterval : Nanoseconds.perMilli ≤ Settings.standard.keyRepeatInterval := by decide
    have hfresh : OnTime ({ pads := PadBank.ofCount config.settings.users } : Engine) :=
      ⟨⟨nofun, nofun, ⟨Clock.sound_of_nil rfl, nofun⟩, nofun, hinterval⟩, nofun⟩
    have hpaced := hfresh.paced.install hconfig 0
    refine hpaced.onTime ?_
    obtain ⟨bindings, outputs, pads, queue, remainder, snapshots, events, hinstall, -⟩ :=
      install_frame ({ pads := PadBank.ofCount config.settings.users } : Engine).cancelTimers config 0
    rw [hinstall]
    rfl
  measured := (Operated.start hconfig).measured
  queue := queue_start config

/-- Where nothing takes time, one timer is as good as none. -/
theorem roomy_one (now : Nanoseconds) : Roomy 0 now fun _ _ => 1 :=
  fun _ => ⟨ticksLeft_zero _, ticksLeft_zero _⟩

theorem after (he : InTime e) {call : Call} (hcall : call.Admitted Config.IsCompiled) :
    InTime (e.after call) where
  onTime := by
    by_cases hrun : ∃ ms, call = .runUntil ms
    · obtain ⟨ms, rfl⟩ := hrun
      exact he.onTime.runUntil he.measured he.queue ms
    · have hpaced := (paced_stable (roomy_one _)).after e call hcall he.onTime.paced
      exact hpaced.onTime (now_after e fun ms hsame => hrun ⟨ms, hsame⟩)
  measured := (measured_stable Config.IsCompiled).after e call hcall he.measured
  queue := queue_after he.measured he.queue call

/-- The host may say at any time that a timer has gone off. -/
theorem onTimer (he : InTime e) (token : TimerToken) (time : Nat) :
    InTime (e.onTimer token time) where
  onTime := by
    have hpaced := he.onTime.paced.onTimer (roomy_one _) token time
      fun _ _ _ _ _ _ => ticksLeft_zero _
    exact hpaced.onTime (now_onTimer e token time)
  measured := (deeds_onTimer e token time).measured he.measured
  queue := queue_onTimer he.measured he.queue token time

/-- A timer goes off when it is due, and it is that time then. -/
theorem expire (he : InTime e) {token : TimerToken} {due : Nanoseconds} {clock : Clock}
    (hdue : e.clock.nextDue? limit = some (token, due, clock)) (time : Nat) :
    InTime (({ e with clock } : Engine).onTimer token time) ∧
      (({ e with clock } : Engine).onTimer token time).clock.now = due := by
  obtain ⟨hnext, -, hnow⟩ := (he.onTime.looping he.measured he.queue limit).tick hdue time
  exact ⟨⟨hnext.onTime, hnext.measured, hnext.queue⟩, hnow⟩

end InTime

theorem Operated.inTime (he : Operated Config.IsCompiled e) : InTime e := by
  induction he with
  | start hconfig => exact .start hconfig
  | call hcall _ ih => exact ih.after hcall
  | timer token time _ ih => exact ih.onTimer token time

/-- No timer of an engine that is operated is ever overdue. -/
theorem Operated.onTime (he : Operated Config.IsCompiled e) : OnTime e := he.inTime.onTime

/-- **Running up to a time ends.** The loop of the clock lets finitely many timers go off, whatever the
ticks start, restart and stop, and the bound in its definition does not cut it short.  The times of
the ticks never decrease and never exceed the limit.  In the end no timer is due any more up to the
limit, and the clock stands there, unless it was further on before. -/
theorem runUntil_ticks (he : Operated Config.IsCompiled e) {ms : Nat} (hms : ms < twoTo 64) :
    ∃ times last, TicksUntil (Nanoseconds.ofMillis ms) e times last ∧
      e.runUntil ms = { last with clock := last.clock.advanceTo (Nanoseconds.ofMillis ms) } ∧
      times.length ≤ e.tickBound (Nanoseconds.ofMillis ms) ∧
      times.Pairwise (· ≤ ·) ∧ (∀ time ∈ times, time ≤ ms) ∧
      (∀ t ∈ (e.runUntil ms).clock.timers, Nanoseconds.ofMillis ms < t.due) ∧
      (e.runUntil ms).clock.now = max e.clock.now (Nanoseconds.ofMillis ms) := by
  have hlooping := he.onTime.looping he.measured he.queue_nil (Nanoseconds.ofMillis ms)
  obtain ⟨times, last, hticks, hrun, hlength⟩ :=
    he.onTime.ticksUntil he.measured he.queue_nil ms
  obtain ⟨-, hnone, hearly, hlate⟩ := hlooping.ends hticks
  obtain ⟨hsorted, hrange⟩ := hlooping.ordered hms hticks
  refine ⟨times, last, hticks, hrun, hlength, hsorted, fun time htime => (hrange time htime).2, ?_⟩
  rw [hrun]
  refine ⟨hnone, Nat.le_antisymm (max_le hlate (Nat.le_max_right _ _)) ?_⟩
  exact max_le (Nat.le_trans hearly (Nat.le_max_left _ _)) (Nat.le_max_right _ _)

/-- The key A makes a variable blink, and the variable holds the key B, which repeats without delay. -/
def flutteringFile : ConfigFile :=
  { general := { keyRepeatDelayMs := some 0 }
    custom := { vars := ["Flash"] }
    mappings :=
      [{ source := "A", target := "Flash", options := ["turbo"], rate := some 0.002 },
       { source := "Flash", target := "B" }] }

/-- The engine while A is held. -/
def fluttering : Engine := (ofConfig flutteringFile.compile).after (.input ⟨0x41⟩ 0 true 1 0)

/-- Within five milliseconds the variable blinks twice, and each blink starts or stops the repeating of
B, at the same time as it goes off itself. -/
theorem runUntil_ticks_fluttering :
    Operated Config.IsCompiled fluttering ∧ fluttering.clock.timers.length = 2 ∧ 5 < twoTo 64 ∧
      ∃ times last, TicksUntil (Nanoseconds.ofMillis 5) fluttering times last ∧
        fluttering.runUntil 5 =
          { last with clock := last.clock.advanceTo (Nanoseconds.ofMillis 5) } ∧
        times.length ≤ fluttering.tickBound (Nanoseconds.ofMillis 5) ∧
        times.Pairwise (· ≤ ·) ∧ (∀ time ∈ times, time ≤ 5) ∧
        (∀ t ∈ (fluttering.runUntil 5).clock.timers, Nanoseconds.ofMillis 5 < t.due) ∧
        (fluttering.runUntil 5).clock.now =
          max fluttering.clock.now (Nanoseconds.ofMillis 5) := by
  have hstart : Operated Config.IsCompiled (ofConfig flutteringFile.compile) :=
    .start ⟨flutteringFile, rfl⟩
  have hoperated : Operated Config.IsCompiled fluttering := .call trivial hstart
  exact ⟨hoperated, by decide +kernel, by decide, runUntil_ticks hoperated (by decide)⟩

end Engine

end VirtualPad
