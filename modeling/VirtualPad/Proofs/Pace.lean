import VirtualPad.Proofs.Compilation
import VirtualPad.Proofs.Rates
import VirtualPad.Proofs.Rests

/-!
# How soon timers are due

Two kinds of ticks do more than write to a target: a blink may move a variable, and so does the end of
a hold.  What hears of the variable may start timers, at once if a key repeats without delay.  The
timers of these two kinds are never started with less than a millisecond to go, and a timer that
repeats leaves at least a millisecond between its ticks.

`Paced` bounds how often the timers of an engine can still go off, one number for each binding and for
each token that the clock has armed and the engine has forgotten.  Nothing that an engine does breaks
such bounds, if they leave room for timers that are started anew.
-/

namespace VirtualPad

/-- What goes off moves variables, which may start other timers. -/
def TimerKind.relays : TimerKind → Bool
  | .turbo | .release => true
  | .repeating | .rotate | .keyRepeatDelay | .keyRepeat => false

/-! ## §1 The clock -/

namespace Clock

/-- Timers that repeat leave at least a millisecond between two ticks. -/
structure Steady (c : Clock) : Prop where
  sound : c.Sound
  spaced : ∀ t ∈ c.timers, ∀ period, t.period = some period → Nanoseconds.perMilli ≤ period

variable {c : Clock}

theorem Steady.cancel (hc : c.Steady) (token : TimerToken) : (c.cancel token).Steady where
  sound := hc.sound.cancel token
  spaced t ht := hc.spaced t (mem_cancel.mp ht).1

theorem Steady.arm (hc : c.Steady) (token : TimerToken) (due : Nanoseconds)
    {period : Option Nanoseconds} (hperiod : ∀ p, period = some p → Nanoseconds.perMilli ≤ p) :
    (c.arm token due period).Steady where
  sound := hc.sound.arm token due period
  spaced t ht := by
    rcases mem_arm.mp ht with ⟨hold, -⟩ | rfl
    · exact hc.spaced t hold
    · exact hperiod

/-- After a timer has gone off the others are armed as before, and it is armed again one period later
if it repeats. -/
theorem mem_fire {t u : Timer} (hu : u ∈ (c.fire t).timers) :
    (u ∈ c.timers ∧ u.order ≠ t.order) ∨ ∃ period, t.period = some period ∧
      u.token = t.token ∧ u.due = t.due + period ∧ u.period = some period := by
  unfold fire at hu
  dsimp only at hu
  split at hu
  · exact .inl (by simpa using List.mem_filter.mp hu)
  · rename_i period hperiod
    rcases mem_arm.mp hu with ⟨hold, -⟩ | rfl
    · exact .inl (by simpa using List.mem_filter.mp hold)
    · exact .inr ⟨period, hperiod, rfl, rfl, rfl⟩

theorem now_fire (c : Clock) (t : Timer) : (c.fire t).now = max c.now t.due := by
  unfold fire
  dsimp only
  split <;> rfl

theorem Steady.fire (hc : c.Steady) {t : Timer} (ht : t ∈ c.timers) : (c.fire t).Steady where
  sound := hc.sound.fire t
  spaced u hu := by
    rcases mem_fire hu with ⟨hold, -⟩ | ⟨period, hperiod, -, -, hsame⟩
    · exact hc.spaced u hold
    · rw [hsame, ← hperiod]
      exact hc.spaced t ht

/-- A timer that is armed after another one has gone off under the same token is due at least a
millisecond later than that one was. -/
theorem Steady.due_fire (hc : c.Steady) {t u : Timer} (ht : t ∈ c.timers)
    (hu : u ∈ (c.fire t).timers) (htoken : u.token = t.token) :
    t.due + Nanoseconds.perMilli ≤ u.due := by
  rcases mem_fire hu with ⟨hold, horder⟩ | ⟨period, hperiod, -, hdue, -⟩
  · rw [hc.sound.eq_of_token hold ht htoken] at horder
    contradiction
  · rw [hdue]
    exact Nat.add_le_add_left (hc.spaced t ht period hperiod) _

/-- Whatever is armed after a timer has gone off was armed before under that token, and not due
later. -/
theorem exists_of_mem_fire {t u : Timer} (ht : t ∈ c.timers) (hu : u ∈ (c.fire t).timers) :
    ∃ v ∈ c.timers, v.token = u.token ∧ v.due ≤ u.due := by
  rcases mem_fire hu with ⟨hold, -⟩ | ⟨period, -, htoken, hdue, -⟩
  · exact ⟨u, hold, rfl, Nat.le_refl _⟩
  · exact ⟨t, ht, htoken.symm, hdue ▸ Nat.le_add_right _ _⟩

end Clock

/-! ## §2 Plans -/

/-- A way to ask for a timer of a kind, with some time to go: at least a millisecond if it relays.
The end of a hold comes once. -/
inductive TimerRequest.Unhurried (kind : TimerKind) :
    Nanoseconds → (TimerToken → TimerRequest) → Prop
  | once {delay : Nanoseconds} (h : kind.relays = true → Nanoseconds.perMilli ≤ delay) :
      Unhurried kind delay (.once delay)
  | repeating {period : Nanoseconds} (h : kind.relays = true → Nanoseconds.perMilli ≤ period)
      (hkind : kind ≠ .release) : Unhurried kind period (.repeating period)

theorem TimerRequest.Unhurried.perMilli_le {kind : TimerKind} {delay : Nanoseconds}
    {request : TimerToken → TimerRequest} (h : Unhurried kind delay request)
    (hkind : kind.relays = true) : Nanoseconds.perMilli ≤ delay := by
  cases h with
  | once h => exact h hkind
  | repeating h _ => exact h hkind

/-- The plan asks for its timer in such a way. -/
def TimerPlan.Unhurried : TimerPlan → Prop
  | .once delay kind => TimerRequest.Unhurried kind delay (.once delay)
  | .repeating period kind => TimerRequest.Unhurried kind period (.repeating period)
  | .keep | .stop => True

/-- No mapping plans to blink or to end a hold within less than a millisecond. -/
theorem Mapping.Plans.unhurried {m : Mapping} {plan : TimerPlan} (h : m.Plans plan) :
    plan.Unhurried := by
  obtain ⟨source, target, settings, was, now, rfl⟩ := h
  simp only [Mapping.timerPlan]
  split_ifs <;> first
    | trivial
    | exact .once fun _ => Nanoseconds.perMilli_le_ofRate _
    | exact .once (by simp [TimerKind.relays])
    | exact .repeating (fun _ => Nanoseconds.perMilli_le_ofRate _) (by simp)
    | exact .repeating (by simp [TimerKind.relays]) (by simp)

/-- Checked settings let a key repeat at most once in a millisecond. -/
theorem Config.IsCompiled.perMilli_le_interval {config : Config} (hconfig : config.IsCompiled) :
    Nanoseconds.perMilli ≤ config.settings.keyRepeatInterval := by
  obtain ⟨file, rfl⟩ := hconfig
  have hchecked : ∀ s : Settings, s.sanitize.1.keyRepeatInterval =
      if s.keyRepeatInterval = 0 then Settings.standard.keyRepeatInterval
      else s.keyRepeatInterval := by
    intro s
    show (Settings.checkInterval _ s.keyRepeatInterval _).1 = _
    unfold Settings.checkInterval
    split <;> rfl
  show _ ≤ file.general.settings.sanitize.1.keyRepeatInterval
  rw [hchecked]
  split
  · decide
  · rename_i hsome
    -- An interval that is named is named in whole milliseconds.
    change ¬ (file.general.keyRepeatIntervalMs.map Nanoseconds.ofMillis).getD _ = 0 at hsome
    show _ ≤ (file.general.keyRepeatIntervalMs.map Nanoseconds.ofMillis).getD _
    cases hinterval : file.general.keyRepeatIntervalMs with
    | none => decide
    | some ms =>
      rw [hinterval] at hsome
      have hms : 0 < ms := Nat.pos_of_ne_zero fun hzero => hsome (by rw [hzero]; rfl)
      exact Nat.le_mul_of_pos_left _ hms

/-! ## §3 Timers in order -/

namespace Engine

variable {e e' : Engine}

/-- What can be relied on about timers at all times. -/
structure Orderly (e : Engine) : Prop where
  known : TimersKnown e
  issued : ∀ use ∈ e.timers, use.token ≤ e.lastToken
  steady : e.clock.Steady
  /-- The end of a hold comes once. -/
  single : ∀ use ∈ e.timers, use.kind = .release → ∀ t ∈ e.clock.timers, t.token = use.token →
    t.period = none
  interval : Nanoseconds.perMilli ≤ e.settings.keyRepeatInterval

/-- A binding has a timer under the token, of a kind that relays or of one that does not. -/
def Awaits (e : Engine) (id : Nat) (relays : Bool) (token : TimerToken) : Prop :=
  ∃ use ∈ e.timers, use.token = token ∧ use.binding = id ∧ use.kind.relays = relays

/-- No binding has a timer under the token. -/
def Strays (e : Engine) (token : TimerToken) : Prop := ∀ use ∈ e.timers, use.token ≠ token

/-- How often at most a timer that is due then goes off up to a time. -/
def ticksLeft (limit due : Nanoseconds) : Nat :=
  if due ≤ limit then (limit - due) / Nanoseconds.perMilli + 1 else 0

theorem ticksLeft_mono (limit : Nanoseconds) {due due' : Nanoseconds} (h : due ≤ due') :
    ticksLeft limit due' ≤ ticksLeft limit due := by
  unfold ticksLeft
  split
  · rename_i hdue
    rw [if_pos (Nat.le_trans h hdue)]
    exact Nat.succ_le_succ (Nat.div_le_div_right (Nat.sub_le_sub_left h limit))
  · exact Nat.zero_le _

/-- Less is left a millisecond later. -/
theorem ticksLeft_lt {limit due : Nanoseconds} (hdue : due ≤ limit) :
    ticksLeft limit (due + Nanoseconds.perMilli) < ticksLeft limit due := by
  unfold ticksLeft
  rw [if_pos hdue]
  split
  · rename_i hlater
    have hsplit : limit - (due + Nanoseconds.perMilli) + Nanoseconds.perMilli = limit - due := by
      rw [← Nat.sub_sub, Nat.sub_add_cancel (Nat.le_sub_of_add_le' hlater)]
    rw [← hsplit, Nat.add_div_right _ (by decide)]
    exact Nat.lt_succ_self _
  · exact Nat.succ_pos _

/-- **Nothing goes off too often**: from `now` on, up to `limit`, a timer of a binding goes off at most
as often as `own` says, and one that no binding has at most as often as `stray` says. -/
structure Paced (limit now : Nanoseconds) (own : Bool → Nat → Nat) (stray : TimerToken → Nat)
    (e : Engine) : Prop extends Orderly e where
  later : now ≤ e.clock.now
  ahead : ∀ t ∈ e.clock.timers, now ≤ t.due
  awaited : ∀ t ∈ e.clock.timers, ∀ id relays, e.Awaits id relays t.token →
    ticksLeft limit t.due ≤ own relays id
  strays : ∀ t ∈ e.clock.timers, e.Strays t.token → ticksLeft limit t.due ≤ stray t.token

/-- There is room for timers that are started from that time on. -/
def Roomy (limit now : Nanoseconds) (own : Bool → Nat → Nat) : Prop :=
  ∀ id, ticksLeft limit (now + Nanoseconds.perMilli) ≤ own true id ∧
    ticksLeft limit now ≤ own false id

theorem Roomy.start {limit now : Nanoseconds} {own : Bool → Nat → Nat} (h : Roomy limit now own)
    {time delay : Nanoseconds} (htime : now ≤ time) {kind : TimerKind}
    {request : TimerToken → TimerRequest} (hrequest : TimerRequest.Unhurried kind delay request)
    (id : Nat) : ticksLeft limit (time + delay) ≤ own kind.relays id := by
  cases hkind : kind.relays with
  | true =>
    have hlater := Nat.add_le_add htime (hrequest.perMilli_le hkind)
    exact Nat.le_trans (ticksLeft_mono limit hlater) (h id).1
  | false => exact Nat.le_trans (ticksLeft_mono limit (Nat.le_add_right_of_le htime)) (h id).2

namespace Paced

variable {limit now : Nanoseconds} {own : Bool → Nat → Nat} {stray : TimerToken → Nat}

theorem congr (he : Paced limit now own stray e) (h : SameTimers e e')
    (hsettings : e'.settings = e.settings) : Paced limit now own stray e' := by
  have hawaits : ∀ id relays token, e'.Awaits id relays token → e.Awaits id relays token := by
    rintro id relays token ⟨use, huse, hsame⟩
    exact ⟨use, h.table ▸ huse, hsame⟩
  have hstrays : ∀ token, e'.Strays token → e.Strays token := fun token hstray use huse =>
    hstray use (h.table.symm ▸ huse)
  constructor
  · constructor
    · exact he.known.congr h
    · rw [h.table, h.last]
      exact he.issued
    · rw [h.clock]
      exact he.steady
    · rw [h.table, h.clock]
      exact he.single
    · rw [hsettings]
      exact he.interval
  · rw [h.clock]
    exact he.later
  · rw [h.clock]
    exact he.ahead
  · rw [h.clock]
    exact fun t ht id relays hsome => he.awaited t ht id relays (hawaits _ _ _ hsome)
  · rw [h.clock]
    exact fun t ht hnone => he.strays t ht (hstrays _ hnone)

/-- On another clock that has nothing armed earlier, nothing goes off more often. -/
theorem onClock (he : Paced limit now own stray e) {clock : Clock} {journal : Journal}
    (hsteady : clock.Steady) (hlater : now ≤ clock.now)
    (htimers : ∀ u ∈ clock.timers, ∃ t ∈ e.clock.timers, t.token = u.token ∧ t.due ≤ u.due ∧
      (t.period = none → u.period = none)) :
    Paced limit now own stray { e with clock, journal } where
  known := he.known
  issued := he.issued
  steady := hsteady
  single use huse hkind u hu htoken := by
    obtain ⟨t, ht, hsame, -, hperiod⟩ := htimers u hu
    exact hperiod (he.single use huse hkind t ht (hsame.trans htoken))
  interval := he.interval
  later := hlater
  ahead u hu := by
    obtain ⟨t, ht, -, hdue, -⟩ := htimers u hu
    exact Nat.le_trans (he.ahead t ht) hdue
  awaited u hu id relays hsome := by
    obtain ⟨t, ht, htoken, hdue, -⟩ := htimers u hu
    exact Nat.le_trans (ticksLeft_mono limit hdue) (he.awaited t ht id relays (htoken ▸ hsome))
  strays u hu hnone := by
    obtain ⟨t, ht, htoken, hdue, -⟩ := htimers u hu
    have hbound := he.strays t ht (htoken ▸ hnone)
    rw [htoken] at hbound
    exact Nat.le_trans (ticksLeft_mono limit hdue) hbound

/-! ## §4 Stopping and starting -/

/-- A binding forgets its timer.  If the clock does not, the timer is a stray from then on. -/
theorem forgetTimer (he : Paced limit now own stray e) {id : Nat} {token : TimerToken}
    {kind : TimerKind} (htimer : (e.latch id).timer = some (token, kind))
    (hstray : ∀ t ∈ e.clock.timers, t.token = token → ticksLeft limit t.due ≤ stray token) :
    Paced limit now own stray (e.forgetTimer id token) where
  known := he.known.forgetTimer htimer
  issued use huse := he.issued use (List.mem_of_mem_filter huse)
  steady := he.steady
  single use huse := he.single use (List.mem_of_mem_filter huse)
  interval := he.interval
  later := he.later
  ahead := he.ahead
  awaited t ht id relays := by
    rintro ⟨use, huse, hsome⟩
    exact he.awaited t ht id relays ⟨use, List.mem_of_mem_filter huse, hsome⟩
  strays t ht hnone := by
    by_cases htoken : t.token = token
    · rw [htoken]
      exact hstray t ht htoken
    · refine he.strays t ht fun use huse hsame => ?_
      refine hnone use (List.mem_filter.mpr ⟨huse, ?_⟩) hsame
      simpa [hsame] using htoken

theorem cancel (he : Paced limit now own stray e) (token : TimerToken) :
    Paced limit now own stray (e.ask (.cancel token)) := by
  refine he.onClock (he.steady.cancel token) he.later fun u hu => ?_
  exact ⟨u, (Clock.mem_cancel.mp hu).1, rfl, Nat.le_refl _, fun h => h⟩

theorem stopTimer (he : Paced limit now own stray e) (id : Nat) :
    Paced limit now own stray (e.stopTimer id) := by
  unfold Engine.stopTimer
  split
  · exact he
  · rename_i token kind htimer
    exact (he.cancel token).forgetTimer htimer fun t ht htoken =>
      absurd htoken (Clock.mem_cancel.mp ht).2

/-- Starting a timer keeps the bounds, if there is room for it. -/
theorem startTimer (he : Paced limit now own stray e) {id : Nat} (hin : id < e.bindings.size)
    {kind : TimerKind} {delay : Nanoseconds} {request : TimerToken → TimerRequest}
    (hrequest : TimerRequest.Unhurried kind delay request)
    (hroom : ticksLeft limit (e.clock.now + delay) ≤ own kind.relays id) :
    Paced limit now own stray (e.startTimer id kind request) := by
  have hknown := he.known.startTimer hin kind request
  have hstop := he.stopTimer id
  have hnow : (e.stopTimer id).clock.now = e.clock.now := by
    unfold Engine.stopTimer
    split <;> rfl
  rw [← hnow] at hroom
  unfold Engine.startTimer at hknown ⊢
  dsimp only at hknown ⊢
  generalize e.stopTimer id = e at hstop hroom hknown ⊢
  -- The request arms one timer, under a token that no binding has had.
  obtain ⟨period, hclock, hspaced, hsingle⟩ : ∃ period, (e.ask (request (e.lastToken + 1))).clock =
      e.clock.arm (e.lastToken + 1) (e.clock.now + delay) period ∧
      (∀ p, period = some p → Nanoseconds.perMilli ≤ p) ∧ (kind = .release → period = none) := by
    cases hrequest with
    | once => exact ⟨none, rfl, nofun, fun _ => rfl⟩
    | repeating _ hkind =>
      exact ⟨_, rfl, fun p hp => Option.some.inj hp ▸ Nat.le_max_right _ _, fun h => absurd h hkind⟩
  have hfresh : ∀ use ∈ e.timers, use.token ≠ e.lastToken + 1 := fun use huse =>
    Nat.ne_of_lt (Nat.lt_succ_of_le (hstop.issued use huse))
  constructor
  -- The tables stay in order.
  · constructor
    · exact hknown
    · intro use huse
      rcases List.mem_cons.mp huse with rfl | hold
      · exact Nat.le_refl _
      · exact Nat.le_succ_of_le (hstop.issued use hold)
    · show (e.ask _).clock.Steady
      rw [hclock]
      exact hstop.steady.arm _ _ hspaced
    · intro use huse hkind t ht htoken
      replace ht : t ∈ (e.ask (request (e.lastToken + 1))).clock.timers := ht
      rw [hclock] at ht
      rcases List.mem_cons.mp huse with rfl | hold
      · rcases Clock.mem_arm.mp ht with ⟨-, hother⟩ | rfl
        · exact absurd htoken hother
        · exact hsingle hkind
      · rcases Clock.mem_arm.mp ht with ⟨hmem, -⟩ | rfl
        · exact hstop.single use hold hkind t hmem htoken
        · exact absurd htoken.symm (hfresh use hold)
    · exact hstop.interval
  · show now ≤ (e.ask _).clock.now
    rw [hclock]
    exact hstop.later
  -- A timer that is armed was armed before, or it is the new one.
  all_goals
    intro t ht
    replace ht : t ∈ (e.ask (request (e.lastToken + 1))).clock.timers := ht
    rw [hclock] at ht
  · rcases Clock.mem_arm.mp ht with ⟨hmem, -⟩ | rfl
    · exact hstop.ahead t hmem
    · exact Nat.le_trans hstop.later (Nat.le_add_right _ _)
  -- For what a binding waits for, there is room: that is where the bound on the new timer is used.
  · rintro id' relays ⟨use, huse, htoken, rfl, rfl⟩
    rcases Clock.mem_arm.mp ht with ⟨hmem, hother⟩ | rfl
    · rcases List.mem_cons.mp huse with rfl | hold
      · exact absurd htoken.symm hother
      · exact hstop.awaited t hmem _ _ ⟨use, hold, htoken, rfl, rfl⟩
    · rcases List.mem_cons.mp huse with rfl | hold
      · exact hroom
      · exact absurd htoken (hfresh use hold)
  · intro hnone
    rcases Clock.mem_arm.mp ht with ⟨hmem, -⟩ | rfl
    · exact hstop.strays t hmem fun use huse => hnone use (List.mem_cons_of_mem _ huse)
    · exact absurd rfl (hnone _ List.mem_cons_self)

theorem followPlan (he : Paced limit now own stray e) (hroomy : Roomy limit now own) {id : Nat}
    {plan : TimerPlan}
    (hplan : plan = .stop ∨ ∃ b, e.bindings[id]? = some b ∧ b.mapping.Plans plan) :
    Paced limit now own stray (e.followPlan id plan) := by
  rcases hplan with rfl | ⟨b, hb, hplans⟩
  · exact he.stopTimer id
  · have hin : id < e.bindings.size := (Array.getElem?_eq_some_iff.mp hb).1
    have hunhurried := hplans.unhurried
    cases plan with
    | keep => exact he
    | stop => exact he.stopTimer id
    | once delay kind => exact he.startTimer hin hunhurried (hroomy.start he.later hunhurried id)
    | repeating period kind =>
      exact he.startTimer hin hunhurried (hroomy.start he.later hunhurried id)

/-! ## §5 Everything an engine does -/

theorem move (hroomy : Roomy limit now own) {t t' : Turn} (h : Turn.Move t t')
    (ht : Paced limit now own stray t.engine) : Paced limit now own stray t'.engine := by
  have hsettings : t'.engine.settings = t.engine.settings := congrArg Layout.settings h.layout
  rcases h.timers with hsame | ⟨id, plan, hplan, hengine⟩
  · exact ht.congr hsame hsettings
  · rw [hengine]
    exact ht.followPlan hroomy hplan

theorem chore (h : Chore e e') (he : Paced limit now own stray e) :
    Paced limit now own stray e' := by
  have hsettings : e'.settings = e.settings := congrArg Layout.settings h.layout
  rcases h.timers with hsame | ⟨time, rfl⟩
  · exact he.congr hsame hsettings
  · refine he.onClock ⟨⟨he.steady.sound.ordered, he.steady.sound.numbered, he.steady.sound.apart⟩,
      he.steady.spaced⟩ (Nat.le_trans he.later (Nat.le_max_left _ _)) fun u hu => ?_
    exact ⟨u, hu, rfl, Nat.le_refl _, fun h => h⟩

/-- A timer that goes off may be armed again, but only for a later time. -/
theorem fire (he : Paced limit now own stray e) {t : Timer} (ht : t ∈ e.clock.timers) :
    Paced limit now own stray { e with clock := e.clock.fire t } := by
  refine he.onClock (he.steady.fire ht) ?_ fun u hu => ?_
  · rw [Clock.now_fire]
    exact Nat.le_trans he.later (Nat.le_max_left _ _)
  · rcases Clock.mem_fire hu with ⟨hold, -⟩ | ⟨period, hperiod, htoken, hdue, -⟩
    · exact ⟨u, hold, rfl, Nat.le_refl _, fun h => h⟩
    · exact ⟨t, ht, htoken.symm, hdue ▸ Nat.le_add_right _ _, fun h => by simp [h] at hperiod⟩

/-- What becomes of a timer that goes off keeps the bounds.  When a key begins to repeat there must be
room for that, and the end of a hold leaves a stray behind if the clock has not dropped it. -/
theorem lapse (he : Paced limit now own stray e) {use : TimerUse} (huse : use ∈ e.timers)
    {b : Binding} (hb : e.bindings[use.binding]? = some b)
    (hroom : use.kind = .keyRepeatDelay →
      ticksLeft limit (e.clock.now + e.settings.keyRepeatInterval) ≤ own false use.binding)
    (hstray : use.kind = .release → ∀ t ∈ e.clock.timers, t.token = use.token →
      ticksLeft limit t.due ≤ stray use.token) :
    Paced limit now own stray (e.lapse use) := by
  unfold Engine.lapse
  cases hkind : use.kind with
  | release => exact he.forgetTimer (he.known use huse) (hstray hkind)
  | keyRepeatDelay =>
    exact he.startTimer (Array.getElem?_eq_some_iff.mp hb).1
      (.repeating (by simp [TimerKind.relays]) (by simp)) (hroom hkind)
  | turbo | repeating | rotate | keyRepeat => exact he

end Paced

theorem timerUse?_some {token : TimerToken} {use : TimerUse} (h : e.timerUse? token = some use) :
    use ∈ e.timers ∧ use.token = token := by
  have hfound : e.timers.find? (fun use => use.token == token) = some use := h
  exact ⟨List.mem_of_find?_eq_some hfound, by simpa using List.find?_some hfound⟩

/-- The end of a hold that has gone off is not armed any more. -/
theorem Orderly.gone_of_release (he : Orderly e) {t : Timer} (ht : t ∈ e.clock.timers)
    {use : TimerUse} (huse : use ∈ e.timers) (htoken : use.token = t.token)
    (hkind : use.kind = .release) : ∀ u ∈ (e.clock.fire t).timers, u.token ≠ use.token := by
  intro u hu hsame
  have hperiod := he.single use huse hkind t ht htoken.symm
  rcases Clock.mem_fire hu with ⟨hold, horder⟩ | ⟨period, hsome, -⟩
  · rw [he.steady.sound.eq_of_token hold ht (hsame.trans htoken)] at horder
    contradiction
  · rw [hperiod] at hsome
    contradiction

namespace Paced

variable {limit now : Nanoseconds} {own : Bool → Nat → Nat} {stray : TimerToken → Nat}

/-- A timer that goes off by the clock keeps the bounds. -/
theorem expire (he : Paced limit now own stray e) (hroomy : Roomy limit now own) {t : Timer}
    (ht : t ∈ e.clock.timers) {use : TimerUse} (huse : use ∈ e.timers)
    (htoken : use.token = t.token) {b : Binding} (hb : e.bindings[use.binding]? = some b) :
    Paced limit now own stray (({ e with clock := e.clock.fire t } : Engine).lapse use) := by
  have hfired := he.fire ht
  refine hfired.lapse huse hb (fun _ => ?_) fun hkind u hu hsame => ?_
  · exact Nat.le_trans (ticksLeft_mono limit (Nat.le_add_right_of_le hfired.later))
      (hroomy use.binding).2
  · exact absurd hsame (he.gone_of_release ht huse htoken hkind u hu)

/-- An installation forgets all timers, after they have been cancelled. -/
theorem install (he : Paced limit now own stray e) {config : Config} (hconfig : config.IsCompiled)
    (time : Nat) : Paced limit now own stray (e.cancelTimers.install config time) := by
  obtain ⟨hleft, -, -⟩ := cancelEach e.timers e
  have hcancelled : ∀ (uses : List TimerUse) {e : Engine}, Paced limit now own stray e →
      Paced limit now own stray (uses.foldl (fun e use => e.ask (.cancel use.token)) e) := by
    intro uses
    induction uses with
    | nil => exact fun he => he
    | cons use rest ih => exact fun he => ih (he.cancel use.token)
  have hclock := hcancelled e.timers he
  change ∀ t ∈ e.cancelTimers.clock.timers, _ at hleft
  change Paced limit now own stray e.cancelTimers at hclock
  obtain ⟨bindings, outputs, pads, queue, remainder, snapshots, events, hinstall, -⟩ :=
    install_frame e.cancelTimers config time
  have hknown := TimersKnown.ofInstall e.cancelTimers config time
  rw [hinstall] at hknown ⊢
  constructor
  · exact ⟨hknown, nofun, hclock.steady, nofun, hconfig.perMilli_le_interval⟩
  · exact hclock.later
  · exact hclock.ahead
  · rintro t ht id relays ⟨use, huse, -⟩
    exact absurd huse List.not_mem_nil
  · intro t ht _
    obtain ⟨hmem, hnone⟩ := hleft t ht
    exact he.strays t hmem fun use huse htoken => hnone use huse htoken.symm

end Paced

/-- **Bounds with room for new timers are stable.** -/
theorem paced_stable {limit now : Nanoseconds} {own : Bool → Nat → Nat} {stray : TimerToken → Nat}
    (hroomy : Roomy limit now own) :
    Stable Config.IsCompiled (Paced limit now own stray) where
  move := Paced.move hroomy
  feed room := Turn.feed_keeps (Paced.move hroomy)
    (fun _ _ _ ht => ht.congr ⟨fun _ => rfl, rfl, rfl, rfl, rfl⟩ rfl) room
  chore := Paced.chore
  force e time he := by
    have hforced := forceReleaseAll_keeps (Paced.move hroomy)
      (Turn.feed_keeps (Paced.move hroomy)
        fun _ _ _ ht => ht.congr ⟨fun _ => rfl, rfl, rfl, rfl, rfl⟩ rfl)
      Paced.chore (fun _ _ he => he.congr ⟨fun _ => rfl, rfl, rfl, rfl, rfl⟩ rfl) e time he
    exact ⟨hforced, hforced.congr ⟨fun _ => rfl, rfl, rfl, rfl, rfl⟩ rfl⟩
  lapse hdue huse hb he := by
    obtain ⟨t, ht, htoken, -, -, rfl⟩ := Clock.nextDue?_some hdue
    obtain ⟨hmem, hsame⟩ := timerUse?_some huse
    exact he.expire hroomy ht hmem (hsame.trans htoken.symm) hb
  stray hdue _ he := by
    obtain ⟨t, ht, -, -, -, rfl⟩ := Clock.nextDue?_some hdue
    exact he.fire ht
  install e _ time hconfig he := he.install hconfig time

end Engine

end VirtualPad
