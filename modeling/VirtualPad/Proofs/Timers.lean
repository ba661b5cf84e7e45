import VirtualPad.Proofs.ArmedTimers
import VirtualPad.Proofs.Installation
import VirtualPad.Proofs.Stability

/-!
# The three places that know a timer

A timer is known to the latch of its binding, to the table of the engine and to the clock.  Between
two calls the three agree: the table is the graph of the latches, and the clock has armed just the
tokens of the table.  In the middle of a call they need not: the clock drops a timer that goes off
once before the engine hears of it.  `lapse` is where the engine catches up, and so it is taken
together with the clock as one step.

Every token is one more than the last.  Hence none is given out twice, and a token that has left the
table never comes back.
-/

namespace VirtualPad

/-- A timer of the kind goes off once. -/
def TimerKind.isOnce : TimerKind → Bool
  | .release | .keyRepeatDelay => true
  | .turbo | .repeating | .rotate | .keyRepeat => false

/-- The token that a request arms. -/
def TimerRequest.armed? : TimerRequest → Option TimerToken
  | .once _ token | .repeating _ token => some token
  | .cancel _ => none

/-- A way to ask for a timer under a token; the index says whether it goes off once. -/
inductive TimerRequest.Arming : (TimerToken → TimerRequest) → Bool → Prop
  | once (delay : Nanoseconds) : Arming (.once delay) true
  | repeating (period : Nanoseconds) : Arming (.repeating period) false

/-- The tokens that were armed, in order. -/
def Journal.armings (j : Journal) : List TimerToken :=
  j.requests.toList.filterMap TimerRequest.armed?

/-- The plan asks for a timer in the way that goes with its kind. -/
def TimerPlan.Fits : TimerPlan → Prop
  | .once _ kind => kind.isOnce = true
  | .repeating _ kind => kind.isOnce = false
  | .keep | .stop => True

/-- The plan is one that the mapping makes. -/
def Mapping.Plans (m : Mapping) (plan : TimerPlan) : Prop :=
  ∃ source target settings was now, m.timerPlan source target settings was now = plan

theorem Mapping.Plans.fits {m : Mapping} {plan : TimerPlan} (h : m.Plans plan) : plan.Fits := by
  obtain ⟨source, target, settings, was, now, rfl⟩ := h
  simp only [Mapping.timerPlan]
  split_ifs <;> trivial

/-- The plan asks for blinking just if that is the way of the mapping. -/
def TimerPlan.Blinks (turbo : Bool) : TimerPlan → Prop
  | .once _ kind | .repeating _ kind => kind = .turbo ↔ turbo = true
  | .keep | .stop => True

/-- Mappings with the turbo option blink, and no others do. -/
theorem Mapping.Plans.blinks {m : Mapping} {plan : TimerPlan} (h : m.Plans plan) :
    plan.Blinks m.options.turbo := by
  obtain ⟨source, target, settings, was, now, rfl⟩ := h
  simp only [Mapping.timerPlan]
  split_ifs <;> simp_all [TimerPlan.Blinks]

namespace Engine

/-- **The timers agree**: latches, table and clock know of the same timers, and tokens are given out
in increasing order. -/
structure TimersAgree (e : Engine) : Prop where
  table (token : TimerToken) (id : Nat) (kind : TimerKind) :
    (⟨token, id, kind⟩ : TimerUse) ∈ e.timers ↔ (e.latch id).timer = some (token, kind)
  apart : (e.timers.map TimerUse.token).Nodup
  issued : ∀ use ∈ e.timers, use.token ≤ e.lastToken
  clock : e.clock.Sound
  armed (token : TimerToken) (once : Bool) :
    e.clock.Arms token once ↔ ∃ use ∈ e.timers, use.token = token ∧ use.kind.isOnce = once
  increasing : e.journal.armings.Pairwise (· < ·)
  given : ∀ token ∈ e.journal.armings, token ≤ e.lastToken

/-- Nothing about the timers differs between two engines. -/
structure SameTimers (e e' : Engine) : Prop where
  latches (id : Nat) : (e'.latch id).timer = (e.latch id).timer
  table : e'.timers = e.timers
  clock : e'.clock = e.clock
  last : e'.lastToken = e.lastToken
  requests : e'.journal.requests = e.journal.requests

theorem SameTimers.trans {e e' e'' : Engine} (h : SameTimers e e') (h' : SameTimers e' e'') :
    SameTimers e e'' where
  latches id := (h'.latches id).trans (h.latches id)
  table := h'.table.trans h.table
  clock := h'.clock.trans h.clock
  last := h'.last.trans h.last
  requests := h'.requests.trans h.requests

theorem sameTimers_mapLatch {e : Engine} {id : Nat} {change : Latch → Latch}
    (hchange : (change (e.latch id)).timer = (e.latch id).timer) :
    SameTimers e (e.mapLatch id change) :=
  ⟨latch_mapLatch_congr Latch.timer hchange, rfl, rfl, rfl, rfl⟩

namespace TimersAgree

variable {e e' : Engine}

theorem eq_of_token (he : TimersAgree e) {use use' : TimerUse} (h : use ∈ e.timers)
    (h' : use' ∈ e.timers) (htoken : use.token = use'.token) : use = use' :=
  List.inj_on_of_nodup_map he.apart h h' htoken

/-- What touches no timer keeps them in agreement. -/
theorem congr (he : TimersAgree e) (h : SameTimers e e') : TimersAgree e' := by
  have harmings : e'.journal.armings = e.journal.armings := by
    unfold Journal.armings
    rw [h.requests]
  constructor
  · intro token id kind
    rw [h.latches, h.table]
    exact he.table token id kind
  · rw [h.table]
    exact he.apart
  · rw [h.table, h.last]
    exact he.issued
  · rw [h.clock]
    exact he.clock
  · rw [h.clock, h.table]
    exact he.armed
  · rw [harmings]
    exact he.increasing
  · rw [harmings, h.last]
    exact he.given

/-! ## §1 Stopping and starting -/

/-- A binding forgets its timer.  The clock has dropped that timer already, in whatever way. -/
theorem forget (he : TimersAgree e) {id : Nat} {token : TimerToken} {kind : TimerKind}
    (htimer : (e.latch id).timer = some (token, kind)) {clock : Clock} {journal : Journal}
    (hsound : clock.Sound)
    (harms : ∀ other once, clock.Arms other once ↔ other ≠ token ∧ e.clock.Arms other once)
    (harmings : journal.armings = e.journal.armings) :
    TimersAgree (({ e with clock, journal } : Engine).forgetTimer id token) := by
  have huse : (⟨token, id, kind⟩ : TimerUse) ∈ e.timers := (he.table token id kind).mpr htimer
  have hmem : ∀ use, use ∈ (({ e with clock, journal } : Engine).forgetTimer id token).timers ↔
      use ∈ e.timers ∧ use.token ≠ token := by
    intro use
    show use ∈ e.timers.filter (fun t => t.token != token) ↔ _
    simp [List.mem_filter]
  have hin : id < e.bindings.size := by
    by_contra hout
    simp [latch_of_le (Nat.le_of_not_lt hout)] at htimer
  have hlatch : ∀ other, ((({ e with clock, journal } : Engine).forgetTimer id token).latch
      other).timer = if id = other then none else (e.latch other).timer := by
    intro other
    show ((({ e with clock, journal } : Engine).dropTimer token).mapLatch id _ |>.latch
      other).timer = _
    rw [latch_mapLatch]
    by_cases hsame : id = other
    · subst hsame
      rw [if_pos ⟨rfl, hin⟩, if_pos rfl]
    · rw [if_neg (fun h => hsame h.1), if_neg hsame]
      rfl
  constructor
  -- Latches and table have lost the same timer.
  · intro other id' kind'
    rw [hmem, hlatch, he.table]
    by_cases hsame : id = id'
    · subst hsame
      rw [if_pos rfl, htimer]
      simp
      tauto
    · rw [if_neg hsame]
      refine ⟨fun h => h.1, fun h => ⟨h, ?_⟩⟩
      intro htoken
      -- Two bindings would wait for one token.
      have htwo := he.eq_of_token ((he.table _ _ _).mpr h) huse htoken
      exact hsame (congrArg TimerUse.binding htwo).symm
  · exact he.apart.sublist (List.filter_sublist.map _)
  · intro use h
    exact he.issued use ((hmem use).mp h).1
  -- And so has the clock.
  · exact hsound
  · intro other once
    show clock.Arms other once ↔ _
    rw [harms, he.armed]
    constructor
    · rintro ⟨hne, use, h, rfl, honce⟩
      exact ⟨use, (hmem use).mpr ⟨h, hne⟩, rfl, honce⟩
    · rintro ⟨use, h, rfl, honce⟩
      exact ⟨((hmem use).mp h).2, use, ((hmem use).mp h).1, rfl, honce⟩
  -- No token has been given out.
  · show journal.armings.Pairwise _
    rw [harmings]
    exact he.increasing
  · show ∀ token ∈ journal.armings, _
    rw [harmings]
    exact he.given

private theorem armings_ask (e : Engine) (request : TimerRequest) :
    (e.ask request).journal.armings = e.journal.armings ++ request.armed?.toList := by
  unfold ask Journal.armings
  cases h : request.armed? <;> simp [h]

theorem stopTimer (he : TimersAgree e) (id : Nat) : TimersAgree (e.stopTimer id) := by
  unfold Engine.stopTimer
  split
  · exact he
  · rename_i token kind htimer
    refine he.forget htimer (he.clock.cancel token) (fun other once => Clock.arms_cancel) ?_
    exact (armings_ask e (.cancel token)).trans (List.append_nil _)

theorem stopTimer_timer (e : Engine) (id : Nat) : ((e.stopTimer id).latch id).timer = none := by
  unfold Engine.stopTimer
  split
  · assumption
  · rename_i token kind htimer
    show ((((e.ask (.cancel token)).dropTimer token).mapLatch id _).latch id).timer = none
    rw [latch_mapLatch]
    split
    · rfl
    · rename_i hout
      have hle : e.bindings.size ≤ id := Nat.le_of_not_lt fun hin => hout ⟨rfl, hin⟩
      simp [latch_of_le hle] at htimer

/-- A binding without a timer is given one under a token that is newer than all before.  The clock has
armed that timer already. -/
theorem remember (he : TimersAgree e) {id : Nat} {token : TimerToken} {kind : TimerKind}
    (hin : id < e.bindings.size) (hnone : (e.latch id).timer = none) (hnew : e.lastToken < token)
    {clock : Clock} {journal : Journal} (hsound : clock.Sound)
    (harms : ∀ other once, clock.Arms other once ↔
      other = token ∧ kind.isOnce = once ∨ other ≠ token ∧ e.clock.Arms other once)
    (harmings : journal.armings = e.journal.armings ++ [token]) :
    TimersAgree (({ e with
      clock, journal, lastToken := token, timers := ⟨token, id, kind⟩ :: e.timers } : Engine).mapLatch
        id fun l => { l with timer := some (token, kind) }) := by
  have hnewer : ∀ use ∈ e.timers, use.token < token := fun use huse =>
    Nat.lt_of_le_of_lt (he.issued use huse) hnew
  constructor
  -- Latches and table have the new timer in common.
  · intro other id' kind'
    rw [latch_mapLatch]
    show (⟨other, id', kind'⟩ : TimerUse) ∈ (⟨token, id, kind⟩ : TimerUse) :: e.timers ↔ _
    rw [List.mem_cons, he.table]
    by_cases hsame : id = id'
    · subst hsame
      rw [if_pos ⟨rfl, hin⟩, hnone]
      simp [eq_comm]
    · rw [if_neg (fun h => hsame h.1)]
      show _ ↔ (e.latch id').timer = _
      simp [Ne.symm hsame]
  · refine List.nodup_cons.mpr ⟨fun hmem => ?_, he.apart⟩
    obtain ⟨use, huse, hsame⟩ := List.mem_map.mp hmem
    exact absurd hsame (Nat.ne_of_lt (hnewer use huse))
  · intro use huse
    rcases List.mem_cons.mp huse with rfl | hold
    · exact Nat.le_refl _
    · exact Nat.le_of_lt (hnewer use hold)
  -- The clock has it, too.
  · exact hsound
  · intro other once
    show clock.Arms other once ↔ ∃ use ∈ (⟨token, id, kind⟩ : TimerUse) :: e.timers, _
    rw [harms, he.armed]
    constructor
    · rintro (⟨rfl, rfl⟩ | ⟨-, use, huse, rfl, rfl⟩)
      · exact ⟨_, List.mem_cons_self, rfl, rfl⟩
      · exact ⟨use, List.mem_cons_of_mem _ huse, rfl, rfl⟩
    · rintro ⟨use, huse, rfl, rfl⟩
      rcases List.mem_cons.mp huse with rfl | hold
      · exact .inl ⟨rfl, rfl⟩
      · exact .inr ⟨Nat.ne_of_lt (hnewer use hold), use, hold, rfl, rfl⟩
  -- Its token comes last of all that have been given out.
  · show journal.armings.Pairwise _
    rw [harmings]
    refine List.pairwise_append.mpr ⟨he.increasing, List.pairwise_singleton _ _, ?_⟩
    intro old hold new hmem
    obtain rfl := List.mem_singleton.mp hmem
    exact Nat.lt_of_le_of_lt (he.given old hold) hnew
  · show ∀ other ∈ journal.armings, other ≤ token
    rw [harmings]
    intro other hother
    rcases List.mem_append.mp hother with hold | hlast
    · exact Nat.le_of_lt (Nat.lt_of_le_of_lt (he.given other hold) hnew)
    · exact Nat.le_of_eq (List.mem_singleton.mp hlast)

/-- A binding whose timer has been stopped gets one under the next token. -/
theorem startTimer {id : Nat} (he : TimersAgree (e.stopTimer id)) (hin : id < e.bindings.size)
    {kind : TimerKind} {request : TimerToken → TimerRequest}
    (hrequest : TimerRequest.Arming request kind.isOnce) :
    TimersAgree (e.startTimer id kind request) := by
  have hnone : ((e.stopTimer id).latch id).timer = none := stopTimer_timer e id
  have hsize : id < (e.stopTimer id).bindings.size := by
    rwa [size_congr (layout_of_untimed (untimed_stopTimer e id))]
  unfold Engine.startTimer
  dsimp only
  generalize e.stopTimer id = e at he hnone hsize ⊢
  obtain ⟨due, period, hclock, honce, harmed⟩ : ∃ due period,
      (e.ask (request (e.lastToken + 1))).clock = e.clock.arm (e.lastToken + 1) due period ∧
      period.isNone = kind.isOnce ∧ (request (e.lastToken + 1)).armed? = some (e.lastToken + 1) := by
    generalize kind.isOnce = once at hrequest
    cases hrequest with
    | once delay => exact ⟨_, _, rfl, rfl, rfl⟩
    | repeating period => exact ⟨_, _, rfl, rfl, rfl⟩
  have harmings := armings_ask e (request (e.lastToken + 1))
  rw [harmed] at harmings
  refine he.remember hsize hnone (Nat.lt_succ_self _) ?_ (fun other once => ?_) harmings
  · rw [hclock]
    exact he.clock.arm _ due period
  · rw [hclock, Clock.arms_arm, honce]

end TimersAgree

theorem TimersAgree.followPlan {e : Engine} (he : TimersAgree e) {id : Nat} {plan : TimerPlan}
    (hplan : plan = .stop ∨ ∃ b, e.bindings[id]? = some b ∧ b.mapping.Plans plan) :
    TimersAgree (e.followPlan id plan) := by
  rcases hplan with rfl | ⟨b, hb, hplans⟩
  · exact he.stopTimer id
  · have hin : id < e.bindings.size := (Array.getElem?_eq_some_iff.mp hb).1
    have hfits := hplans.fits
    cases plan with
    | keep => exact he
    | stop => exact he.stopTimer id
    | once delay kind =>
      replace hfits : kind.isOnce = true := hfits
      exact (he.stopTimer id).startTimer hin (hfits ▸ .once delay)
    | repeating period kind =>
      replace hfits : kind.isOnce = false := hfits
      exact (he.stopTimer id).startTimer hin (hfits ▸ .repeating period)

end Engine

/-! ## §2 Every step -/

theorem Latch.timer_of_respond {l latch : Latch} {m : Mapping} {source target : Descriptor}
    {down forced : Bool} {strength : Float} {response : Option Response}
    (h : l.respond m source target down strength forced = (latch, response)) :
    latch.timer = l.timer := by
  obtain ⟨_, _, _, _, rfl⟩ := respond_frame h
  rfl

/-- A move has nothing to do with the timers unless it follows a plan. -/
theorem Turn.Move.timers {t t' : Turn} (h : Turn.Move t t') :
    Engine.SameTimers t.engine t'.engine ∨ ∃ id plan,
      (plan = .stop ∨ ∃ b, t.engine.bindings[id]? = some b ∧ b.mapping.Plans plan) ∧
      t'.engine = t.engine.followPlan id plan := by
  have hpads : ∀ (e : Engine) pads outputs, Engine.SameTimers e (e.write pads outputs) :=
    fun _ _ _ => ⟨fun _ => rfl, rfl, rfl, rfl, rfl⟩
  -- Only a plan and a stop are about timers; the other moves touch latches, pads and outputs.
  cases h with
  | @swallow id b pulse forced latch hb hreaches hrespond =>
    left
    rw [Turn.engine_mapLatch]
    apply Engine.sameTimers_mapLatch
    rw [Engine.latch_of_getElem? hb]
    exact Latch.timer_of_respond hrespond
  | @act id b pulse forced latch r hb hreaches hrespond =>
    obtain ⟨change, pads, outputs, hengine, -, hcore, -⟩ := Turn.perform_frame
      (t.mapLatch id fun _ => latch) id b.mapping (t.sourceOf b) (t.targetOf b) pulse.user r forced
    have hlatch : Engine.SameTimers t.engine (t.engine.mapLatch id fun _ => latch) := by
      apply Engine.sameTimers_mapLatch
      rw [Engine.latch_of_getElem? hb]
      exact Latch.timer_of_respond hrespond
    have hperform : Engine.SameTimers (t.engine.mapLatch id fun _ => latch)
        ((t.engine.mapLatch id fun _ => latch).mapLatch id change) := by
      apply Engine.sameTimers_mapLatch
      have hsame := congrArg Latch.timer (hcore ((t.engine.mapLatch id fun _ => latch).latch id))
      exact hsame
    rw [hengine]
    exact .inl ((hlatch.trans hperform).trans (hpads _ _ _))
  | @plan id b was now hb =>
    exact .inr ⟨id, _, .inr ⟨b, hb, _, _, _, was, now, rfl⟩, rfl⟩
  | letGo hb hpad =>
    left
    rw [Turn.engine_mapLatch]
    exact Engine.sameTimers_mapLatch rfl
  | @blink id b hb huse =>
    obtain ⟨pads, outputs, hengine, -⟩ := Turn.blink_frame t id (t.sourceOf b) (t.targetOf b)
    have hlit : Engine.SameTimers t.engine (t.engine.mapLatch id fun l => { l with lit := !l.lit }) :=
      Engine.sameTimers_mapLatch rfl
    rw [hengine]
    exact .inl (hlit.trans (hpads _ _ _))
  | @goOn id b hb =>
    obtain ⟨pads, hengine, -⟩ := Turn.goOn_frame t id (t.targetOf b)
    rw [hengine]
    exact .inl (hpads _ _ _)
  | @turnStick id b hb =>
    obtain ⟨pads, hengine, -⟩ := Turn.turnStick_frame t id (t.targetOf b)
    rw [hengine]
    exact .inl (hpads _ _ _)
  | stop id => exact .inr ⟨id, .stop, .inl rfl, rfl⟩

namespace Engine

/-- A chore has nothing to do with the timers, apart from the time. -/
theorem Chore.timers {e e' : Engine} (h : Chore e e') :
    SameTimers e e' ∨ ∃ time, e' = { e with clock := e.clock.advanceTo time } := by
  cases h with
  | note | enable | label | activate => exact .inl ⟨fun _ => rfl, rfl, rfl, rfl, rfl⟩
  | remember id user => exact .inl (sameTimers_mapLatch rfl)
  | advance time => exact .inr ⟨time, rfl⟩

theorem TimersAgree.move {t t' : Turn} (h : Turn.Move t t') (ht : TimersAgree t.engine) :
    TimersAgree t'.engine := by
  rcases h.timers with hsame | ⟨id, plan, hplan, hengine⟩
  · exact ht.congr hsame
  · rw [hengine]
    exact ht.followPlan hplan

theorem TimersAgree.chore {e e' : Engine} (h : Chore e e') (he : TimersAgree e) :
    TimersAgree e' := by
  rcases h.timers with hsame | ⟨time, rfl⟩
  · exact he.congr hsame
  · exact ⟨he.table, he.apart, he.issued, ⟨he.clock.ordered, he.clock.numbered, he.clock.apart⟩,
      he.armed, he.increasing, he.given⟩

/-- A timer that goes off is in the table, and its binding waits for it. -/
theorem TimersAgree.due {e : Engine} (he : TimersAgree e) {limit due : Nanoseconds}
    {token : TimerToken} {clock : Clock}
    (hdue : e.clock.nextDue? limit = some (token, due, clock)) :
    ∃ use, e.timerUse? token = some use ∧ use.token = token ∧
      (e.latch use.binding).timer = some (token, use.kind) ∧ clock.Sound ∧
      ∀ other once, clock.Arms other once ↔
        (use.kind.isOnce = true → other ≠ token) ∧ e.clock.Arms other once := by
  obtain ⟨t, ht, rfl, -, -, rfl⟩ := Clock.nextDue?_some hdue
  obtain ⟨use, huse, htoken, honce⟩ := (he.armed t.token t.period.isNone).mp ⟨t, ht, rfl, rfl⟩
  refine ⟨use, ?_, htoken, ?_, he.clock.fire t, ?_⟩
  · unfold timerUse?
    cases hfind : e.timers.find? fun u => u.token == t.token with
    | none => simpa [htoken] using List.find?_eq_none.mp hfind use huse
    | some found =>
      have hfound : found.token = t.token := by simpa using List.find?_some hfind
      rw [he.eq_of_token (List.mem_of_find?_eq_some hfind) huse (hfound.trans htoken.symm)]
  · rw [← htoken]
    exact (he.table _ _ _).mp huse
  · intro other once
    rw [honce]
    cases hperiod : t.period.isNone with
    | true => simp [Clock.arms_fire_once he.clock ht hperiod]
    | false => simp [Clock.arms_fire_repeating he.clock ht hperiod]

/-- The engine and the clock settle together what becomes of a timer that goes off. -/
theorem TimersAgree.lapse {e : Engine} (he : TimersAgree e) {limit due : Nanoseconds}
    {token : TimerToken} {clock : Clock} {use : TimerUse} {b : Binding}
    (hdue : e.clock.nextDue? limit = some (token, due, clock))
    (huse : e.timerUse? token = some use) (hb : e.bindings[use.binding]? = some b) :
    TimersAgree (({ e with clock } : Engine).lapse use) := by
  obtain ⟨use', huse', htoken, htimer, hsound, harms⟩ := he.due hdue
  obtain rfl : use = use' := Option.some.inj (huse.symm.trans huse')
  have hin : use.binding < e.bindings.size := (Array.getElem?_eq_some_iff.mp hb).1
  subst htoken
  -- A kind that goes off again is armed as before.
  have hagain : use.kind.isOnce = false → TimersAgree { e with clock } := by
    intro hkind
    refine ⟨he.table, he.apart, he.issued, hsound, ?_, he.increasing, he.given⟩
    intro other once
    rw [← he.armed]
    simpa [hkind] using harms other once
  unfold Engine.lapse
  cases hkind : use.kind with
  | release =>
    rw [hkind] at harms htimer
    exact he.forget htimer hsound (by simpa [TimerKind.isOnce] using harms) rfl
  | keyRepeatDelay =>
    rw [hkind] at harms htimer
    have hstop : TimersAgree (({ e with clock } : Engine).stopTimer use.binding) := by
      unfold Engine.stopTimer
      rw [show (({ e with clock } : Engine).latch use.binding).timer = _ from htimer]
      refine he.forget htimer (hsound.cancel use.token) ?_ ?_
      · intro other once
        rw [Clock.arms_cancel, harms]
        simp [TimerKind.isOnce]
      · exact (TimersAgree.armings_ask e (.cancel use.token)).trans (List.append_nil _)
    exact hstop.startTimer hin (.repeating _)
  | turbo => exact hagain (by rw [hkind]; rfl)
  | repeating => exact hagain (by rw [hkind]; rfl)
  | rotate => exact hagain (by rw [hkind]; rfl)
  | keyRepeat => exact hagain (by rw [hkind]; rfl)

/-! ## §3 Installing -/

/-- Cancelling the timers of a table leaves no timer under one of its tokens. -/
theorem cancelEach (uses : List TimerUse) (e : Engine) :
    (∀ t ∈ (uses.foldl (fun e use => e.ask (.cancel use.token)) e).clock.timers,
      t ∈ e.clock.timers ∧ ∀ use ∈ uses, t.token ≠ use.token) ∧
    (uses.foldl (fun e use => e.ask (.cancel use.token)) e).journal.armings = e.journal.armings ∧
    (uses.foldl (fun e use => e.ask (.cancel use.token)) e).lastToken = e.lastToken := by
  induction uses generalizing e with
  | nil => exact ⟨fun t ht => ⟨ht, by simp⟩, rfl, rfl⟩
  | cons use rest ih =>
    obtain ⟨htimers, harmings, hlast⟩ := ih (e.ask (.cancel use.token))
    refine ⟨?_, ?_, hlast⟩
    · intro t ht
      obtain ⟨hmem, hrest⟩ := htimers t ht
      obtain ⟨hold, hne⟩ := Clock.mem_cancel.mp hmem
      exact ⟨hold, List.forall_mem_cons.mpr ⟨hne, hrest⟩⟩
    · exact harmings.trans
        ((TimersAgree.armings_ask e (.cancel use.token)).trans (List.append_nil _))

/-- An engine without armed timers has its timers in agreement after an installation. -/
theorem TimersAgree.ofInstall {e : Engine} (config : Config) (time : Nat)
    (hclock : e.clock.timers = []) (hincreasing : e.journal.armings.Pairwise (· < ·))
    (hgiven : ∀ token ∈ e.journal.armings, token ≤ e.lastToken) :
    TimersAgree (e.install config time) := by
  obtain ⟨bindings, outputs, pads, queue, remainder, snapshots, events, hinstall, -, -, hrest⟩ :=
    install_frame e config time
  rw [hinstall]
  constructor
  · intro token id kind
    have hlatch : Engine.latch { e.vacate config with
        bindings, outputs, pads, queue, remainder
        journal := { e.journal with snapshots, events } } id = {} := by
      unfold latch
      dsimp only
      split
      · rename_i b hb
        exact hrest b (Array.mem_of_getElem? hb)
      · rfl
    rw [hlatch]
    simp [vacate]
  · exact List.nodup_nil
  · intro use huse
    simp [vacate] at huse
  · exact Clock.sound_of_nil hclock
  · intro token once
    simp [vacate, Clock.Arms, hclock]
  · exact hincreasing
  · exact hgiven

/-- **Agreement of the timers is stable.** -/
theorem timersAgree_stable (admits : Config → Prop) : Stable admits TimersAgree where
  move := TimersAgree.move
  feed room := Turn.feed_keeps TimersAgree.move
    (fun _ _ _ ht => ht.congr ⟨fun _ => rfl, rfl, rfl, rfl, rfl⟩) room
  chore := TimersAgree.chore
  force e time he := by
    have hforced := forceReleaseAll_keeps TimersAgree.move
      (Turn.feed_keeps TimersAgree.move fun _ _ _ ht => ht.congr ⟨fun _ => rfl, rfl, rfl, rfl, rfl⟩)
      TimersAgree.chore (fun _ _ he => he.congr ⟨fun _ => rfl, rfl, rfl, rfl, rfl⟩) e time he
    exact ⟨hforced, hforced.congr ⟨fun _ => rfl, rfl, rfl, rfl, rfl⟩⟩
  lapse hdue huse hb he := he.lapse hdue huse hb
  stray hdue hstray he := by
    -- A token that is armed is in the table, and the table knows its binding.
    obtain ⟨use, huse, htoken, htimer, -⟩ := he.due hdue
    rename_i e _ _ _ _
    by_contra
    cases hb : e.bindings[use.binding]? with
    | none => simp [latch, hb] at htimer
    | some b => exact hstray use b huse hb
  install e config time _ he := by
    obtain ⟨htimers, harmings, hlast⟩ := cancelEach e.timers e
    refine TimersAgree.ofInstall config time ?_ ?_ ?_
    · refine List.eq_nil_iff_forall_not_mem.mpr fun t ht => ?_
      obtain ⟨hmem, hnone⟩ := htimers t ht
      obtain ⟨use, huse, htoken, -⟩ := (he.armed t.token t.period.isNone).mp ⟨t, hmem, rfl, rfl⟩
      exact hnone use huse htoken.symm
    · show (e.cancelTimers).journal.armings.Pairwise _
      rw [show e.cancelTimers.journal.armings = _ from harmings]
      exact he.increasing
    · show ∀ token ∈ e.cancelTimers.journal.armings, token ≤ e.cancelTimers.lastToken
      rw [show e.cancelTimers.journal.armings = _ from harmings,
        show e.cancelTimers.lastToken = _ from hlast]
      exact he.given

/-- The timers agree in every engine that can be reached. -/
theorem Reachable.timersAgree {admits : Config → Prop} {e : Engine} (he : Reachable admits e) :
    TimersAgree e := by
  refine (timersAgree_stable admits).reachable ?_ he
  intro config _
  exact TimersAgree.ofInstall config 0 rfl List.Pairwise.nil (by simp [Journal.armings])

/-! ## §4 Tokens that have been given out -/

/-- The token has been given out, and no timer has it that may not have it. -/
def Reserved (may : TimerUse → Prop) (token : TimerToken) (e : Engine) : Prop :=
  token ≤ e.lastToken ∧ ∀ use ∈ e.timers, use.token = token → may use

/-- The token has been given out, and no timer has it any more. -/
def Spent (token : TimerToken) (e : Engine) : Prop :=
  token ≤ e.lastToken ∧ ∀ use ∈ e.timers, use.token ≠ token

namespace Reserved

variable {may : TimerUse → Prop} {token : TimerToken} {e e' : Engine}

theorem congr (he : Reserved may token e) (h : SameTimers e e') : Reserved may token e' := by
  unfold Reserved
  rw [h.table, h.last]
  exact he

theorem forgetTimer (he : Reserved may token e) (id : Nat) (gone : TimerToken) :
    Reserved may token (e.forgetTimer id gone) :=
  ⟨he.1, fun use huse => he.2 use (List.mem_of_mem_filter huse)⟩

theorem stopTimer (he : Reserved may token e) (id : Nat) : Reserved may token (e.stopTimer id) := by
  unfold Engine.stopTimer
  split
  · exact he
  · exact forgetTimer (e := e.ask _) he id _

theorem startTimer (he : Reserved may token e) (id : Nat) (kind : TimerKind)
    (request : TimerToken → TimerRequest) : Reserved may token (e.startTimer id kind request) := by
  have hstop := he.stopTimer id
  refine ⟨Nat.le_succ_of_le hstop.1, ?_⟩
  intro use huse
  rcases List.mem_cons.mp huse with rfl | hold
  · exact fun hsame => absurd hsame (Nat.ne_of_gt (Nat.lt_succ_of_le hstop.1))
  · exact hstop.2 use hold

theorem move {t t' : Turn} (h : Turn.Move t t') (ht : Reserved may token t.engine) :
    Reserved may token t'.engine := by
  rcases h.timers with hsame | ⟨id, plan, -, hengine⟩
  · exact ht.congr hsame
  · rw [hengine]
    cases plan with
    | keep => exact ht
    | stop => exact ht.stopTimer id
    | once delay kind => exact ht.startTimer id kind _
    | repeating period kind => exact ht.startTimer id kind _

theorem chore (h : Chore e e') (he : Reserved may token e) : Reserved may token e' := by
  rcases h.timers with hsame | ⟨time, rfl⟩
  · exact he.congr hsame
  · exact he

end Reserved

theorem reserved_last (e : Engine) : Reserved (fun _ => True) e.lastToken e :=
  ⟨Nat.le_refl _, fun _ _ _ => trivial⟩

/-- **No token is given out twice.** Whatever an engine does, no other timer gets a token. -/
theorem reserved_stable (admits : Config → Prop) (may : TimerUse → Prop) (token : TimerToken) :
    Stable admits (Reserved may token) where
  move := Reserved.move
  feed room := Turn.feed_keeps Reserved.move (fun _ _ _ ht => ht) room
  chore := Reserved.chore
  force e time he := by
    have hforced := forceReleaseAll_keeps Reserved.move
      (Turn.feed_keeps Reserved.move fun _ _ _ ht => ht) Reserved.chore (fun _ _ he => he) e time he
    exact ⟨hforced, hforced⟩
  lapse {e _ _ _ clock use _} _ _ _ he := by
    have hclock : Reserved may token { e with clock } := he
    unfold Engine.lapse
    cases use.kind with
    | release => exact hclock.forgetTimer _ _
    | keyRepeatDelay => exact hclock.startTimer _ _ _
    | turbo | repeating | rotate | keyRepeat => exact hclock
  stray _ _ he := he
  install e config time _ he := by
    obtain ⟨-, -, hlast⟩ := cancelEach e.timers e
    obtain ⟨bindings, outputs, pads, queue, remainder, snapshots, events, hinstall, -⟩ :=
      install_frame e.cancelTimers config time
    rw [hinstall]
    refine ⟨?_, fun use huse => absurd huse List.not_mem_nil⟩
    show token ≤ e.cancelTimers.lastToken
    rw [show e.cancelTimers.lastToken = _ from hlast]
    exact he.1

/-- **No token comes back.** Whatever an engine does, a spent token stays spent. -/
theorem spent_stable (admits : Config → Prop) (token : TimerToken) : Stable admits (Spent token) :=
  reserved_stable admits (fun _ => False) token

/-- A token that is not in the table means nothing to the engine. -/
theorem onTimer_of_not_mem {e : Engine} {token : TimerToken}
    (htoken : ∀ use ∈ e.timers, use.token ≠ token) (time : Nat) : e.onTimer token time = e := by
  have hnone : e.timerUse? token = none :=
    List.find?_eq_none.mpr fun use huse => by simpa using htoken use huse
  unfold onTimer
  rw [hnone]

/-- A token of the table makes the timer go off, and then what has been requested is carried out. -/
theorem onTimer_of_use {e : Engine} {token : TimerToken} {use : TimerUse}
    (huse : e.timerUse? token = some use) (time : Nat) : e.onTimer token time =
      ((({ engine := { e with lastTime := time }, time } : Turn).tick use).commit).drainQueue time := by
  unfold onTimer
  rw [huse]
  rfl

/-- **The three places that know a timer agree between any two calls.** The table has an entry just
where a latch waits for that token, the clock has armed just the tokens of the table, and no binding
and no token has two timers.  Tokens are given out in increasing order, so one that has left the
table is of no use any more, however the engine goes on. -/
theorem timers_coherent {admits : Config → Prop} {e : Engine} (he : Reachable admits e) :
    (∀ token id kind, (⟨token, id, kind⟩ : TimerUse) ∈ e.timers ↔
      ∃ b, e.bindings[id]? = some b ∧ b.latch.timer = some (token, kind)) ∧
    (∀ token, e.clock.isArmed token = true ↔ ∃ use ∈ e.timers, use.token = token) ∧
    (e.timers.map TimerUse.token).Nodup ∧ (e.timers.map TimerUse.binding).Nodup ∧
    (e.clock.timers.map Timer.token).Nodup ∧
    e.journal.armings.Pairwise (· < ·) ∧
    (∀ token time, (∀ use ∈ e.timers, use.token ≠ token) → e.onTimer token time = e) ∧
    ∀ token ∈ e.journal.armings, (∀ use ∈ e.timers, use.token ≠ token) →
      ∀ calls : List Call, (∀ c ∈ calls, c.Admitted admits) →
      ∀ time, (e.afterAll calls).onTimer token time = e.afterAll calls := by
  have hagree := he.timersAgree
  refine ⟨?_, ?_, hagree.apart, ?_, List.pairwise_map.mpr hagree.clock.apart, hagree.increasing,
    fun token time htoken => onTimer_of_not_mem htoken time, ?_⟩
  · intro token id kind
    rw [hagree.table]
    constructor
    · intro htimer
      cases hb : e.bindings[id]? with
      | none => simp [latch, hb] at htimer
      | some b =>
        rw [latch_of_getElem? hb] at htimer
        exact ⟨b, rfl, htimer⟩
    · rintro ⟨b, hb, htimer⟩
      rwa [latch_of_getElem? hb]
  · intro token
    rw [Clock.isArmed_iff]
    constructor
    · rintro ⟨once, harms⟩
      obtain ⟨use, huse, htoken, -⟩ := (hagree.armed token once).mp harms
      exact ⟨use, huse, htoken⟩
    · rintro ⟨use, huse, htoken⟩
      exact ⟨use.kind.isOnce, (hagree.armed _ _).mpr ⟨use, huse, htoken, rfl⟩⟩
  · refine (List.nodup_map_iff_inj_on (List.Nodup.of_map _ hagree.apart)).mpr ?_
    intro use huse use' huse' hbinding
    -- The latch of the binding knows one timer only.
    have htimer := (hagree.table use.token use.binding use.kind).mp huse
    have htimer' := (hagree.table use'.token use'.binding use'.kind).mp huse'
    rw [hbinding, htimer'] at htimer
    obtain ⟨htoken, -⟩ := Prod.mk.inj (Option.some.inj htimer)
    exact hagree.eq_of_token huse huse' htoken.symm
  · intro token hgiven hgone calls hcalls time
    have hspent : Spent token e := ⟨hagree.given token hgiven, hgone⟩
    have hlater : Spent token (e.afterAll calls) :=
      (spent_stable admits token).afterAll e calls hcalls hspent
    exact onTimer_of_not_mem hlater.2 time

/-- The key A makes the key B blink. -/
def blinkingConfig : Config :=
  Config.ofMappings {}
    [{ source := ⟨0x41⟩
       target := ⟨0x42⟩
       options := { turbo := true } }]

/-- The engine that makes B blink while A is held. -/
def blinking : Engine := (ofConfig blinkingConfig).after (.input ⟨0x41⟩ 0 true 1 0)

/-- While the key blinks there is one timer, and its binding, the table and the clock know it; other
tokens mean nothing. -/
theorem timers_coherent_blinking :
    Reachable (fun _ => True) blinking ∧ blinking.timers = [⟨1, 0, .turbo⟩] ∧
      (∃ b, blinking.bindings[0]? = some b ∧ b.latch.timer = some (1, .turbo)) ∧
      blinking.clock.isArmed 1 = true ∧ ∀ time, blinking.onTimer 2 time = blinking := by
  have hpress : (Call.input ⟨0x41⟩ 0 true 1 0).Admitted fun _ => True := trivial
  have hstart : Reachable (fun _ => True) (ofConfig blinkingConfig) := .start trivial
  have hreachable : Reachable (fun _ => True) blinking := hstart.call hpress
  have htimers : blinking.timers = [⟨1, 0, .turbo⟩] := by decide +kernel
  obtain ⟨htable, harmed, -, -, -, -, hunknown, -⟩ := timers_coherent hreachable
  refine ⟨hreachable, htimers, ?_, ?_, ?_⟩
  · exact (htable 1 0 .turbo).mp (by simp [htimers])
  · exact (harmed 1).mpr ⟨_, by rw [htimers]; exact List.mem_cons_self, rfl⟩
  · exact fun time => hunknown 2 time (by simp [htimers])

end Engine

end VirtualPad
