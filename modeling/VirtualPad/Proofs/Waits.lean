import VirtualPad.Proofs.Rests
import VirtualPad.Proofs.Ticks

/-!
# Timers that are waited for

A binding that has a timer waits for it, and the clock knows when it is due.  Starting and stopping
the timers of other bindings does not move it: they have other tokens, and no token is given out
twice.  So as long as a binding has the same timer, the clock has it armed as it was, until it goes
off itself.

The main result is `Engine.Waits`, a property of a single timer that everything keeps except its own
tick.
-/

namespace VirtualPad

namespace Clock

/-- The clock has a timer armed under a token for that time, and with that period if it repeats. -/
def Has (c : Clock) (token : TimerToken) (due : Nanoseconds) (period : Option Nanoseconds) : Prop :=
  ∃ t ∈ c.timers, t.token = token ∧ t.due = due ∧ t.period = period

variable {c : Clock} {token other : TimerToken} {due : Nanoseconds} {period : Option Nanoseconds}

theorem Has.cancel (h : c.Has token due period) (hne : token ≠ other) :
    (c.cancel other).Has token due period := by
  obtain ⟨t, ht, rfl, hrest⟩ := h
  exact ⟨t, mem_cancel.mpr ⟨ht, hne⟩, rfl, hrest⟩

theorem Has.arm (h : c.Has token due period) (hne : token ≠ other) (time : Nanoseconds)
    (every : Option Nanoseconds) : (c.arm other time every).Has token due period := by
  obtain ⟨t, ht, rfl, hrest⟩ := h
  exact ⟨t, mem_arm.mpr (.inl ⟨ht, hne⟩), rfl, hrest⟩

theorem has_arm (c : Clock) (token : TimerToken) (due : Nanoseconds)
    (period : Option Nanoseconds) : (c.arm token due period).Has token due period :=
  ⟨_, mem_arm.mpr (.inr rfl), rfl, rfl, rfl⟩

/-- A timer that goes off leaves the others where they are. -/
theorem Has.fire (hc : c.Sound) {t : Timer} (ht : t ∈ c.timers) (h : c.Has token due period)
    (hne : token ≠ t.token) : (c.fire t).Has token due period := by
  have hkept : Clock.Has { c with
      now := max c.now t.due, timers := c.timers.filter fun u => u.order != t.order }
      token due period := by
    obtain ⟨u, hu, rfl, hrest⟩ := h
    refine ⟨u, List.mem_filter.mpr ⟨hu, ?_⟩, rfl, hrest⟩
    have horder : u.order ≠ t.order := fun horder =>
      hne (congrArg Timer.token (hc.eq_of_order hu ht horder))
    simpa using horder
  unfold Clock.fire
  dsimp only
  split
  · exact hkept
  · exact hkept.arm hne _ _

/-- A timer that repeats is due one period later after it has gone off. -/
theorem has_fire {t : Timer} {every : Nanoseconds} (hperiod : t.period = some every) :
    (c.fire t).Has t.token (t.due + every) (some every) := by
  unfold Clock.fire
  rw [hperiod]
  exact has_arm _ _ _ _

end Clock

namespace Engine

variable {e e' : Engine} {id : Nat} {token : TimerToken} {kind : TimerKind} {due : Nanoseconds}
  {period : Option Nanoseconds}

/-! ## §1 One timer -/

@[simp] theorem lastToken_stopTimer (e : Engine) (id : Nat) :
    (e.stopTimer id).lastToken = e.lastToken := by
  unfold stopTimer
  split <;> rfl

theorem lastToken_startTimer (e : Engine) (id : Nat) (kind : TimerKind)
    (request : TimerToken → TimerRequest) :
    (e.startTimer id kind request).lastToken = e.lastToken + 1 := by
  show (e.stopTimer id).lastToken + 1 = _
  rw [lastToken_stopTimer]

theorem timer_startTimer (e : Engine) {id : Nat} (hin : id < e.bindings.size) (kind : TimerKind)
    (request : TimerToken → TimerRequest) :
    ((e.startTimer id kind request).latch id).timer = some (e.lastToken + 1, kind) := by
  have hsize : id < (e.stopTimer id).bindings.size := by
    rwa [size_congr (layout_of_untimed (untimed_stopTimer e id))]
  unfold startTimer
  dsimp only
  rw [latch_mapLatch]
  refine (congrArg Latch.timer (if_pos ⟨rfl, hsize⟩)).trans ?_
  rw [lastToken_stopTimer]

theorem has_startTimer_once (e : Engine) (id : Nat) (kind : TimerKind) (delay : Nanoseconds) :
    (e.startTimer id kind (.once delay)).clock.Has (e.lastToken + 1) (e.clock.now + delay) none := by
  show ((e.stopTimer id).clock.once delay ((e.stopTimer id).lastToken + 1)).Has _ _ _
  unfold Clock.once
  rw [lastToken_stopTimer, now_stopTimer]
  exact Clock.has_arm _ _ _ _

theorem has_startTimer_repeating (e : Engine) (id : Nat) (kind : TimerKind) (every : Nanoseconds) :
    (e.startTimer id kind (.repeating every)).clock.Has (e.lastToken + 1) (e.clock.now + every)
      (some (max every Nanoseconds.perMilli)) := by
  show ((e.stopTimer id).clock.repeating every ((e.stopTimer id).lastToken + 1)).Has _ _ _
  unfold Clock.repeating
  rw [lastToken_stopTimer, now_stopTimer]
  exact Clock.has_arm _ _ _ _

/-- What becomes of the timer of a binding when it goes off. -/
theorem timer_lapse (e : Engine) {use : TimerUse} (hin : use.binding < e.bindings.size) :
    ((e.lapse use).latch use.binding).timer = match use.kind with
      | .release => none
      | .keyRepeatDelay => some (e.lastToken + 1, .keyRepeat)
      | .turbo | .repeating | .rotate | .keyRepeat => (e.latch use.binding).timer := by
  unfold Engine.lapse
  cases use.kind with
  | release =>
    show ((mapLatch _ use.binding _).latch use.binding).timer = none
    rw [latch_mapLatch]
    exact congrArg Latch.timer (if_pos ⟨rfl, hin⟩)
  | keyRepeatDelay => exact timer_startTimer e hin _ _
  | turbo | repeating | rotate | keyRepeat => rfl

theorem Clock.Has.stopTimer (h : e.clock.Has token due period)
    (hother : ∀ kind, (e.latch id).timer ≠ some (token, kind)) :
    (e.stopTimer id).clock.Has token due period := by
  unfold Engine.stopTimer
  split
  · exact h
  · rename_i stopped kind htimer
    refine Clock.Has.cancel h ?_
    rintro rfl
    exact hother kind htimer

theorem Clock.Has.startTimer (h : e.clock.Has token due period)
    (hother : ∀ kind, (e.latch id).timer ≠ some (token, kind)) (hissued : token ≤ e.lastToken)
    {request : TimerToken → TimerRequest} {once : Bool} (hrequest : TimerRequest.Arming request once) :
    (e.startTimer id kind request).clock.Has token due period := by
  have hstopped := Clock.Has.stopTimer h hother
  have hfresh : token ≠ (e.stopTimer id).lastToken + 1 := by
    rw [lastToken_stopTimer]
    exact Nat.ne_of_lt (Nat.lt_succ_of_le hissued)
  show ((e.stopTimer id).ask (request ((e.stopTimer id).lastToken + 1))).clock.Has token due period
  cases hrequest with
  | once delay => exact hstopped.arm hfresh _ _
  | repeating period => exact hstopped.arm hfresh _ _

/-- A token belongs to one binding. -/
theorem TimersAgree.eq_of_timer (he : TimersAgree e) {i j : Nat} {k k' : TimerKind}
    (hi : (e.latch i).timer = some (token, k)) (hj : (e.latch j).timer = some (token, k')) :
    i = j ∧ k = k' := by
  have hsame := he.eq_of_token ((he.table token i k).mpr hi) ((he.table token j k').mpr hj) rfl
  rw [TimerUse.mk.injEq] at hsame
  exact hsame.2

/-- A timer that is due belongs to a binding. -/
theorem TimersAgree.due_binding (he : TimersAgree e) {limit time : Nanoseconds} {clock : Clock}
    (hdue : e.clock.nextDue? limit = some (token, time, clock)) :
    ∃ use b, e.timerUse? token = some use ∧ use ∈ e.timers ∧
      (e.latch use.binding).timer = some (token, use.kind) ∧ e.bindings[use.binding]? = some b := by
  obtain ⟨use, huse, -, htimer, -⟩ := he.due hdue
  cases hb : e.bindings[use.binding]? with
  | none =>
    rw [latch_of_le (Array.getElem?_eq_none_iff.mp hb)] at htimer
    contradiction
  | some b => exact ⟨use, b, huse, List.mem_of_find?_eq_some huse, htimer, hb⟩

/-- If a binding has that timer, the clock has it armed for that time. -/
structure Waits (id : Nat) (token : TimerToken) (kind : TimerKind) (due : Nanoseconds)
    (period : Option Nanoseconds) (e : Engine) : Prop where
  agree : TimersAgree e
  issued : token ≤ e.lastToken
  armed : (e.latch id).timer = some (token, kind) → e.clock.Has token due period

/-- A binding waits for the timer that has just been started for it. -/
theorem waits_startTimer_once (he : TimersAgree e) (hin : id < e.bindings.size)
    (hkind : kind.isOnce = true) (delay : Nanoseconds) :
    Waits id (e.lastToken + 1) kind (e.clock.now + delay) none
      (e.startTimer id kind (.once delay)) where
  agree := (he.stopTimer id).startTimer hin (hkind ▸ .once delay)
  issued := by rw [lastToken_startTimer]
  armed _ := has_startTimer_once e id kind delay

namespace Waits

theorem congr (he : Waits id token kind due period e) (h : SameTimers e e') :
    Waits id token kind due period e' where
  agree := he.agree.congr h
  issued := h.last ▸ he.issued
  armed htimer := by
    rw [h.latches] at htimer
    rw [h.clock]
    exact he.armed htimer

theorem stopTimer (he : Waits id token kind due period e) (i : Nat) :
    Waits id token kind due period (e.stopTimer i) where
  agree := he.agree.stopTimer i
  issued := by
    rw [lastToken_stopTimer]
    exact he.issued
  armed htimer := by
    by_cases hi : i = id
    · subst hi
      rw [TimersAgree.stopTimer_timer] at htimer
      contradiction
    · rw [latch_stopTimer_of_ne e hi] at htimer
      exact Clock.Has.stopTimer (he.armed htimer) fun k hk => hi (he.agree.eq_of_timer hk htimer).1

theorem startTimer (he : Waits id token kind due period e) {i : Nat} (hin : i < e.bindings.size)
    {k : TimerKind} {request : TimerToken → TimerRequest}
    (hrequest : TimerRequest.Arming request k.isOnce) :
    Waits id token kind due period (e.startTimer i k request) where
  agree := (he.agree.stopTimer i).startTimer hin hrequest
  issued := by
    rw [lastToken_startTimer]
    exact Nat.le_succ_of_le he.issued
  armed htimer := by
    by_cases hi : i = id
    · -- The new timer has a token of its own.
      subst hi
      rw [timer_startTimer e hin] at htimer
      have htoken : e.lastToken + 1 = token := congrArg Prod.fst (Option.some.inj htimer)
      exact absurd he.issued (Nat.not_le_of_lt (htoken ▸ Nat.lt_succ_self _))
    · rw [latch_startTimer_of_ne e hi] at htimer
      exact Clock.Has.startTimer (he.armed htimer)
        (fun k hk => hi (he.agree.eq_of_timer hk htimer).1) he.issued hrequest

theorem followPlan (he : Waits id token kind due period e) {i : Nat} {plan : TimerPlan}
    (hplan : plan = .stop ∨ ∃ b, e.bindings[i]? = some b ∧ b.mapping.Plans plan) :
    Waits id token kind due period (e.followPlan i plan) := by
  rcases hplan with rfl | ⟨b, hb, hplans⟩
  · exact he.stopTimer i
  · have hin : i < e.bindings.size := (Array.getElem?_eq_some_iff.mp hb).1
    have hfits := hplans.fits
    cases plan with
    | keep => exact he
    | stop => exact he.stopTimer i
    | once delay k =>
      replace hfits : k.isOnce = true := hfits
      exact he.startTimer hin (hfits ▸ .once delay)
    | repeating period k =>
      replace hfits : k.isOnce = false := hfits
      exact he.startTimer hin (hfits ▸ .repeating period)

theorem move {t t' : Turn} (h : Turn.Move t t') (ht : Waits id token kind due period t.engine) :
    Waits id token kind due period t'.engine := by
  rcases h.timers with hsame | ⟨i, plan, hplan, hengine⟩
  · exact ht.congr hsame
  · rw [hengine]
    exact ht.followPlan hplan

theorem chore (h : Chore e e') (he : Waits id token kind due period e) :
    Waits id token kind due period e' := by
  refine ⟨he.agree.chore h, ?_, ?_⟩
  all_goals rcases h.timers with hsame | ⟨time, rfl⟩
  · exact (he.congr hsame).issued
  · exact he.issued
  · exact (he.congr hsame).armed
  · exact he.armed

theorem feed (room : Nat) :
    Turn.Keeps (Waits id token kind due period) (Turn.feed room) :=
  Turn.feed_keeps move (fun _ _ _ ht => ht.congr ⟨fun _ => rfl, rfl, rfl, rfl, rfl⟩) room

theorem force (he : Waits id token kind due period e) (time : Nat) :
    Waits id token kind due period (e.forceReleaseAll time) :=
  forceReleaseAll_keeps move feed chore
    (fun _ _ he => he.congr ⟨fun _ => rfl, rfl, rfl, rfl, rfl⟩) e time he

/-- The tick of another timer leaves this one armed. -/
theorem lapse (he : Waits id token kind due period e) {limit time : Nanoseconds}
    {other : TimerToken} {clock : Clock} {use : TimerUse} {b : Binding}
    (hdue : e.clock.nextDue? limit = some (other, time, clock))
    (huse : e.timerUse? other = some use) (hb : e.bindings[use.binding]? = some b)
    (hne : token ≠ other) :
    Waits id token kind due period (({ e with clock } : Engine).lapse use) where
  agree := he.agree.lapse hdue huse hb
  issued := by
    unfold Engine.lapse
    split
    · exact he.issued
    · rw [lastToken_startTimer]
      exact Nat.le_succ_of_le he.issued
    all_goals exact he.issued
  armed htimer := by
    obtain ⟨t, ht, htoken, -, -, rfl⟩ := Clock.nextDue?_some hdue
    obtain ⟨use', huse', hown, hlatch, -⟩ := he.agree.due hdue
    obtain rfl : use = use' := Option.some.inj (huse.symm.trans huse')
    by_cases hi : use.binding = id
    · -- The binding waits for the timer that goes off, so it does not wait for this one before.
      exfalso
      have hin : use.binding < ({ e with clock := e.clock.fire t } : Engine).bindings.size :=
        (Array.getElem?_eq_some_iff.mp hb).1
      rw [← hi, timer_lapse _ hin] at htimer
      split at htimer
      · contradiction
      · have hfresh : e.lastToken + 1 = token := congrArg Prod.fst (Option.some.inj htimer)
        exact absurd he.issued (Nat.not_le_of_lt (hfresh ▸ Nat.lt_succ_self _))
      all_goals exact hne (congrArg Prod.fst (Option.some.inj (htimer.symm.trans hlatch)))
    · rw [latch_lapse_of_ne _ hi] at htimer
      have hfired : (e.clock.fire t).Has token due period :=
        Clock.Has.fire he.agree.clock ht (he.armed htimer) (htoken ▸ hne)
      unfold Engine.lapse
      split
      · exact hfired
      · refine Clock.Has.startTimer (e := { e with clock := e.clock.fire t }) hfired
          (fun k hk => hi (he.agree.eq_of_timer hk htimer).1) he.issued (.repeating _)
      all_goals exact hfired

/-- What happens within turns, sources and requests included, keeps a timer waiting. -/
theorem kept : KeptInTurns fun _ => Waits id token kind due period where
  chore := chore
  force {_} _ time he := by
    have hforced := he.force time
    exact ⟨hforced, hforced.congr ⟨fun _ => rfl, rfl, rfl, rfl, rfl⟩⟩
  quiet h _ ht := move h ht
  answer hb hreaches hrespond ht := move (.firstStep hb hreaches hrespond) ht
  feed room := (feed room).along _

/-- **The tick of another timer** keeps a timer waiting, with all that it leads to. -/
theorem expire (he : Waits id token kind due period e) {limit time : Nanoseconds}
    {other : TimerToken} {clock : Clock}
    (hdue : e.clock.nextDue? limit = some (other, time, clock)) (hne : token ≠ other) (ms : Nat) :
    Waits id token kind due period (({ e with clock } : Engine).onTimer other ms) := by
  have htimed : Waits id token kind due period { e with lastTime := ms } :=
    he.congr ⟨fun _ => rfl, rfl, rfl, rfl, rfl⟩
  refine @KeptInTurns.onTimer (fun _ => Waits id token kind due period) kept []
    { e with clock } other ms (fun hstray => ?_) fun use b huse hb =>
      lapse htimed hdue huse hb hne
  obtain ⟨use, b, huse, -, -, hb⟩ := he.agree.due_binding hdue
  exact absurd hb (hstray use b huse)

end Waits

/-! ## §2 What disturbs no timer -/

theorem lastToken_le_followPlan (e : Engine) (id : Nat) (plan : TimerPlan) :
    e.lastToken ≤ (e.followPlan id plan).lastToken := by
  cases plan with
  | keep => exact Nat.le_refl _
  | stop => exact Nat.le_of_eq (lastToken_stopTimer e id).symm
  | once delay kind =>
    show _ ≤ (e.startTimer id kind _).lastToken
    rw [lastToken_startTimer]
    exact Nat.le_succ _
  | repeating period kind =>
    show _ ≤ (e.startTimer id kind _).lastToken
    rw [lastToken_startTimer]
    exact Nat.le_succ _

theorem lastToken_le_lapse (e : Engine) (use : TimerUse) : e.lastToken ≤ (e.lapse use).lastToken := by
  unfold Engine.lapse
  split
  · exact Nat.le_refl _
  · rw [lastToken_startTimer]
    exact Nat.le_succ _
  all_goals exact Nat.le_refl _

/-- Nothing becomes of the timers that are waited for, unless they are stopped or started anew, and the
time stands still. -/
structure KeepsWaiting (e e' : Engine) : Prop where
  agree : TimersAgree e → TimersAgree e'
  later : e.lastToken ≤ e'.lastToken
  waits (id : Nat) (token : TimerToken) (kind : TimerKind) (due : Nanoseconds)
    (period : Option Nanoseconds) : Waits id token kind due period e →
      Waits id token kind due period e'
  now : e'.clock.now = e.clock.now

namespace KeepsWaiting

theorem trans {e'' : Engine} (h : KeepsWaiting e e') (h' : KeepsWaiting e' e'') :
    KeepsWaiting e e'' where
  agree he := h'.agree (h.agree he)
  later := Nat.le_trans h.later h'.later
  waits _ _ _ _ _ he := h'.waits _ _ _ _ _ (h.waits _ _ _ _ _ he)
  now := h'.now.trans h.now

theorem of_same (h : SameTimers e e') : KeepsWaiting e e' where
  agree he := he.congr h
  later := Nat.le_of_eq h.last.symm
  waits _ _ _ _ _ he := he.congr h
  now := congrArg Clock.now h.clock

/-- What keeps every stable property that turns keep keeps timers waiting. -/
theorem of_kept (hnow : e'.clock.now = e.clock.now)
    (h : ∀ P : Engine → Prop, (KeptInTurns fun _ => P) → P e → P e') : KeepsWaiting e e' where
  agree := h TimersAgree (timersAgree_stable fun _ => True).along.toKeptInTurns
  later := (h _ (reserved_stable (fun _ => True) _ _).along.toKeptInTurns (reserved_last e)).1
  waits _ _ _ _ _ := h _ Waits.kept
  now := hnow

/-- A binding that still has its timer finds it armed as before. -/
theorem has (h : KeepsWaiting e e') (he : TimersAgree e) {id : Nat} {token : TimerToken} {kind : TimerKind}
    {due : Nanoseconds} {period : Option Nanoseconds} (hbefore : (e.latch id).timer = some (token, kind))
    (hafter : (e'.latch id).timer = some (token, kind)) (hhas : e.clock.Has token due period) :
    e'.clock.Has token due period :=
  (h.waits id token kind due period
    ⟨he, he.issued _ ((he.table token id kind).mpr hbefore), fun _ => hhas⟩).armed hafter

theorem stopTimer (e : Engine) (id : Nat) : KeepsWaiting e (e.stopTimer id) where
  agree he := he.stopTimer id
  later := Nat.le_of_eq (lastToken_stopTimer e id).symm
  waits _ _ _ _ _ he := he.stopTimer id
  now := now_stopTimer e id

end KeepsWaiting

end Engine

namespace Turn

open Engine

theorem keepsWaiting_move {t t' : Turn} (h : Move t t')
    (hnow : t'.engine.clock.now = t.engine.clock.now) : KeepsWaiting t.engine t'.engine where
  agree := TimersAgree.move h
  later := ((reserved_last t.engine).move h).1
  waits _ _ _ _ _ := Waits.move h
  now := hnow

theorem keepsWaiting_runBinding (room : Nat) (t : Turn) (id : Nat) (pulse : Pulse) (forced : Bool) :
    KeepsWaiting t.engine (t.runBinding (feed room) id pulse forced).1.engine :=
  .of_kept (steps_runBinding t (fun t c pulse => steps_feed t room c pulse) id pulse forced).now
    fun _ hP => @runBinding_along _ _ _ [] @hP.quiet @hP.answer (hP.feed room) t id pulse forced

theorem keepsWaiting_feed (room : Nat) (t : Turn) (c : Control) (pulse : Pulse) :
    KeepsWaiting t.engine (feed room t c pulse).1.engine :=
  .of_kept (steps_feed t room c pulse).now fun _ hP => @(hP.feed room).keeps [] t c pulse

end Turn

namespace Engine

theorem keepsWaiting_commit (t : Turn) (time : Nat) :
    KeepsWaiting t.engine (t.commit.drainQueue time) :=
  .of_kept ((now_drainQueue _ time).trans (Turn.now_commit t)) fun _ hP ht =>
    @KeptByRequests.drainQueue _ hP.toKeptByRequests [] _ time
      (@KeptByRequests.commit _ hP.toKeptByRequests [] t ht)

end Engine

end VirtualPad
