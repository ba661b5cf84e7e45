import Mathlib.Algebra.BigOperators.Ring.Finset
import Mathlib.Algebra.Order.BigOperators.Group.Finset
import Mathlib.Data.Finset.Lattice.Fold
import Mathlib.Order.Lattice.Nat
import Mathlib.Tactic.Ring
import VirtualPad.Proofs.Pace
import VirtualPad.Proofs.Requests
import VirtualPad.Proofs.Fittings

/-!
# The load of an engine

The load of an engine weighs what its timers can still do up to a time.  A tick that moves variables
may start timers at other bindings, so it weighs as much as everything that all of them can do without
moving one.  With that each tick makes the load lighter, whatever it starts, restarts and stops.

* `Engine.now_after`: only the clock moves the time.
* `Engine.load`: the load, bounded through bounds on the single timers (`Engine.Paced.load_le`).
* `Engine.lightens_onTimer`: a tick makes the load lighter.
-/

namespace VirtualPad

/-! ## §1 Only the clock moves the time -/

namespace Engine

@[simp] theorem now_stopTimer (e : Engine) (id : Nat) :
    (e.stopTimer id).clock.now = e.clock.now := by
  unfold stopTimer
  split <;> rfl

theorem now_startTimer (e : Engine) (id : Nat) (kind : TimerKind)
    {request : TimerToken → TimerRequest}
    (hrequest : ∀ (e : Engine) token, (e.ask (request token)).clock.now = e.clock.now) :
    (e.startTimer id kind request).clock.now = e.clock.now :=
  (hrequest _ _).trans (now_stopTimer e id)

@[simp] theorem now_followPlan (e : Engine) (id : Nat) (plan : TimerPlan) :
    (e.followPlan id plan).clock.now = e.clock.now := by
  cases plan with
  | keep => rfl
  | stop => exact now_stopTimer e id
  | once delay kind => exact now_startTimer e id kind fun _ _ => rfl
  | repeating period kind => exact now_startTimer e id kind fun _ _ => rfl

@[simp] theorem now_lapse (e : Engine) (use : TimerUse) :
    (e.lapse use).clock.now = e.clock.now := by
  unfold lapse
  split
  · rfl
  · exact now_startTimer e _ _ fun _ _ => rfl
  all_goals rfl

end Engine

namespace Turn

/-- No step of a turn moves the time. -/
theorem Steps.now {t t' : Turn} (h : Steps t t') :
    t'.engine.clock.now = t.engine.clock.now := by
  induction h with
  | refl => rfl
  | @tail t₁ t₂ _ hstep ih =>
    have hlast : t₂.engine.clock.now = t₁.engine.clock.now := by
      cases hstep with
      | plan id plan => exact Engine.now_followPlan _ id plan
      | lapse use => exact Engine.now_lapse _ use
      | pads users h => rw [engine_updatePads]
      | output slot down replaces hkind =>
        rw [engine_writeOutput]
        split <;> rfl
      | latch | mark | pointer | wheel | request | resend => rfl
    exact hlast.trans ih

theorem now_commit (t : Turn) : t.commit.clock.now = t.engine.clock.now := by
  obtain ⟨pads, queue, remainder, snapshots, events, hcommit, -⟩ := t.commit_frame
  rw [hcommit]

end Turn

namespace Engine

theorem now_forceReleaseAll (e : Engine) (time : Nat) :
    (e.forceReleaseAll time).clock.now = e.clock.now := by
  obtain ⟨t, hsteps, hforced⟩ := steps_forceReleaseAll e time
  rw [hforced, Turn.now_commit, hsteps.now]

theorem now_setActiveUser (e : Engine) (user : User) :
    (e.setActiveUser user).clock.now = e.clock.now := by
  unfold setActiveUser
  split <;> rfl

theorem now_obey (e : Engine) (r : Request) (time : Nat) :
    (e.obey r time).clock.now = e.clock.now := by
  unfold obey
  cases r.command with
  | toggleDisable =>
    dsimp only
    split
    · rfl
    · exact now_forceReleaseAll e time
  | setActiveUser => exact now_setActiveUser e r.user
  | holdActiveUser =>
    dsimp only
    split
    · rfl
    · split
      · exact now_setActiveUser _ _
      · split
        · rfl
        · exact now_setActiveUser _ _
  | toggleConnected =>
    dsimp only
    split
    · rw [inTurn, Turn.now_commit, Turn.engine_updatePad]
    · rfl
  | reload | loadConfig => rfl

theorem now_obeyAll (time bound : Nat) (e : Engine) :
    (obeyAll time bound e).clock.now = e.clock.now := by
  induction bound generalizing e with
  | zero => rfl
  | succ bound ih =>
    unfold obeyAll
    split
    · rfl
    · exact (ih _).trans (now_obey _ _ time)

theorem now_drainQueue (e : Engine) (time : Nat) : (e.drainQueue time).clock.now = e.clock.now :=
  now_obeyAll time _ e

theorem now_accept (e : Engine) (c : Control) (pulse : Pulse) (time : Nat) :
    (e.accept c pulse time).1.clock.now = e.clock.now := by
  refine (now_drainQueue _ time).trans ((Turn.now_commit _).trans ?_)
  exact (Turn.steps_feed _ (cascadeRoom + 1) c pulse).now

theorem now_onTimer (e : Engine) (token : TimerToken) (time : Nat) :
    (e.onTimer token time).clock.now = e.clock.now := by
  unfold onTimer
  split
  · rfl
  · exact (now_drainQueue _ time).trans ((Turn.now_commit _).trans (Turn.steps_tick _ _).now)

theorem now_releaseAll (e : Engine) (time : Nat) :
    (e.releaseAll time).clock.now = e.clock.now :=
  (now_drainQueue _ time).trans (now_forceReleaseAll e time)

theorem now_reload (e : Engine) (config : Config) :
    (e.reload config).clock.now = e.clock.now := by
  have hcancelled : ∀ (uses : List TimerUse) (e : Engine),
      (uses.foldl (fun e use => e.ask (.cancel use.token)) e).clock.now = e.clock.now := by
    intro uses
    induction uses with
    | nil => exact fun _ => rfl
    | cons use rest ih => exact fun e => ih (e.ask (.cancel use.token))
  obtain ⟨bindings, outputs, pads, queue, remainder, snapshots, events, hinstall, -⟩ :=
    install_frame (e.releaseAll e.lastTime).cancelTimers config e.lastTime
  have hinstalled : ((e.releaseAll e.lastTime).cancelTimers.install config e.lastTime).clock.now =
      (e.releaseAll e.lastTime).cancelTimers.clock.now := by
    rw [hinstall]
    rfl
  refine (now_drainQueue _ e.lastTime).trans (hinstalled.trans ?_)
  exact (hcancelled _ _).trans (now_releaseAll e e.lastTime)

/-- Between two runs of the clock the time stands still. -/
theorem now_after (e : Engine) {call : Call} (hcall : ∀ ms, call ≠ .runUntil ms) :
    (e.after call).clock.now = e.clock.now := by
  cases call with
  | input source user down strength time =>
    show (e.processInput source user down strength time).1.clock.now = _
    rcases e.processInput_cases source user down strength time with ⟨pulse, -, hfed⟩ | hnot
    · rw [hfed]
      exact now_accept e source pulse time
    · rw [hnot]
  | motion source user magnitude time =>
    show (e.processRelative source user magnitude time).1.clock.now = _
    rcases e.processRelative_cases source user magnitude time with ⟨pulse, -, hfed⟩ | hnot
    · rw [hfed]
      exact now_accept e source pulse time
    · rw [hnot]
  | runUntil ms => exact absurd rfl (hcall ms)
  | releaseAll time => exact now_releaseAll e time
  | reload config => exact now_reload e config

end Engine

/-! ## §2 What can still go off -/

namespace Timer

variable {a b : Timer}

theorem due_le_of_before (h : a.before b = true) : a.due ≤ b.due := by
  simp only [before, Bool.or_eq_true, decide_eq_true_eq, Bool.and_eq_true, beq_iff_eq] at h
  exact h.elim Nat.le_of_lt fun h => Nat.le_of_eq h.1

theorem due_le_of_not_before (h : ¬ a.before b = true) : b.due ≤ a.due := by
  simp only [before, Bool.or_eq_true, decide_eq_true_eq, not_or] at h
  exact Nat.le_of_not_lt h.1

end Timer

namespace Clock

theorem earliest?_eq_none {ts : List Timer} : earliest? ts = none ↔ ts = [] := by
  cases ts with
  | nil => exact ⟨fun _ => rfl, fun _ => rfl⟩
  | cons t rest =>
    unfold earliest?
    split
    · simp
    · split <;> simp

theorem earliest?_le {ts : List Timer} {t : Timer} (h : earliest? ts = some t) :
    ∀ u ∈ ts, t.due ≤ u.due := by
  induction ts generalizing t with
  | nil => exact nofun
  | cons s rest ih =>
    unfold earliest? at h
    split at h
    · rename_i hnone
      obtain rfl := Option.some.inj h
      rw [earliest?_eq_none.mp hnone]
      simp
    · rename_i first hsome
      rw [List.forall_mem_cons]
      split at h
      · rename_i hearly
        obtain rfl := Option.some.inj h
        exact ⟨Timer.due_le_of_before hearly, ih hsome⟩
      · rename_i hlate
        obtain rfl := Option.some.inj h
        exact ⟨Nat.le_refl _, fun u hu => (Timer.due_le_of_not_before hlate).trans (ih hsome u hu)⟩

/-- What goes off next is due no later than anything else that is armed. -/
theorem nextDue?_le {c clock : Clock} {limit due : Nanoseconds} {token : TimerToken}
    (h : c.nextDue? limit = some (token, due, clock)) : ∀ u ∈ c.timers, due ≤ u.due := by
  obtain ⟨t, ht, hsame⟩ := Option.map_eq_some_iff.mp h
  simp only [Prod.mk.injEq] at hsame
  obtain ⟨rfl, rfl, rfl⟩ := hsame
  intro u hu
  by_cases hlimit : u.due ≤ limit
  · exact earliest?_le ht u (List.mem_filter.mpr ⟨hu, by simpa using hlimit⟩)
  · have hdue := (List.mem_filter.mp (earliest?_mem ht)).2
    exact Nat.le_of_lt (Nat.lt_of_le_of_lt (by simpa using hdue) (Nat.lt_of_not_le hlimit))

theorem nextDue?_none {c : Clock} {limit : Nanoseconds} (h : c.nextDue? limit = none) :
    ∀ t ∈ c.timers, limit < t.due := by
  intro t ht
  by_contra hdue
  have hmem : t ∈ c.timers.filter fun t => decide (t.due ≤ limit) :=
    List.mem_filter.mpr ⟨ht, by simpa using hdue⟩
  have hnone : earliest? (c.timers.filter fun t => decide (t.due ≤ limit)) = none :=
    Option.map_eq_none_iff.mp h
  generalize (c.timers.filter fun t => decide (t.due ≤ limit)) = ts at hmem hnone
  cases ts with
  | nil => contradiction
  | cons u rest =>
    unfold earliest? at hnone
    split at hnone
    · contradiction
    · split at hnone <;> contradiction

end Clock

namespace Engine

variable {e e' : Engine} {limit : Nanoseconds}

instance (e : Engine) (id : Nat) (relays : Bool) : DecidablePred (e.Awaits id relays) :=
  fun token => inferInstanceAs (Decidable (∃ use ∈ e.timers,
    use.token = token ∧ use.binding = id ∧ use.kind.relays = relays))

instance (e : Engine) : DecidablePred e.Strays :=
  fun token => inferInstanceAs (Decidable (∀ use ∈ e.timers, use.token ≠ token))

/-- How often a timer under one of these tokens can go off. -/
def most (e : Engine) (limit : Nanoseconds) (tokens : TimerToken → Prop) [DecidablePred tokens] :
    Nat :=
  (e.clock.timers.toFinset.filter fun t => tokens t.token).sup fun t => ticksLeft limit t.due

theorem most_le {tokens : TimerToken → Prop} [DecidablePred tokens] {bound : Nat}
    (h : ∀ t ∈ e.clock.timers, tokens t.token → ticksLeft limit t.due ≤ bound) :
    e.most limit tokens ≤ bound := by
  refine Finset.sup_le fun t ht => ?_
  obtain ⟨hmem, htoken⟩ := Finset.mem_filter.mp ht
  exact h t (List.mem_toFinset.mp hmem) htoken

theorem le_most (tokens : TimerToken → Prop) [DecidablePred tokens] {t : Timer}
    (ht : t ∈ e.clock.timers) (htoken : tokens t.token) :
    ticksLeft limit t.due ≤ e.most limit tokens :=
  Finset.le_sup (f := fun t : Timer => ticksLeft limit t.due)
    (Finset.mem_filter.mpr ⟨List.mem_toFinset.mpr ht, htoken⟩)

/-- How often a binding can still relay, if it is given a timer for that right away. -/
def relaying (e : Engine) (limit : Nanoseconds) (id : Nat) : Nat :=
  max (ticksLeft limit (e.clock.now + Nanoseconds.perMilli)) (e.most limit (e.Awaits id true))

/-- How often a binding can still go off without relaying. -/
def idling (e : Engine) (limit : Nanoseconds) (id : Nat) : Nat := e.most limit (e.Awaits id false)

/-- How often a token that no binding has can still go off. -/
def straying (e : Engine) (limit : Nanoseconds) (token : TimerToken) : Nat :=
  e.most limit fun other => other = token ∧ e.Strays other

/-- How often a binding can still go off, relaying or not. -/
def sharing (e : Engine) (limit : Nanoseconds) : Bool → Nat → Nat
  | true => e.relaying limit
  | false => e.idling limit

/-- Bounds on the single timers added up, with a weight on the ticks that relay. -/
def total (size weight : Nat) (own : Bool → Nat → Nat) (tokens : Finset TimerToken)
    (stray : TimerToken → Nat) : Nat :=
  ∑ id ∈ Finset.range size, (weight * own true id + own false id) + ∑ token ∈ tokens, stray token

/-- What can still go off. -/
def load (e : Engine) (limit : Nanoseconds) (weight : Nat) (tokens : Finset TimerToken) : Nat :=
  total e.bindings.size weight (e.sharing limit) tokens (e.straying limit)

section

variable {size weight : Nat} {own own' : Bool → Nat → Nat} {tokens : Finset TimerToken}
  {stray stray' : TimerToken → Nat}

/-- Bounds that are not larger have a total that is not larger. -/
theorem total_le (hown : ∀ relays id, own relays id ≤ own' relays id)
    (hstray : ∀ token, stray token ≤ stray' token) :
    total size weight own tokens stray ≤ total size weight own' tokens stray' := by
  refine Nat.add_le_add (Finset.sum_le_sum fun id _ => ?_) (Finset.sum_le_sum fun token _ => hstray token)
  exact Nat.add_le_add (Nat.mul_le_mul_left _ (hown true id)) (hown false id)

/-- One tick less that does not relay makes the total smaller, if nothing else becomes larger. -/
theorem total_lt_of_idle (hown : ∀ relays id, own relays id ≤ own' relays id)
    (hstray : ∀ token, stray token ≤ stray' token) {id : Nat} (hin : id < size)
    (hless : own false id < own' false id) :
    total size weight own tokens stray < total size weight own' tokens stray' := by
  refine Nat.add_lt_add_of_lt_of_le (Finset.sum_lt_sum (fun id _ => ?_) ⟨id, ?_, ?_⟩)
    (Finset.sum_le_sum fun token _ => hstray token)
  · exact Nat.add_le_add (Nat.mul_le_mul_left _ (hown true id)) (hown false id)
  · exact Finset.mem_range.mpr hin
  · exact Nat.add_lt_add_of_le_of_lt (Nat.mul_le_mul_left _ (hown true id)) hless

/-- So does one tick less under a token that no binding has. -/
theorem total_lt_of_stray (hown : ∀ relays id, own relays id ≤ own' relays id)
    (hstray : ∀ token, stray token ≤ stray' token) {token : TimerToken} (hin : token ∈ tokens)
    (hless : stray token < stray' token) :
    total size weight own tokens stray < total size weight own' tokens stray' := by
  refine Nat.add_lt_add_of_le_of_lt (Finset.sum_le_sum fun id _ => ?_)
    (Finset.sum_lt_sum (fun token _ => hstray token) ⟨token, hin, hless⟩)
  exact Nat.add_le_add (Nat.mul_le_mul_left _ (hown true id)) (hown false id)

/-- One tick less that relays outweighs all that does not relay. -/
theorem total_lt_of_relaying (hown : ∀ id, own true id ≤ own' true id) {cap : Nat}
    (hcap : ∀ id, own false id ≤ cap) (hweight : size * cap < weight)
    (hstray : ∀ token, stray token ≤ stray' token) {id : Nat} (hin : id < size)
    (hless : own true id < own' true id) :
    total size weight own tokens stray < total size weight own' tokens stray' := by
  refine Nat.add_lt_add_of_lt_of_le ?_ (Finset.sum_le_sum fun token _ => hstray token)
  rw [Finset.sum_add_distrib, Finset.sum_add_distrib, ← Finset.mul_sum, ← Finset.mul_sum]
  have hrelaying : ∑ id ∈ Finset.range size, own true id + 1 ≤
      ∑ id ∈ Finset.range size, own' true id :=
    Finset.sum_lt_sum (fun id _ => hown id) ⟨id, Finset.mem_range.mpr hin, hless⟩
  have hidling : ∑ id ∈ Finset.range size, own false id ≤ size * cap := by
    simpa using Finset.sum_le_card_nsmul (Finset.range size) (own false) cap fun id _ => hcap id
  calc weight * ∑ id ∈ Finset.range size, own true id + ∑ id ∈ Finset.range size, own false id
      < weight * ∑ id ∈ Finset.range size, own true id + weight :=
        Nat.add_lt_add_left (hidling.trans_lt hweight) _
    _ = weight * (∑ id ∈ Finset.range size, own true id + 1) := rfl
    _ ≤ weight * ∑ id ∈ Finset.range size, own' true id := Nat.mul_le_mul_left _ hrelaying
    _ ≤ _ := Nat.le_add_right _ _

end

/-- The timers are in order, and none is overdue. -/
structure OnTime (e : Engine) : Prop extends Orderly e where
  ahead : ∀ t ∈ e.clock.timers, e.clock.now ≤ t.due

/-- At the beginning of time nothing goes off more than once. -/
theorem ticksLeft_zero (due : Nanoseconds) : ticksLeft 0 due ≤ 1 := by
  unfold ticksLeft
  split <;> simp

theorem OnTime.paced (he : OnTime e) :
    Paced 0 e.clock.now (fun _ _ => 1) (fun _ => 1) e where
  toOrderly := he.toOrderly
  later := Nat.le_refl _
  ahead := he.ahead
  awaited _ _ _ _ _ := ticksLeft_zero _
  strays _ _ _ := ticksLeft_zero _

theorem Paced.onTime {now : Nanoseconds} {own : Bool → Nat → Nat} {stray : TimerToken → Nat}
    (he : Paced limit now own stray e) (hnow : e.clock.now = now) : OnTime e :=
  ⟨he.toOrderly, hnow ▸ he.ahead⟩

theorem Paced.straying_le {now : Nanoseconds} {own : Bool → Nat → Nat} {stray : TimerToken → Nat}
    (he : Paced limit now own stray e) (token : TimerToken) :
    e.straying limit token ≤ stray token := by
  refine most_le fun t ht => ?_
  rintro ⟨rfl, hnone⟩
  exact he.strays t ht hnone

/-- Bounds on the single timers bound the load. -/
theorem Paced.load_le {now : Nanoseconds} {own : Bool → Nat → Nat} {stray : TimerToken → Nat}
    (he : Paced limit now own stray e)
    (hown : ∀ id, ticksLeft limit (now + Nanoseconds.perMilli) ≤ own true id) (weight : Nat)
    (tokens : Finset TimerToken) :
    e.load limit weight tokens ≤ total e.bindings.size weight own tokens stray := by
  refine total_le (fun relays id => ?_) he.straying_le
  cases relays with
  | true =>
    exact max_le ((ticksLeft_mono limit (Nat.add_le_add_right he.later _)).trans (hown id))
      (most_le fun t ht hsome => he.awaited t ht id true hsome)
  | false => exact most_le fun t ht hsome => he.awaited t ht id false hsome

/-! ## §3 One tick -/

/-- After a timer has gone off the bounds are those of before, or less for what it belongs to. -/
theorem OnTime.fire (he : OnTime e) {t : Timer} (ht : t ∈ e.clock.timers)
    (hfirst : ∀ u ∈ e.clock.timers, t.due ≤ u.due) {own : Bool → Nat → Nat}
    {stray : TimerToken → Nat}
    (hown : ∀ id relays, e.most limit (e.Awaits id relays) ≤ own relays id ∨
      (∃ use ∈ e.timers, use.token = t.token ∧ use.binding = id) ∧
        ticksLeft limit (t.due + Nanoseconds.perMilli) ≤ own relays id)
    (hstray : ∀ token, e.straying limit token ≤ stray token ∨
      token = t.token ∧ ticksLeft limit (t.due + Nanoseconds.perMilli) ≤ stray token) :
    Paced limit t.due own stray { e with clock := e.clock.fire t } := by
  have hfired := he.paced.fire ht
  refine ⟨hfired.toOrderly, ?_, ?_, ?_, ?_⟩
  · show t.due ≤ (e.clock.fire t).now
    rw [Clock.now_fire]
    exact Nat.le_max_right _ _
  · intro u hu
    obtain ⟨v, hv, -, hdue⟩ := Clock.exists_of_mem_fire ht hu
    exact Nat.le_trans (hfirst v hv) hdue
  · intro u hu id relays hsome
    rcases hown id relays with hold | ⟨⟨use, huse, htoken, hbinding⟩, hless⟩
    · obtain ⟨v, hv, hsame, hdue⟩ := Clock.exists_of_mem_fire ht hu
      exact (ticksLeft_mono limit hdue).trans ((le_most (e.Awaits id relays) hv (hsame ▸ hsome)).trans hold)
    · -- The binding has one timer only, and that is the one that went off.
      obtain ⟨other, hother, hsame, hbinding', -⟩ := hsome
      have htimer := he.known other hother
      rw [hbinding', ← hbinding, he.known use huse] at htimer
      obtain ⟨hequal, -⟩ := Prod.mk.inj (Option.some.inj htimer)
      have hdue := he.steady.due_fire ht hu (hsame.symm.trans (hequal.symm.trans htoken))
      exact (ticksLeft_mono limit hdue).trans hless
  · intro u hu hnone
    rcases hstray u.token with hold | ⟨htoken, hless⟩
    · obtain ⟨v, hv, hsame, hdue⟩ := Clock.exists_of_mem_fire ht hu
      have hbound := @le_most e limit (fun other => other = u.token ∧ e.Strays other) _ _
        hv ⟨hsame, hsame ▸ hnone⟩
      exact (ticksLeft_mono limit hdue).trans (hbound.trans hold)
    · exact (ticksLeft_mono limit (he.steady.due_fire ht hu htoken)).trans hless

/-- What becomes of a timer requests nothing. -/
@[simp] theorem queue_lapse (e : Engine) (use : TimerUse) : (e.lapse use).queue = e.queue :=
  (congrArg Engine.queue (untimed_lapse e use) :)

end Engine

namespace Turn

theorem requests_goOn (t : Turn) (id : Nat) (target : Descriptor) :
    (t.goOn id target).requests = t.requests := by
  unfold goOn
  split
  · rfl
  · dsimp only
    split
    · rfl
    · rfl
    · split
      · exact requests_updatePads t _ _
      · rfl
    · rfl

theorem requests_turnStick (t : Turn) (id : Nat) (target : Descriptor) :
    (t.turnStick id target).requests = t.requests := by
  unfold turnStick
  split
  · exact requests_updatePads t _ _
  · rfl

theorem requests_repeatKey (t : Turn) (id : Nat) (target : Descriptor) :
    (t.repeatKey id target).requests = t.requests := by
  unfold repeatKey
  split
  · rfl
  · dsimp only
    rw [apply_ite Turn.requests]
    exact ite_self _

/-- A tick that does not relay settles what becomes of the timer and writes to pads at most. -/
theorem tick_idle (t : Turn) {use : TimerUse} {b : Binding}
    (hb : t.engine.bindings[use.binding]? = some b) (hidle : use.kind.relays = false) :
    (∃ pads, (t.tick use).engine =
      (t.engine.lapse use).write pads (t.engine.lapse use).outputs) ∧
      (t.tick use).requests = t.requests := by
  unfold tick
  dsimp only
  rw [hb]
  dsimp only
  cases hkind : use.kind with
  | turbo | release => simp [hkind, TimerKind.relays] at hidle
  | repeating =>
    obtain ⟨pads, hengine, -⟩ := goOn_frame (t.mapEngine fun e => e.lapse use) use.binding
      (t.engine.descriptor b.mapping.target)
    exact ⟨⟨pads, hengine⟩, requests_goOn _ _ _⟩
  | rotate =>
    obtain ⟨pads, hengine, -⟩ := turnStick_frame (t.mapEngine fun e => e.lapse use) use.binding
      (t.engine.descriptor b.mapping.target)
    exact ⟨⟨pads, hengine⟩, requests_turnStick _ _ _⟩
  | keyRepeatDelay | keyRepeat =>
    exact ⟨⟨_, engine_repeatKey _ _ _⟩, requests_repeatKey _ _ _⟩

end Turn

namespace Engine

variable {e e' : Engine} {limit : Nanoseconds}

/-- A tick that does not relay touches no timers but the one that goes off, and requests nothing. -/
theorem sameTimers_onTimer (hqueue : e.queue = []) {token : TimerToken} {use : TimerUse}
    (huse : e.timerUse? token = some use) {b : Binding} (hb : e.bindings[use.binding]? = some b)
    (hidle : use.kind.relays = false) (time : Nat) :
    SameTimers (({ e with lastTime := time } : Engine).lapse use) (e.onTimer token time) := by
  obtain ⟨⟨pads, hengine⟩, hnone⟩ := Turn.tick_idle { engine := { e with lastTime := time }, time }
    hb hidle
  unfold onTimer
  rw [huse]
  dsimp only
  unfold inTurn
  dsimp only
  generalize ({ engine := { e with lastTime := time }, time } : Turn).tick use = ticked
    at hengine hnone ⊢
  -- Nothing has been requested, so nothing is carried out.
  have hquiet : ticked.commit.queue = [] := by
    rw [Turn.queue_commit, hengine, hnone]
    exact congrArg (· ++ []) ((queue_lapse { e with lastTime := time } use).trans hqueue)
  obtain ⟨pads', queue, remainder, snapshots, events, hcommit, -⟩ := ticked.commit_frame
  rw [drainQueue_of_nil hquiet, hcommit, hengine]
  exact ⟨fun _ => rfl, rfl, rfl, rfl, rfl⟩

/-- A tick that relays keeps the bounds like anything else that happens. -/
theorem Paced.onTimer {now : Nanoseconds} {own : Bool → Nat → Nat} {stray : TimerToken → Nat}
    (he : Paced limit now own stray e) (hroomy : Roomy limit now own) (token : TimerToken)
    (time : Nat)
    (hstray : ∀ use, e.timerUse? token = some use → use.kind = .release →
      ∀ t ∈ e.clock.timers, t.token = use.token → ticksLeft limit t.due ≤ stray use.token) :
    Paced limit now own stray (e.onTimer token time) := by
  refine @KeptInTurns.onTimer (fun _ => Paced limit now own stray)
    (paced_stable hroomy).along.toKeptInTurns [] e token time (fun _ => he) fun use b huse hb => ?_
  have htimed : Paced limit now own stray { e with lastTime := time } :=
    he.congr ⟨fun _ => rfl, rfl, rfl, rfl, rfl⟩ rfl
  refine htimed.lapse (List.mem_of_find?_eq_some huse) hb (fun _ => ?_) fun hkind => ?_
  · exact (ticksLeft_mono limit (Nat.le_add_right_of_le he.later)).trans (hroomy use.binding).2
  · exact hstray use huse hkind

/-- From that time on, bounds hold of the engine afterwards that add up to less than the load of the
engine before. -/
def Lightens (limit due : Nanoseconds) (weight : Nat) (tokens : Finset TimerToken)
    (e e' : Engine) : Prop :=
  ∃ own stray, Paced limit due own stray e' ∧
    (∀ id, ticksLeft limit (due + Nanoseconds.perMilli) ≤ own true id) ∧
    (∀ token, stray token ≤ e.straying limit token) ∧
    total e.bindings.size weight own tokens stray < e.load limit weight tokens

theorem most_le_sharing (e : Engine) (limit : Nanoseconds) (id : Nat) (relays : Bool) :
    e.most limit (e.Awaits id relays) ≤ e.sharing limit relays id := by
  cases relays with
  | true => exact Nat.le_max_right _ _
  | false => exact Nat.le_refl _

/-- Bounds that are lowered at one place. -/
theorem exists_lowered {bounds : Nat → Nat} {place less : Nat} (h : less < bounds place) :
    ∃ lower : Nat → Nat, lower place = less ∧ (∀ other, other ≠ place → lower other = bounds other) ∧
      ∀ i, lower i ≤ bounds i :=
  ⟨Function.update bounds place less, Function.update_self .., fun _ h => Function.update_of_ne h ..,
    update_le_self_iff.mpr h.le⟩

section

variable {weight : Nat} {tokens : Finset TimerToken} {t : Timer}

/-- A binding that may be given a timer right away may be given one later. -/
theorem OnTime.le_relaying (he : OnTime e) (ht : t ∈ e.clock.timers) (id : Nat) :
    ticksLeft limit (t.due + Nanoseconds.perMilli) ≤ e.relaying limit id :=
  (ticksLeft_mono limit (Nat.add_le_add_right (he.ahead t ht) _)).trans (Nat.le_max_left _ _)

variable (he : OnTime e) (ht : t ∈ e.clock.timers) (hfirst : ∀ u ∈ e.clock.timers, t.due ≤ u.due)
  (hlimit : t.due ≤ limit)

include he ht hfirst hlimit

/-- A tick of a timer that no binding has changes nothing but the clock. -/
theorem lightens_of_stray (hnone : e.Strays t.token)
    (htokens : ∀ token, token ∉ tokens → e.straying limit token = 0) :
    Lightens limit t.due weight tokens e { e with clock := e.clock.fire t } := by
  have hstray : ticksLeft limit t.due ≤ e.straying limit t.token :=
    le_most (fun other => other = t.token ∧ e.Strays other) ht ⟨rfl, hnone⟩
  have hless := (ticksLeft_lt hlimit).trans_le hstray
  have hin : t.token ∈ tokens := by
    by_contra hout
    rw [htokens _ hout] at hless
    exact Nat.not_lt_zero _ hless
  obtain ⟨stray, hself, hother, hfewer⟩ := exists_lowered hless
  refine ⟨e.sharing limit, stray, ?_, he.le_relaying ht, hfewer, ?_⟩
  · refine he.fire ht hfirst (fun id relays => .inl (e.most_le_sharing limit id relays)) fun token => ?_
    by_cases hsame : token = t.token
    · exact .inr ⟨hsame, hsame ▸ hself.ge⟩
    · exact .inl (hother token hsame).ge
  · exact total_lt_of_stray (fun _ _ => Nat.le_refl _) hfewer hin (hself.trans_lt hless)

variable {use : TimerUse} (huse : use ∈ e.timers) (htoken : use.token = t.token)
  (hin : use.binding < e.bindings.size)

include huse htoken hin

/-- A tick that does not relay brings no other one nearer. -/
theorem lightens_of_idle (hidle : use.kind.relays = false) {e' : Engine}
    (hafter : ∀ own stray, ticksLeft limit (t.due + Nanoseconds.perMilli) ≤ own false use.binding →
      Paced limit t.due own stray { e with clock := e.clock.fire t } →
        Paced limit t.due own stray e') :
    Lightens limit t.due weight tokens e e' := by
  have hshare : ticksLeft limit t.due ≤ e.idling limit use.binding :=
    le_most (e.Awaits use.binding false) ht ⟨use, huse, htoken, rfl, hidle⟩
  have hless := (ticksLeft_lt hlimit).trans_le hshare
  obtain ⟨idling, hself, hother, hfewer⟩ := exists_lowered hless
  obtain ⟨own, hrelaying, hidling⟩ : ∃ own : Bool → Nat → Nat,
      own true = e.relaying limit ∧ own false = idling :=
    ⟨fun relays => if relays then e.relaying limit else idling, rfl, rfl⟩
  have hown : ∀ relays id, own relays id ≤ e.sharing limit relays id := by
    intro relays id
    cases relays with
    | true => exact (congrFun hrelaying id).le
    | false => exact (congrFun hidling id).trans_le (hfewer id)
  refine ⟨own, e.straying limit, hafter _ _ (by rw [hidling, hself])
    (he.fire ht hfirst (fun id relays => ?_) fun _ => .inl (Nat.le_refl _)), ?_,
    fun _ => Nat.le_refl _, ?_⟩
  · cases relays with
    | true =>
      rw [hrelaying]
      exact .inl (e.most_le_sharing limit id true)
    | false =>
      rw [hidling]
      by_cases hsame : id = use.binding
      · exact .inr ⟨⟨use, huse, htoken, hsame.symm⟩, hsame ▸ hself.ge⟩
      · exact .inl (hother id hsame).ge
  · rw [hrelaying]
    exact he.le_relaying ht
  · refine total_lt_of_idle hown (fun _ => Nat.le_refl _) hin ?_
    rw [hidling, hself]
    exact hless

/-- A tick that relays may bring others nearer, but it weighs more than all of them. -/
theorem lightens_of_relaying (hrelays : use.kind.relays = true)
    (hweight : e.bindings.size * ticksLeft limit e.clock.now < weight) {e' : Engine}
    (hafter : ∀ own stray, Roomy limit t.due own →
      Paced limit t.due own stray { e with clock := e.clock.fire t } →
        Paced limit t.due own stray e') :
    Lightens limit t.due weight tokens e e' := by
  -- The tick takes from what its own binding has left to relay; every other keeps its share.
  have hshare : ticksLeft limit t.due ≤ e.relaying limit use.binding :=
    (le_most (e.Awaits use.binding true) ht ⟨use, huse, htoken, rfl, hrelays⟩).trans
      (Nat.le_max_right _ _)
  have hless := (ticksLeft_lt hlimit).trans_le hshare
  obtain ⟨relaying, hself, hother, hfewer⟩ := exists_lowered hless
  have hroom : ∀ id, ticksLeft limit (t.due + Nanoseconds.perMilli) ≤ relaying id := by
    intro id
    by_cases hsame : id = use.binding
    · exact hsame ▸ hself.ge
    · exact (he.le_relaying ht id).trans (hother id hsame).ge
  refine ⟨fun relays => if relays then relaying else fun _ => ticksLeft limit t.due,
    e.straying limit, hafter _ _ (fun id => ⟨hroom id, Nat.le_refl _⟩)
      (he.fire ht hfirst (fun id relays => ?_) fun _ => .inl (Nat.le_refl _)),
    hroom, fun _ => Nat.le_refl _, ?_⟩
  · cases relays with
    | true =>
      by_cases hsame : id = use.binding
      · exact .inr ⟨⟨use, huse, htoken, hsame.symm⟩, hsame ▸ hself.ge⟩
      · exact .inl ((e.most_le_sharing limit id true).trans (hother id hsame).ge)
    | false => exact .inl (most_le fun u hu _ => ticksLeft_mono limit (hfirst u hu))
  · refine total_lt_of_relaying hfewer (fun _ => Nat.le_refl _) (Nat.lt_of_le_of_lt ?_ hweight)
      (fun _ => Nat.le_refl _) hin (hself.trans_lt hless)
    exact Nat.mul_le_mul_left _ (ticksLeft_mono limit (he.ahead t ht))

end

/-- **Every tick makes the load lighter.** -/
theorem lightens_onTimer (he : OnTime e) (hqueue : e.queue = []) {token : TimerToken}
    {due : Nanoseconds} {clock : Clock} (hdue : e.clock.nextDue? limit = some (token, due, clock))
    {weight : Nat} (hweight : e.bindings.size * ticksLeft limit e.clock.now < weight)
    {tokens : Finset TimerToken} (htokens : ∀ token, token ∉ tokens → e.straying limit token = 0)
    (time : Nat) :
    Lightens limit due weight tokens e (({ e with clock } : Engine).onTimer token time) := by
  have hfirst := Clock.nextDue?_le hdue
  obtain ⟨t, ht, rfl, rfl, hlimit, rfl⟩ := Clock.nextDue?_some hdue
  cases huse : ({ e with clock := e.clock.fire t } : Engine).timerUse? t.token with
  | none =>
    have hnone : e.Strays t.token := fun use hmem hsame => by
      simpa [hsame] using List.find?_eq_none.mp huse use hmem
    have hstays : ({ e with clock := e.clock.fire t } : Engine).onTimer t.token time =
        { e with clock := e.clock.fire t } :=
      onTimer_of_not_mem (e := { e with clock := e.clock.fire t }) hnone time
    rw [hstays]
    exact lightens_of_stray he ht hfirst hlimit hnone htokens
  | some use =>
    obtain ⟨hmem, htoken⟩ := timerUse?_some huse
    obtain ⟨b, hb⟩ : ∃ b, e.bindings[use.binding]? = some b := by
      have htimer := he.known use hmem
      cases hb : e.bindings[use.binding]? with
      | none => simp [latch, hb] at htimer
      | some b => exact ⟨b, rfl⟩
    have hin : use.binding < e.bindings.size := (Array.getElem?_eq_some_iff.mp hb).1
    cases hrelays : use.kind.relays with
    | false =>
      refine lightens_of_idle he ht hfirst hlimit hmem htoken hin hrelays fun own stray hroom hfired => ?_
      have hsame := sameTimers_onTimer (e := { e with clock := e.clock.fire t }) hqueue huse hb
        hrelays time
      have hlayout := (deeds_onTimer { e with clock := e.clock.fire t } t.token time).layout
      have htimed : Paced limit t.due own stray
          { e with clock := e.clock.fire t, lastTime := time } :=
        hfired.congr ⟨fun _ => rfl, rfl, rfl, rfl, rfl⟩ rfl
      refine (htimed.lapse hmem hb (fun hkind => ?_) fun hkind => ?_).congr hsame ?_
      · -- The repeating starts later than the delay has ended.
        have hinterval := Nat.add_le_add htimed.later he.interval
        exact (ticksLeft_mono limit hinterval).trans hroom
      · simp [hkind, TimerKind.relays] at hrelays
      · have hlapse := congrArg Layout.settings (layout_of_untimed (untimed_lapse
          { e with clock := e.clock.fire t, lastTime := time } use))
        exact (congrArg Layout.settings hlayout).trans hlapse.symm
    | true =>
      refine lightens_of_relaying he ht hfirst hlimit hmem htoken hin hrelays hweight
        fun own stray hroomy hfired => hfired.onTimer hroomy t.token time ?_
      intro use' huse' hkind u hu hsame
      obtain rfl : use = use' := Option.some.inj (huse.symm.trans huse')
      exact absurd hsame (he.gone_of_release ht hmem htoken hkind u hu)

end Engine

end VirtualPad
