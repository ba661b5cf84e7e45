import VirtualPad.Proofs.Falls
import VirtualPad.Proofs.Waits

/-!
# Phases

A binding with the turbo option takes the other phase with every tick of its timer.  Nothing else does
that to it: in the course of a turn of another source, a request or another timer, it goes on as before,
or it ends, or it begins anew, with the bright phase and a timer of its own.

`Engine.Course` says so of two points of a run.  A binding may be pressed, released and pressed again
within one event, and its own press may release it before it is settled; so what is said of a single run
of the binding has to hold for all that is nested in it.
-/

namespace VirtualPad

/-- What a blinking binding contributes, and the timer that it blinks by. -/
def Latch.rhythm (l : Latch) : (Bool × Bool × List User) × Option (TimerToken × TimerKind) :=
  (l.stake, l.timer)

/-- The latch is as a press leaves it: lit if it is in effect, and then on somebody's pad. -/
def Latch.IsBright (l : Latch) : Prop := l.lit = l.active ∧ (l.active = true → l.applied ≠ [])

theorem Latch.IsBright.congr {l l' : Latch} (h : l.IsBright) (hstake : l'.stake = l.stake) :
    l'.IsBright := by
  simp only [stake, Prod.mk.injEq] at hstake
  obtain ⟨hactive, hlit, happlied⟩ := hstake
  unfold IsBright
  rw [hactive, hlit, happlied]
  exact h

/-- A binding that blinks answers news only, and takes the phase that goes with the news. -/
theorem Latch.respond_turbo {l latch : Latch} {m : Mapping} {source target : Descriptor}
    {down forced : Bool} {strength : Float} {r : Response}
    (h : l.respond m source target down strength forced = (latch, some r))
    (hturbo : m.options.turbo = true) (hrests : target.flags.relative = false) :
    r.was = !r.now ∧ latch.active = r.now ∧ latch.lit = r.now := by
  unfold respond at h
  simp only [hrests, Bool.false_and, Bool.false_eq_true, if_false] at h
  split at h
  · simp at h
  · split at h
    · simp at h
    · rename_i hnews
      obtain ⟨rfl, hr⟩ := Prod.mk.inj h
      obtain rfl := Option.some.inj hr
      refine ⟨?_, rfl, ?_⟩
      · simp only [Mapping.isSettled, hturbo, Bool.or_true, Bool.true_or, Bool.and_true, beq_iff_eq]
          at hnews
        cases hactive : l.active <;> simp_all
      · rfl

/-- The timer of a binding that begins to blink. -/
theorem Mapping.timerPlan_turbo {m : Mapping} (source target : Descriptor) (settings : Settings)
    (hturbo : m.options.turbo = true) :
    m.timerPlan source target settings false true = .repeating (Nanoseconds.ofRate m.rate) .turbo := by
  simp [Mapping.timerPlan, hturbo]

namespace Engine

variable {e e' e'' : Engine} {id : Nat} {period : Nanoseconds}

/-! ## §1 The course of the blinking -/

/-- The binding blinks with that period while it is in effect, and has slots to blink in. -/
def BlinksEvery (id : Nat) (period : Nanoseconds) (e : Engine) : Prop :=
  ∃ b, e.bindings[id]? = some b ∧ b.mapping.options.turbo = true ∧
    (e.descriptor b.mapping.target).needsSlot = true ∧ e.targetUsers b.mapping.targetUser ≠ [] ∧
    Nanoseconds.ofRate b.mapping.rate = period

theorem BlinksEvery.congr (he : BlinksEvery id period e) (hlayout : e'.layout = e.layout) :
    BlinksEvery id period e' := by
  unfold BlinksEvery at he ⊢
  simp only [descriptor_congr hlayout, ← List.length_pos_iff_ne_nil,
    length_targetUsers_congr hlayout] at he ⊢
  exact (exists_binding_congr hlayout (fun m => m.options.turbo = true ∧
    (e.descriptor m.target).needsSlot = true ∧ 0 < (e.targetUsers m.targetUser).length ∧
    Nanoseconds.ofRate m.rate = period) id).mpr he

/-- A binding that blinks, in an engine whose slots and timers are in order. -/
structure Blinker (id : Nat) (period : Nanoseconds) (e : Engine) : Prop where
  rule : BlinksEvery id period e
  mirrored : Mirrored e
  agree : TimersAgree e

theorem Blinker.of_kept (he : Blinker id period e) (hlayout : e'.layout = e.layout)
    (h : ∀ P : Engine → Prop, (KeptInTurns fun _ => P) → P e → P e') : Blinker id period e' where
  rule := he.rule.congr hlayout
  mirrored := h Mirrored (mirrored_stable fun _ => True).along.toKeptInTurns he.mirrored
  agree := h TimersAgree (timersAgree_stable fun _ => True).along.toKeptInTurns he.agree

/-- What becomes of the blinking. -/
inductive Sequel (id : Nat) (period : Nanoseconds) (e e' : Engine) : Prop
  /-- It goes on as before. -/
  | same (hrhythm : (e'.latch id).rhythm = (e.latch id).rhythm)
  /-- It has ended, and leaves no light behind. -/
  | ended (hactive : (e'.latch id).active = false) (htimer : (e'.latch id).timer = none)
      (hdark : (e.latch id).IsBright → (e'.latch id).lit = false)
  /-- It has begun anew, with a timer that is due one period from now. -/
  | anew {token : TimerToken} (hfresh : e.lastToken < token)
      (htimer : (e'.latch id).timer = some (token, .turbo))
      (hbright : (e'.latch id).IsBright)
      (harmed : e'.clock.Has token (e'.clock.now + period) (some period))

/-- Light and effect go together, if they did before. -/
theorem Sequel.bright (h : Sequel id period e e') (hbright : (e.latch id).IsBright) :
    (e'.latch id).IsBright := by
  cases h with
  | same hrhythm => exact hbright.congr (congrArg Prod.fst hrhythm)
  | ended hactive _ hdark =>
    exact ⟨(hdark hbright).trans hactive.symm, fun hdown => absurd hdown (Bool.eq_false_iff.mp hactive)⟩
  | anew _ _ hbright' _ => exact hbright'

theorem Sequel.trans (h : Sequel id period e e') (hlater : e.lastToken ≤ e'.lastToken)
    (he' : TimersAgree e') (hwaiting : KeepsWaiting e' e'') (h' : Sequel id period e' e'') :
    Sequel id period e e'' := by
  cases h' with
  | same hrhythm =>
    have hstake := congrArg Prod.fst hrhythm
    have htimer := congrArg Prod.snd hrhythm
    have hactive := congrArg (fun rhythm => rhythm.1.1) hrhythm
    have hlit := congrArg (fun rhythm => rhythm.1.2.1) hrhythm
    cases h with
    | same hbefore => exact .same (hrhythm.trans hbefore)
    | ended hoff hnone hdark =>
      exact .ended (hactive.trans hoff) (htimer.trans hnone) fun hold => hlit.trans (hdark hold)
    | @anew token hfresh hbefore hbright harmed =>
      -- The timer that is new is waited for from then on.
      have huse := (he'.table token id .turbo).mpr hbefore
      have hwaits : Waits id token .turbo (e'.clock.now + period) (some period) e' :=
        ⟨he', he'.issued _ huse, fun _ => harmed⟩
      refine .anew hfresh (htimer.trans hbefore) (hbright.congr hstake) ?_
      rw [hwaiting.now]
      exact (hwaiting.waits _ _ _ _ _ hwaits).armed (htimer.trans hbefore)
  | ended hoff hnone hdark => exact .ended hoff hnone fun hold => hdark (h.bright hold)
  | anew hfresh hnew hbright harmed =>
    exact .anew (Nat.lt_of_le_of_lt hlater hfresh) hnew hbright harmed

/-- In the course from the one engine to the other no timer that is waited for is disturbed, and the
binding does not change its phase unless it ends or begins anew. -/
structure Course (id : Nat) (period : Nanoseconds) (e e' : Engine) : Prop where
  after : Blinker id period e'
  waiting : KeepsWaiting e e'
  sequel : Sequel id period e e'

namespace Course

theorem trans (h : Course id period e e') (h' : Course id period e' e'') : Course id period e e'' where
  after := h'.after
  waiting := h.waiting.trans h'.waiting
  sequel := h.sequel.trans h.waiting.later h.after.agree h'.waiting h'.sequel

theorem of_rhythm (hafter : Blinker id period e') (hwaiting : KeepsWaiting e e')
    (hrhythm : (e'.latch id).rhythm = (e.latch id).rhythm) : Course id period e e' :=
  ⟨hafter, hwaiting, .same hrhythm⟩

theorem refl (he : Blinker id period e) : Course id period e e :=
  of_rhythm he (.of_same ⟨fun _ => rfl, rfl, rfl, rfl, rfl⟩) rfl

end Course

/-- A chore leaves every rhythm alone. -/
theorem Chore.rhythm (h : Chore e e') (id : Nat) : (e'.latch id).rhythm = (e.latch id).rhythm := by
  cases h with
  | note | enable | label | activate | advance => rfl
  | remember i user => exact latch_mapLatch_congr Latch.rhythm rfl id

namespace Course

/-- A chore that takes no time. -/
theorem chore (he : Blinker id period e) (h : Chore e e') (hnow : e'.clock.now = e.clock.now) :
    Course id period e e' :=
  of_rhythm (he.of_kept h.layout fun _ hP => @KeptByRequests.chore _ hP.toKeptByRequests [] _ _ h)
    (.of_kept hnow fun _ hP => @KeptByRequests.chore _ hP.toKeptByRequests [] _ _ h) (h.rhythm id)

/-- Stopping the timer of another binding. -/
theorem stopTimer (he : Blinker id period e) {i : Nat} (hi : i ≠ id) :
    Course id period e (e.stopTimer i) := by
  have huntimed := untimed_stopTimer e i
  refine of_rhythm ⟨he.rule.congr (layout_of_untimed huntimed), ?_, he.agree.stopTimer i⟩
    (.stopTimer e i) (congrArg Latch.rhythm (latch_stopTimer_of_ne e hi))
  exact @Mirrored.move { engine := e, time := 0 } _ (.stop i) he.mirrored

end Course

end Engine

namespace Turn

open Engine

variable {id : Nat} {period : Nanoseconds}

/-! ## §2 Cascades -/

theorem course_firstStep {t : Turn} (ht : Blinker id period t.engine) {i : Nat} {b : Binding}
    {pulse : Pulse} {forced : Bool} {latch : Latch} {response : Option Response}
    (hb : t.engine.bindings[i]? = some b) (hreaches : t.Reaches b pulse forced)
    (hrespond : b.latch.respond b.mapping (t.sourceOf b) (t.targetOf b) pulse.down pulse.strength
      forced = (latch, response)) :
    Blinker id period (t.firstStep i b pulse forced latch response).engine ∧
      KeepsWaiting t.engine (t.firstStep i b pulse forced latch response).engine := by
  have hmove := Move.firstStep hb hreaches hrespond
  exact ⟨⟨ht.rule.congr hmove.layout, ht.mirrored.move hmove, ht.agree.move hmove⟩,
    keepsWaiting_move hmove (steps_firstStep t hb pulse forced latch response).now⟩

/-- What is left to do after a response disturbs no timer of another binding. -/
theorem keepsWaiting_settle {t : Turn} {i : Nat} {b : Binding} (hb : t.engine.bindings[i]? = some b)
    (source target : Descriptor) (r : Response) :
    KeepsWaiting t.engine (t.settle i b.mapping source target r).engine := by
  have hplan : ∃ c, t.engine.bindings[i]? = some c ∧
      c.mapping.Plans (b.mapping.timerPlan source target t.engine.settings r.was r.now) :=
    ⟨b, hb, source, target, _, _, _, rfl⟩
  have hfollowed : KeepsWaiting t.engine (t.engine.followPlan i
      (b.mapping.timerPlan source target t.engine.settings r.was r.now)) :=
    ⟨fun he => he.followPlan (.inr hplan), lastToken_le_followPlan _ _ _,
      fun _ _ _ _ _ he => he.followPlan (.inr hplan), now_followPlan _ _ _⟩
  unfold settle
  dsimp only
  split
  · exact hfollowed
  · rw [engine_mapLatch]
    exact hfollowed.trans (.of_same (sameTimers_mapLatch rfl))

/-- **Settling a press** starts the timer that the binding blinks by. -/
theorem anew_settle {t : Turn} (hin : id < t.engine.bindings.size) {m : Mapping}
    (source target : Descriptor) {r : Response} (hturbo : m.options.turbo = true)
    (hrate : Nanoseconds.ofRate m.rate = period) (hwas : r.was = false) (hnow : r.now = true)
    {before : Engine} (hlater : before.lastToken ≤ t.engine.lastToken)
    (hbright : (t.engine.latch id).IsBright) :
    Sequel id period before (t.settle id m source target r).engine := by
  have hsettle : (t.settle id m source target r).engine =
      t.engine.startTimer id .turbo (.repeating period) := by
    unfold settle
    dsimp only
    rw [hnow, if_pos rfl, hwas, Mapping.timerPlan_turbo source target _ hturbo, hrate]
    rfl
  have hsame := stake_of_untimed (untimed_startTimer t.engine id .turbo (.repeating period)) id
  rw [hsettle]
  refine .anew (Nat.lt_succ_of_le hlater) (timer_startTimer t.engine hin .turbo _)
    (hbright.congr hsame) ?_
  have harmed := has_startTimer_repeating t.engine id .turbo period
  rw [max_eq_left (hrate ▸ Nanoseconds.perMilli_le_ofRate m.rate)] at harmed
  rwa [now_startTimer _ _ _ fun _ _ => rfl]

/-- Settling the end of a binding stops its timer. -/
theorem ended_settle {t : Turn} (hin : id < t.engine.bindings.size) (m : Mapping)
    (source target : Descriptor) {r : Response} (hnow : r.now = false) (before : Engine)
    (hactive : (t.engine.latch id).active = false) (hlit : (t.engine.latch id).lit = false) :
    Sequel id period before (t.settle id m source target r).engine := by
  have hsame := stake_of_untimed (untimed_stopTimer t.engine id) id
  have hsize : id < (t.engine.stopTimer id).bindings.size := by
    rwa [size_congr (layout_of_untimed (untimed_stopTimer t.engine id))]
  rw [settle_up t id m source target hnow, engine_mapLatch]
  have hlatch := latch_mapLatch (t.engine.stopTimer id) id (fun l => { l with applied := [] }) id
  rw [if_pos ⟨rfl, hsize⟩] at hlatch
  refine .ended ?_ ?_ fun _ => ?_
  · exact (congrArg Latch.active hlatch).trans ((congrArg Prod.fst hsame).trans hactive)
  · exact (congrArg Latch.timer hlatch).trans (TimersAgree.stopTimer_timer t.engine id)
  · exact (congrArg Latch.lit hlatch).trans ((congrArg (fun stake => stake.2.1) hsame).trans hlit)

/-- A binding that blinks and runs itself: its answer begins or ends the blinking. -/
theorem sequel_answer {room : Nat}
    (hbelow : ∀ t c pulse, Blinker id period t.engine →
      Course id period t.engine (feed room t c pulse).1.engine)
    {t : Turn} (ht : Blinker id period t.engine) {b : Binding} {pulse : Pulse} {forced : Bool}
    {latch : Latch} {r : Response} (hb : t.engine.bindings[id]? = some b)
    (hreaches : t.Reaches b pulse forced)
    (hrespond : b.latch.respond b.mapping (t.sourceOf b) (t.targetOf b) pulse.down pulse.strength
      forced = (latch, some r)) :
    Sequel id period t.engine ((relay (feed room) b.mapping.target
      (t.firstStep id b pulse forced latch (some r))
      (t.firstEcho id b pulse forced latch (some r))).settle id b.mapping (t.sourceOf b) (t.targetOf b)
      r).engine := by
  obtain ⟨b', hb', hturbo, hneeds, hserves, hrate⟩ := ht.rule
  obtain rfl := Option.some.inj (hb.symm.trans hb')
  have hrests : (t.targetOf b).flags.relative = false := Vocabulary.relative_of_needsSlot _ hneeds
  obtain ⟨hwas, -, hlit⟩ := Latch.respond_turbo hrespond hturbo hrests
  obtain ⟨hacted, hwaiting⟩ := course_firstStep ht hb hreaches hrespond
  have hlayout := (Move.firstStep hb hreaches hrespond).layout
  obtain ⟨b₁, hb₁, -, -, hactive₁, hlit₁, happlied₁, -⟩ :=
    (ht.mirrored.mirrors.keeping id b hb).firstStep ht.mirrored.mirrors.present hb hrespond rfl
  have hfalls := falls_echo (falls_feed room) hb hreaches hrespond
  generalize t.firstStep id b pulse forced latch (some r) = acted at *
  generalize t.firstEcho id b pulse forced latch (some r) = echo at *
  have hlatch := latch_of_getElem? hb₁
  have hbright : (acted.engine.latch id).IsBright := by
    rw [hlatch]
    refine ⟨hlit₁.trans (hlit.trans hactive₁.symm), fun hdown => ?_⟩
    have hnow : r.now = true := hactive₁.symm.trans hdown
    rw [happlied₁, hwas, hnow]
    exact hserves
  have hrelayed : Course id period acted.engine (relay (feed room) b.mapping.target acted echo).engine := by
    cases echo with
    | none => exact .refl hacted
    | some echo => exact hbelow acted _ echo hacted
  have hsteps : Steps acted (relay (feed room) b.mapping.target acted echo) :=
    steps_relay _ (fun t c pulse => steps_feed t room c pulse) _ _
  generalize relay (feed room) b.mapping.target acted echo = relayed at *
  have hin : id < relayed.engine.bindings.size := by
    rw [size_congr (hsteps.layout.trans hlayout)]
    exact (Array.getElem?_eq_some_iff.mp hb).1
  have hstays := hrelayed.sequel.bright hbright
  cases hnow : r.now with
  | true =>
    rw [hnow] at hwas
    exact anew_settle hin _ _ hturbo hrate hwas hnow (hwaiting.trans hrelayed.waiting).later hstays
  | false =>
    -- What the end relays puts nothing into effect again.
    have hup := (Falls.latch (hfalls hnow ht.mirrored.settled) id).active
      ((congrArg Latch.active hlatch).trans (hactive₁.trans hnow))
    exact ended_settle hin _ _ _ hnow _ hup (hstays.1.trans hup)

/-- **Running a binding**, the one that blinks or another. -/
theorem course_runBinding {room : Nat}
    (hbelow : ∀ t c pulse, Blinker id period t.engine →
      Course id period t.engine (feed room t c pulse).1.engine)
    (t : Turn) (i : Nat) (pulse : Pulse) (forced : Bool) (ht : Blinker id period t.engine) :
    Course id period t.engine (t.runBinding (feed room) i pulse forced).1.engine := by
  have hlayout := (steps_runBinding t (fun t c pulse => steps_feed t room c pulse) i pulse forced).layout
  refine ⟨ht.of_kept hlayout fun _ hP => @runBinding_along _ _ _ [] @hP.quiet @hP.answer (hP.feed room)
    t i pulse forced, keepsWaiting_runBinding room t i pulse forced, ?_⟩
  refine runBinding_cases (P := fun t' => Sequel id period t.engine t'.engine) (fun _ => .same rfl)
    (fun b latch hb _ hrespond => .same ?_) fun b latch r hb hreaches hrespond => ?_
  · refine latch_mapLatch_congr Latch.rhythm ?_ id
    rw [latch_of_getElem? hb]
    exact Prod.ext (Latch.respond_none hrespond) (Latch.timer_of_respond hrespond)
  -- An answer of its own begins or ends the rhythm; that of another goes past it.
  · by_cases hi : i = id
    · subst hi
      exact sequel_answer hbelow ht hb hreaches hrespond
    · obtain ⟨hacted, hwaiting⟩ := course_firstStep ht hb hreaches hrespond
      have hrhythm := congrArg Latch.rhythm
        (latch_firstStep_of_ne (t := t) b pulse forced latch (some r) hi)
      have hfirst : Course id period t.engine _ := .of_rhythm hacted hwaiting hrhythm
      have hlayout := (Move.firstStep hb hreaches hrespond).layout
      generalize t.firstStep i b pulse forced latch (some r) = acted at *
      have hrelayed : Course id period acted.engine (relay (feed room) b.mapping.target acted
          (t.firstEcho i b pulse forced latch (some r))).engine := by
        cases t.firstEcho i b pulse forced latch (some r) with
        | none => exact .refl hacted
        | some echo => exact hbelow acted _ echo hacted
      have hsteps : Steps acted (relay (feed room) b.mapping.target acted
          (t.firstEcho i b pulse forced latch (some r))) :=
        steps_relay _ (fun t c pulse => steps_feed t room c pulse) _ _
      generalize relay (feed room) b.mapping.target acted _ = relayed at *
      obtain ⟨b', hb', hmapping, -⟩ := binding_congr (hsteps.layout.trans hlayout) hb
      have hsame := hfirst.trans hrelayed
      rw [← hmapping]
      exact hsame.sequel.trans hsame.waiting.later hsame.after.agree (keepsWaiting_settle hb' _ _ r)
        (.same (congrArg Latch.rhythm (latch_settle_of_ne relayed hi _ _ _ r)))

/-- **A source that moves**, however far its cascade goes. -/
theorem course_feed (room : Nat) (t : Turn) (c : Control) (pulse : Pulse)
    (ht : Blinker id period t.engine) :
    Course id period t.engine (feed room t c pulse).1.engine :=
  feed_rel (R := fun t t' => Blinker id period t.engine → Course id period t.engine t'.engine)
    (fun _ ht => .refl ht) (fun h h' ht => (h ht).trans (h' (h ht).after))
    (fun t c user down ht => .of_rhythm ⟨ht.rule.congr (layout_setBoard t.engine c user down),
        ⟨ht.mirrored.mirrors.mark c user down, ht.mirrored.settled.mark c user down⟩,
        ht.agree.congr ⟨fun _ => rfl, rfl, rfl, rfl, rfl⟩⟩
      (.of_same ⟨fun _ => rfl, rfl, rfl, rfl, rfl⟩) rfl)
    (fun _ hbelow t i pulse forced ht => course_runBinding hbelow t i pulse forced ht) room t c pulse ht

/-- A forced release ends the blinking, if it is forced on the binding that blinks. -/
theorem course_forceRelease (t : Turn) (i : Nat) (ht : Blinker id period t.engine) :
    Course id period t.engine (forceRelease t i).engine := by
  have hidle := idle_forceRelease i ht.mirrored.settled
  unfold forceRelease at hidle ⊢
  dsimp only at hidle ⊢
  have hreleased : Course id period t.engine
      (if (t.engine.latch i).isLatched then t.release listen i else t).engine := by
    split
    · exact course_runBinding (course_feed cascadeRoom) t i _ true ht
    · exact .refl ht
  generalize (if (t.engine.latch i).isLatched then t.release listen i else t) = released at *
  by_cases hi : i = id
  · subst hi
    have hstop : Move released (released.mapEngine fun e => e.stopTimer i) := .stop i
    have hsame := stake_of_untimed (untimed_stopTimer released.engine i) i
    have hlit : ((released.engine.stopTimer i).latch i).lit = (released.engine.latch i).lit :=
      congrArg (fun stake => stake.2.1) hsame
    have hactive : ((released.engine.stopTimer i).latch i).active = (released.engine.latch i).active :=
      congrArg Prod.fst hsame
    refine ⟨⟨hreleased.after.rule.congr hstop.layout, hreleased.after.mirrored.move hstop,
      hreleased.after.agree.move hstop⟩, hreleased.waiting.trans (.stopTimer _ i), ?_⟩
    exact .ended hidle.active hidle.timer fun hbright =>
      hlit.trans ((hreleased.sequel.bright hbright).1.trans (hactive.symm.trans hidle.active))
  · exact hreleased.trans (.stopTimer hreleased.after hi)

/-! ## §3 Ticks -/

/-- What the tick of a timer does to a latch: its own binding takes the other phase if it blinks. -/
def swung (use : TimerUse) (id : Nat) (l : Latch) : Latch :=
  if use.binding = id ∧ use.kind = .turbo then { l with lit := !l.lit } else l

/-- Blinking is the tick of the binding that blinks. -/
theorem course_blink {t : Turn} {use : TimerUse} {b : Binding} (hstays : use ∈ t.engine.timers)
    (hkind : use.kind = .turbo) (hb : t.engine.bindings[use.binding]? = some b)
    (ht : Blinker id period t.engine) :
    Blinker id period (t.blink use.binding (t.sourceOf b) (t.targetOf b)).1.engine ∧
      KeepsWaiting t.engine (t.blink use.binding (t.sourceOf b) (t.targetOf b)).1.engine ∧
      ((t.blink use.binding (t.sourceOf b) (t.targetOf b)).1.engine.latch id).rhythm =
        (swung use id (t.engine.latch id)).rhythm := by
  have hblink : Move t _ := .blink hb ⟨use, hstays, rfl, hkind⟩
  obtain ⟨pads, outputs, hengine, -⟩ := blink_frame t use.binding (t.sourceOf b) (t.targetOf b)
  refine ⟨⟨ht.rule.congr hblink.layout, ht.mirrored.move hblink, ht.agree.move hblink⟩,
    keepsWaiting_move hblink ?_, ?_⟩
  · rw [hengine]
    rfl
  · have hin : use.binding < t.engine.bindings.size := (Array.getElem?_eq_some_iff.mp hb).1
    have hlatch := latch_mapLatch t.engine use.binding (fun l => { l with lit := !l.lit }) id
    rw [hengine]
    refine (congrArg Latch.rhythm hlatch).trans ?_
    unfold swung
    by_cases hown : use.binding = id
    · rw [if_pos ⟨hown, hown ▸ hin⟩, if_pos ⟨hown, hkind⟩]
    · rw [if_neg fun h => hown h.1, if_neg fun h => hown h.1]

/-- **A timer that goes off** makes its own binding take the other phase; then, and for every other
binding, all goes on as in any turn. -/
theorem course_tick {t lapsed : Turn} {use : TimerUse} {b : Binding}
    (hlapse : (t.mapEngine fun e => e.lapse use) = lapsed) (huse : use ∈ t.engine.timers)
    (hb : t.engine.bindings[use.binding]? = some b) (ht : Blinker id period lapsed.engine) :
    ∃ phased : Engine, Course id period phased (t.tick use).engine ∧
      KeepsWaiting lapsed.engine phased ∧
      (phased.latch id).rhythm = (swung use id (lapsed.engine.latch id)).rhythm := by
  obtain ⟨b', hb', hsource, htarget, hstays⟩ := lapsed_binding hlapse huse hb
  have hquiet : use.kind ≠ .turbo → (lapsed.engine.latch id).rhythm =
      (swung use id (lapsed.engine.latch id)).rhythm := by
    intro hkind
    rw [swung, if_neg fun h => hkind h.2]
  have hrefl : KeepsWaiting lapsed.engine lapsed.engine := (Course.refl ht).waiting
  -- Ticks that only write to pads leave all latches and the clock alone.
  have hmoved : ∀ {t' : Turn}, Move lapsed t' → t'.engine.clock = lapsed.engine.clock →
      t'.engine.bindings = lapsed.engine.bindings → Course id period lapsed.engine t'.engine := by
    intro t' h hclock hbindings
    refine .of_rhythm ⟨ht.rule.congr h.layout, ht.mirrored.move h, ht.agree.move h⟩
      (keepsWaiting_move h (congrArg Clock.now hclock)) ?_
    unfold Engine.latch
    rw [hbindings]
  unfold tick
  dsimp only
  rw [hb, hlapse]
  cases hkind : use.kind with
  | turbo =>
    -- The light has changed before the echo is heard.
    obtain ⟨hafter, hwaiting, hrhythm⟩ := course_blink (hstays hkind) hkind hb' ht
    rw [hsource, htarget] at hafter hwaiting hrhythm
    refine ⟨_, ?_, hwaiting, hrhythm⟩
    dsimp only [sourceOf, targetOf]
    cases (lapsed.blink use.binding (t.engine.descriptor b.mapping.source)
      (t.engine.descriptor b.mapping.target)).2 with
    | none => exact .refl hafter
    | some echo => exact course_feed cascadeRoom _ _ echo hafter
  | release =>
    exact ⟨_, course_runBinding (course_feed cascadeRoom) lapsed _ _ _ ht, hrefl, hquiet (by simp [hkind])⟩
  | repeating =>
    obtain ⟨pads, hengine, -⟩ := goOn_frame lapsed use.binding (t.targetOf b)
    have hgo : Move lapsed _ := .goOn hb'
    rw [htarget] at hgo
    have hgone := hmoved hgo (by rw [hengine]; rfl) (by rw [hengine]; rfl)
    exact ⟨_, hgone, hrefl, hquiet (by simp [hkind])⟩
  | rotate =>
    obtain ⟨pads, hengine, -⟩ := turnStick_frame lapsed use.binding (t.targetOf b)
    have hturn : Move lapsed _ := .turnStick hb'
    rw [htarget] at hturn
    have hturned := hmoved hturn (by rw [hengine]; rfl) (by rw [hengine]; rfl)
    exact ⟨_, hturned, hrefl, hquiet (by simp [hkind])⟩
  | keyRepeatDelay | keyRepeat =>
    dsimp only
    rw [engine_repeatKey]
    exact ⟨_, .refl ht, hrefl, hquiet (by simp [hkind])⟩

end Turn

namespace Engine

variable {e e' : Engine} {id : Nat} {period : Nanoseconds}

/-! ## §4 Between two turns -/

/-- Time does not go back with a chore. -/
theorem Chore.now_le (h : Chore e e') : e.clock.now ≤ e'.clock.now := by
  cases h with
  | note | enable | label | activate | remember => exact Nat.le_refl _
  | advance time => exact Nat.le_max_left _ _

/-- The course is kept by everything that takes no time. -/
def Goes (id : Nat) (period : Nanoseconds) (e e' : Engine) : Prop :=
  e.clock.now ≤ e'.clock.now ∧ (e'.clock.now = e.clock.now → Course id period e e')

theorem Course.goes (h : Course id period e e') : Goes id period e e' :=
  ⟨Nat.le_of_eq h.waiting.now.symm, fun _ => h⟩

theorem Goes.chore {e'' : Engine} (he : Goes id period e e') (h : Chore e' e'') :
    Goes id period e e'' := by
  refine ⟨Nat.le_trans he.1 h.now_le, fun hnow => ?_⟩
  have hbefore : e'.clock.now = e.clock.now := Nat.le_antisymm (hnow ▸ h.now_le) he.1
  have hcourse := he.2 hbefore
  exact hcourse.trans (.chore hcourse.after h (hnow.trans hbefore.symm))

/-- **Releasing everything.** -/
theorem course_forceReleaseAll (he : Blinker id period e) (time : Nat) :
    Course id period e (e.forceReleaseAll time) := by
  have hkept : ∀ P : Engine → Prop, (KeptInTurns fun _ => P) → P e → P (e.forceReleaseAll time) :=
    fun _ hP he => (@KeptByRequests.force _ hP.toKeptByRequests [] e time he).1
  have hlayout : (e.forceReleaseAll time).layout = e.layout := (Deed.release e time).layout
  refine ⟨he.of_kept hlayout hkept, .of_kept (now_forceReleaseAll e time) hkept, ?_⟩
  have hreleased : Course id period e
      ((List.range e.bindings.size).foldl forceRelease { engine := e, time }).engine :=
    Turn.foldl_rel (R := fun t t' => Blinker id period t.engine → Course id period t.engine t'.engine)
      (fun _ ht => .refl ht) (fun h h' ht => (h ht).trans (h' (h ht).after)) Turn.course_forceRelease
      { engine := e, time } _ he
  -- Emptying the pads and committing the turn leave the latches and the timers alone.
  have hemptied : KeepsWaiting ((List.range e.bindings.size).foldl forceRelease
      { engine := e, time }).engine (e.forceReleaseAll time) ∧
      ((e.forceReleaseAll time).latch id).rhythm = (((List.range e.bindings.size).foldl forceRelease
        { engine := e, time }).engine.latch id).rhythm := by
    unfold forceReleaseAll inTurn
    dsimp only
    generalize (List.range e.bindings.size).foldl forceRelease { engine := e, time } = released
    constructor
    · refine KeepsWaiting.trans ?_ (.of_kept (Turn.now_commit _) fun _ hP =>
        @KeptByRequests.commit _ hP.toKeptByRequests [] _)
      rw [Turn.engine_updatePads]
      exact .of_same ⟨fun _ => rfl, rfl, rfl, rfl, rfl⟩
    · refine Turn.commit_keeps (P := fun e' => (e'.latch id).rhythm = (released.engine.latch id).rhythm)
        (fun h he' => (h.rhythm id).trans he') _ ?_
      rw [Turn.engine_updatePads]
      rfl
  exact hreleased.sequel.trans hreleased.waiting.later hreleased.after.agree hemptied.1
    (.same hemptied.2)

/-- **Requests** let the blinking go on or end it. -/
theorem Goes.requests : KeptByRequests fun _ => Goes id period e where
  chore h he := he.chore h
  force {_} e' time he := by
    have hnow := now_forceReleaseAll e' time
    have hforced : Goes id period e (e'.forceReleaseAll time) := by
      refine ⟨hnow ▸ he.1, fun hsame => ?_⟩
      have hcourse := he.2 (hnow.symm.trans hsame)
      exact hcourse.trans (course_forceReleaseAll hcourse.after time)
    refine ⟨hforced, hforced.1, fun hsame => ?_⟩
    have hcourse := hforced.2 hsame
    refine hcourse.trans (.of_rhythm ⟨hcourse.after.rule.congr rfl, ?_, ?_⟩
      (.of_same ⟨fun _ => rfl, rfl, rfl, rfl, rfl⟩) rfl)
    · have hbefore := (he.2 (hnow.symm.trans hsame)).after.mirrored
      exact ((mirrored_stable fun _ => True).force e' time hbefore).2
    · exact hcourse.after.agree.congr ⟨fun _ => rfl, rfl, rfl, rfl, rfl⟩

/-- What comes after a turn. -/
theorem Course.finish {t : Turn} (h : Course id period e t.engine) (time : Nat) :
    Course id period e (t.commit.drainQueue time) := by
  have hdone : Goes id period e (t.commit.drainQueue time) :=
    @KeptByRequests.drainQueue _ Goes.requests [] _ time
      (@KeptByRequests.commit _ Goes.requests [] t h.goes)
  exact hdone.2 ((now_drainQueue _ time).trans ((Turn.now_commit t).trans h.waiting.now))

theorem course_noted (he : Blinker id period e) (time : Nat) :
    Course id period e { e with lastTime := time } :=
  .chore he (.note e e.queue e.remainder time e.journal.snapshots e.journal.events) rfl

/-- **An event**, with all that it leads to. -/
theorem course_accept (he : Blinker id period e) (c : Control) (pulse : Pulse) (time : Nat) :
    Course id period e (e.accept c pulse time).1 := by
  have htimed := course_noted he time
  exact (htimed.trans (Turn.course_feed (cascadeRoom + 1) { engine := { e with lastTime := time }, time }
    c pulse htimed.after)).finish time

theorem course_releaseAll (he : Blinker id period e) (time : Nat) :
    Course id period e (e.releaseAll time) := by
  have hdone : Goes id period e (e.releaseAll time) :=
    @KeptByRequests.drainQueue _ Goes.requests [] _ time (course_forceReleaseAll he time).goes
  exact hdone.2 (now_releaseAll e time)

end Engine

end VirtualPad
