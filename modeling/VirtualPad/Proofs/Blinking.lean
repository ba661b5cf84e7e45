import VirtualPad.Proofs.Beats
import VirtualPad.Proofs.BuiltUp
import VirtualPad.Proofs.Compilation
import VirtualPad.Proofs.Phases
import VirtualPad.Proofs.SlotOwners

/-!
# Blinking

A binding with the turbo option is lit by a press and takes the other phase with every tick of the timer
that the press has started.  The clock has that timer armed for the time of the press and a whole number
of periods, so the number of ticks that have been delivered is the number of periods that have passed,
whatever else goes off in between: the phase can be told from the time alone.

The main result is `Engine.blinks_in_phase`.  It follows a single press through the rest of the run, to
its release and beyond.
-/

namespace VirtualPad

namespace Turn

variable (use : TimerUse) (id : Nat) (l : Latch)

/-- Swinging touches the light only. -/
theorem swung_frame : (swung use id l).timer = l.timer ∧ (swung use id l).active = l.active ∧
    (swung use id l).applied = l.applied := by
  unfold swung
  split <;> exact ⟨rfl, rfl, rfl⟩

end Turn

namespace Engine

variable {e e' : Engine} {id : Nat} {token other : TimerToken} {limit due start period : Nanoseconds}
  {users : List User} {clock : Clock} {use : TimerUse} {b : Binding}

/-! ## §1 In phase -/

/-- The binding blinks since that time for these users, and as many ticks have been delivered as periods
have passed. -/
structure Swings (id : Nat) (token : TimerToken) (start period : Nanoseconds) (users : List User)
    (e : Engine) : Prop where
  active : (e.latch id).active = true
  users : (e.latch id).applied = users
  ticks : ∃ count, ((e.latch id).lit = true ↔ Even count) ∧
    e.clock.Has token (start + (count + 1) * period) (some period) ∧
    start + count * period ≤ e.clock.now

/-- The binding is out of effect and waits for nothing, or it has been pressed again since. -/
def LetGo (id : Nat) (token : TimerToken) (e : Engine) : Prop :=
  ((e.latch id).active = false ∧ (e.latch id).timer = none) ∨
    ∃ later, token < later ∧ (e.latch id).timer = some (later, .turbo)

/-- As long as the binding has the timer it swings, and it has been released when it does not have it
any more. -/
structure InPhase (id : Nat) (token : TimerToken) (start period : Nanoseconds) (users : List User)
    (e : Engine) : Prop where
  agree : TimersAgree e
  issued : token ≤ e.lastToken
  swings : (e.latch id).timer = some (token, .turbo) → Swings id token start period users e
  released : (e.latch id).timer ≠ some (token, .turbo) → LetGo id token e

/-- What becomes of a release depends on the timer and the effect only. -/
theorem LetGo.congr (he : LetGo id token e) (hactive : (e'.latch id).active = (e.latch id).active)
    (htimer : (e'.latch id).timer = (e.latch id).timer) : LetGo id token e' := by
  unfold LetGo
  rwa [hactive, htimer]

/-- Time may pass as long as the timer stays armed as it is. -/
theorem Swings.later (he : Swings id token start period users e)
    (hstake : (e'.latch id).stake = (e.latch id).stake)
    (harmed : ∀ due, e.clock.Has token due (some period) → e'.clock.Has token due (some period))
    (hnow : e.clock.now ≤ e'.clock.now) : Swings id token start period users e' := by
  simp only [Latch.stake, Prod.mk.injEq] at hstake
  obtain ⟨hactive, hlit, happlied⟩ := hstake
  obtain ⟨count, hphase, hhas, hpast⟩ := he.ticks
  refine ⟨hactive.trans he.active, happlied.trans he.users, count, ?_, harmed _ hhas,
    Nat.le_trans hpast hnow⟩
  rwa [hlit]

namespace InPhase

/-- A timer that the clock has armed is waited for. -/
theorem waits (he : InPhase id token start period users e)
    (hhas : e.clock.Has token due (some period)) : Waits id token .turbo due (some period) e :=
  ⟨he.agree, he.issued, fun _ => hhas⟩

/-- Where nothing becomes of the binding the phase is kept. -/
theorem steady (he : InPhase id token start period users e) (hwaiting : KeepsWaiting e e')
    (hrhythm : (e'.latch id).rhythm = (e.latch id).rhythm) :
    InPhase id token start period users e' := by
  have hstake := congrArg Prod.fst hrhythm
  have htimer := congrArg Prod.snd hrhythm
  refine ⟨hwaiting.agree he.agree, Nat.le_trans he.issued hwaiting.later, fun hsame => ?_,
    fun hother => ?_⟩
  · exact (he.swings (htimer.symm.trans hsame)).later hstake
      (fun due hhas => (hwaiting.waits _ _ _ _ _ (he.waits hhas)).armed hsame)
      (Nat.le_of_eq hwaiting.now.symm)
  · exact (he.released fun hsame => hother (htimer.trans hsame)).congr (congrArg Prod.fst hstake) htimer

/-- **What happens within turns** keeps the phase or ends the blinking. -/
theorem course (he : InPhase id token start period users e) (h : Course id period e e') :
    InPhase id token start period users e' := by
  have hagree := h.waiting.agree he.agree
  have hissued := Nat.le_trans he.issued h.waiting.later
  cases h.sequel with
  | same hrhythm => exact he.steady h.waiting hrhythm
  | ended hactive hnone _ =>
    refine ⟨hagree, hissued, fun hsame => ?_, fun _ => .inl ⟨hactive, hnone⟩⟩
    rw [hnone] at hsame
    contradiction
  | anew hfresh hnew _ _ =>
    have hlater := Nat.lt_of_le_of_lt he.issued hfresh
    refine ⟨hagree, hissued, fun hsame => ?_, fun _ => .inr ⟨_, hlater, hnew⟩⟩
    rw [hnew] at hsame
    exact absurd (congrArg Prod.fst (Option.some.inj hsame)) (Nat.ne_of_gt hlater)

end InPhase

/-! ## §2 Beats -/

/-- A timer of a binding that blinks lasts, so nothing becomes of the latch when it goes off. -/
theorem Blinker.latch_lapse (he : Blinker id period e) (huse : use ∈ e.timers) (clock : Clock) :
    (({ e with clock } : Engine).lapse use).latch id = e.latch id := by
  by_cases hown : use.binding = id
  · obtain ⟨b, hb, hturbo, -⟩ := he.rule
    have hkind := (he.mirrored.mirrors.blinks use huse b (hown ▸ hb)).mpr hturbo
    unfold Engine.lapse
    rw [hkind]
    rfl
  · exact latch_lapse_of_ne _ hown

theorem Blinker.lapse (he : Blinker id period e)
    (hdue : e.clock.nextDue? limit = some (other, due, clock)) (huse : e.timerUse? other = some use)
    (hb : e.bindings[use.binding]? = some b) :
    Blinker id period (({ e with clock } : Engine).lapse use) where
  rule := he.rule.congr ((layout_of_untimed (untimed_lapse { e with clock } use)).trans rfl)
  mirrored := (mirrored_stable fun _ => True).lapse hdue huse hb he.mirrored
  agree := he.agree.lapse hdue huse hb

/-- **A timer that goes off** keeps a binding in phase: its own tick is one tick more, and one period
has passed. -/
theorem InPhase.swing (he : InPhase id token start period users e) (hblinker : Blinker id period e)
    (hdue : e.clock.nextDue? limit = some (other, due, clock)) (huse : e.timerUse? other = some use)
    (hmem : use ∈ e.timers) (hown : (e.latch use.binding).timer = some (other, use.kind))
    (hb : e.bindings[use.binding]? = some b) {lapsed phased : Engine}
    (hlapsed : ({ e with clock } : Engine).lapse use = lapsed) (hwaiting : KeepsWaiting lapsed phased)
    (hrhythm : (phased.latch id).rhythm = (Turn.swung use id (lapsed.latch id)).rhythm) :
    InPhase id token start period users phased := by
  have hagree : TimersAgree lapsed := hlapsed ▸ he.agree.lapse hdue huse hb
  have hissued : token ≤ lapsed.lastToken :=
    Nat.le_trans he.issued (hlapsed ▸ lastToken_le_lapse { e with clock } use)
  have hlatch : lapsed.latch id = e.latch id := hlapsed ▸ hblinker.latch_lapse hmem clock
  obtain ⟨hkept, hstays, hserved⟩ := Turn.swung_frame use id (e.latch id)
  rw [hlatch] at hrhythm
  have htimer : (phased.latch id).timer = (e.latch id).timer := (congrArg Prod.snd hrhythm).trans hkept
  have hactive : (phased.latch id).active = (e.latch id).active :=
    (congrArg (fun rhythm => rhythm.1.1) hrhythm).trans hstays
  have hlit : (phased.latch id).lit = (Turn.swung use id (e.latch id)).lit :=
    congrArg (fun rhythm => rhythm.1.2.1) hrhythm
  have happlied : (phased.latch id).applied = (e.latch id).applied :=
    (congrArg (fun rhythm => rhythm.1.2.2) hrhythm).trans hserved
  refine ⟨hwaiting.agree hagree, Nat.le_trans hissued hwaiting.later, fun hsame => ?_, fun hother =>
    (he.released fun hsame => hother (htimer.trans hsame)).congr hactive htimer⟩
  have hbefore := htimer.symm.trans hsame
  have hswings := he.swings hbefore
  obtain ⟨count, hphase, hhas, hpast⟩ := hswings.ticks
  obtain ⟨t, ht, htoken, htime, -, rfl⟩ := Clock.nextDue?_some hdue
  have hclock : lapsed.clock.now = max e.clock.now due := by
    rw [← hlapsed, now_lapse, ← htime]
    unfold Clock.fire
    dsimp only
    split <;> rfl
  have hnow : phased.clock.now = max e.clock.now due := hwaiting.now.trans hclock
  by_cases hticks : other = token
  · -- The binding itself goes off, and its timer is armed for one period later.
    subst hticks
    obtain ⟨hbinding, hkind⟩ := he.agree.eq_of_timer hown hbefore
    obtain ⟨u, hu, hsameToken, hdueThen, hevery⟩ := hhas
    obtain rfl := he.agree.clock.eq_of_token hu ht (hsameToken.trans htoken.symm)
    have hthen : due = start + (count + 1) * period := htime.symm.trans hdueThen
    have hclocked : lapsed.clock = e.clock.fire u := by
      rw [← hlapsed]
      unfold Engine.lapse
      rw [hkind]
    have hrearmed : lapsed.clock.Has other (start + (count + 1 + 1) * period) (some period) := by
      have hfired := Clock.has_fire (c := e.clock) hevery
      rw [hclocked, Nat.add_mul (count + 1), Nat.one_mul, ← Nat.add_assoc, ← hdueThen, ← htoken]
      exact hfired
    refine ⟨hactive.trans hswings.active, happlied.trans hswings.users, count + 1, ?_, ?_, ?_⟩
    · rw [hlit, Turn.swung, if_pos ⟨hbinding, hkind⟩, Nat.even_add_one, ← hphase]
      simp
    · exact (hwaiting.waits id other .turbo _ _ ⟨hagree, hissued, fun _ => hrearmed⟩).armed hsame
    · rw [hnow, ← hthen]
      exact Nat.le_max_right _ _
  · -- Another binding goes off.
    have hothers : ¬ (use.binding = id ∧ use.kind = .turbo) := by
      rintro ⟨rfl, -⟩
      exact hticks (congrArg Prod.fst (Option.some.inj (hown.symm.trans hbefore)))
    refine ⟨hactive.trans hswings.active, happlied.trans hswings.users, count, ?_, ?_, ?_⟩
    · rwa [hlit, Turn.swung, if_neg hothers]
    · have hstill := (he.waits hhas).lapse hdue huse hb (Ne.symm hticks)
      rw [hlapsed] at hstill
      exact (hwaiting.waits _ _ _ _ _ hstill).armed hsame
    · exact Nat.le_trans hpast (hnow ▸ Nat.le_max_left _ _)

/-- **A beat** takes the binding to its phase of the time, and all the rest is the course of a turn. -/
theorem Beat.course (h : Beat e e') (he : Blinker id period e) :
    ∃ phased, Course id period phased e' ∧ (phased.latch id).timer = (e.latch id).timer ∧
      ∀ {token start users}, InPhase id token start period users e →
        InPhase id token start period users phased := by
  cases h with
  | @call call hcall =>
    refine ⟨e, ?_, rfl, fun hphase => hphase⟩
    -- An event that is taken is a turn of its source, and one that is not changes nothing.
    cases call with
    | input c user down strength time =>
      rcases e.processInput_cases c user down strength time with ⟨pulse, -, hfed⟩ | hnot
      · rw [show e.after (.input c user down strength time) = _ from congrArg Prod.fst hfed]
        exact course_accept he c pulse time
      · rw [show e.after (.input c user down strength time) = e from congrArg Prod.fst hnot]
        exact .refl he
    | motion c user magnitude time =>
      rcases e.processRelative_cases c user magnitude time with ⟨pulse, -, hfed⟩ | hnot
      · rw [show e.after (.motion c user magnitude time) = _ from congrArg Prod.fst hfed]
        exact course_accept he c pulse time
      · rw [show e.after (.motion c user magnitude time) = e from congrArg Prod.fst hnot]
        exact .refl he
    | releaseAll time => exact course_releaseAll he time
    | runUntil ms => exact hcall.elim
    | reload config => exact hcall.elim
  | @tick limit due other clock hdue =>
    have hnoted := course_noted he (due.toMillis % twoTo 64)
    -- The tick is for a timer of some binding, perhaps of this one.
    obtain ⟨use, b, huse, hmem, hown, hb⟩ := hnoted.after.agree.due_binding hdue
    have huse' : ({ e with clock } : Engine).timerUse? other = some use := huse
    rw [onTimer_of_use huse']
    generalize due.toMillis % twoTo 64 = time at *
    obtain ⟨phased, hcourse, hwaiting, hrhythm⟩ := Turn.course_tick
      (t := { engine := { e with clock, lastTime := time }, time }) rfl hmem hb
      (hnoted.after.lapse hdue huse hb)
    refine ⟨phased, hcourse.finish time, ?_, fun hphase =>
      (hphase.course hnoted).swing hnoted.after hdue huse hmem hown hb rfl hwaiting hrhythm⟩
    have hlatch := hnoted.after.latch_lapse hmem clock
    exact (congrArg Prod.snd hrhythm).trans
      ((Turn.swung_frame use id _).1.trans (congrArg Latch.timer hlatch))
  | @pass time hdue =>
    have hchore : Chore e { e with clock := e.clock.advanceTo time } := .advance e time
    have hpassed : Blinker id period { e with clock := e.clock.advanceTo time } :=
      he.of_kept rfl fun _ hP => @KeptByRequests.chore _ hP.toKeptByRequests [] _ _ hchore
    refine ⟨_, .refl hpassed, rfl, fun hphase => ⟨hpassed.agree, hphase.issued, fun hsame => ?_,
      hphase.released⟩⟩
    exact (hphase.swings hsame).later rfl (fun _ hhas => hhas) (Nat.le_max_left _ _)

/-- The phase is kept from beat to beat. -/
theorem InPhase.beats (h : Beats e e') (hblinker : Blinker id period e)
    (he : InPhase id token start period users e) : InPhase id token start period users e' := by
  have hkept : Blinker id period e' ∧ InPhase id token start period users e' := by
    induction h with
    | refl => exact ⟨hblinker, he⟩
    | tail _ hlast ih =>
      obtain ⟨phased, hcourse, -, hphase⟩ := hlast.course ih.1
      exact ⟨hcourse.after, (hphase ih.2).course hcourse⟩
  exact hkept.2

/-- **A press** starts the binding in phase: lit, for somebody, and with a timer that is due one period
from then. -/
theorem Beat.begins (h : Beat e e') (he : Blinker id period e) {kind : TimerKind}
    (hfresh : e.lastToken < token) (htimer : (e'.latch id).timer = some (token, kind))
    (hactive : (e'.latch id).active = true) :
    kind = .turbo ∧ (e'.latch id).IsBright ∧
      e'.clock.Has token (e'.clock.now + period) (some period) ∧
      InPhase id token e'.clock.now period (e'.latch id).applied e' := by
  obtain ⟨phased, hcourse, hsame, -⟩ := h.course he
  have hagree := hcourse.after.agree
  cases hcourse.sequel with
  | same hrhythm =>
    -- The timer is newer than all of those before.
    have hold := hsame.symm.trans ((congrArg Prod.snd hrhythm).symm.trans htimer)
    have hissued := he.agree.issued _ ((he.agree.table token id kind).mpr hold)
    exact absurd hissued (Nat.not_le_of_lt hfresh)
  | ended _ hnone =>
    rw [hnone] at htimer
    contradiction
  | anew _ hnew hbright harmed =>
    obtain ⟨rfl, rfl⟩ := Prod.mk.inj (Option.some.inj (hnew.symm.trans htimer))
    refine ⟨rfl, hbright, harmed, hagree, hagree.issued _ ((hagree.table _ id .turbo).mpr hnew),
      fun _ => ⟨hactive, rfl, 0, ?_, ?_, ?_⟩, fun hother => absurd hnew hother⟩
    · simp [hbright.1, hactive]
    · simpa using harmed
    · simp

/-! ## §3 From press to release -/

/-- In a compiled configuration every target means somebody. -/
theorem Operated.serves (he : Operated Config.IsCompiled e) (hb : e.bindings[id]? = some b) :
    e.targetUsers b.mapping.targetUser ≠ [] := by
  have hin := compiled_of_operated (P := fun _ m => ∀ user, m.targetUser = .index user → user < userLimit)
    (fun hconfig _ hm user huser =>
      Nat.lt_of_lt_of_le ((hconfig.checked hm).targetUser user huser) hconfig.users.2) he hb
  cases huser : b.mapping.targetUser with
  | index user => simp [targetUsers, hin user huser]
  | active => simp [targetUsers]
  | everyone =>
    refine List.ne_nil_of_mem (a := e.activeUser) (List.mem_filter.mpr ⟨List.mem_finRange _, ?_⟩)
    exact decide_eq_true he.mirrored.mirrors.present

/-- What is seen of a binding that blinks in its slots: nothing in the dark, and in the light what it
writes, unless it has been built up and another binding may have cleared it. -/
def Flashes (e : Engine) (id : Nat) (b : Binding) : Prop :=
  ∀ spot slot, b.slot = some slot → e.Drives b.mapping spot →
    ((e.held spot slot).isSome = true → b.latch.lit = true ∧ e.Touches b spot) ∧
    (e.Secure id b spot →
      ((e.held spot slot).isSome = true ↔ b.latch.lit = true ∧ e.Touches b spot))

/-- The timer is gone, in the table as on the clock.  The binding has been released, and its slots are
empty while it is out of effect; it may have been pressed again since, under a timer that is newer. -/
structure Extinguished (e : Engine) (token : TimerToken) (b : Binding) : Prop where
  dropped : ∀ use ∈ e.timers, use.token ≠ token
  disarmed : e.clock.isArmed token = false
  released : (b.latch.active = false ∧ b.latch.timer = none) ∨
    ∃ newer, token < newer ∧ b.latch.timer = some (newer, .turbo)
  empty : b.latch.active = false → ∀ spot slot, b.slot = some slot → e.Drives b.mapping spot →
    e.held spot slot = none

/-- A binding that blinks and is in effect is seen where it writes, in the light. -/
theorem Unspoilt.flashes (he : Unspoilt e) (hbacks : e.Backs b) (hb : e.bindings[id]? = some b)
    (hturbo : b.mapping.options.turbo = true) (hactive : b.latch.active = true) : e.Flashes id b := by
  intro spot slot hown hdrives
  refine ⟨fun hlive => ?_, fun hsecure => (he.shows hbacks hb hown hdrives hsecure).trans ?_⟩
  · obtain ⟨-, hlit, htouches⟩ := hbacks spot slot hown hdrives hlive
    exact ⟨hlit hturbo, htouches⟩
  · exact ⟨fun ⟨_, hlit, htouches⟩ => ⟨hlit hturbo, htouches⟩,
      fun ⟨hlit, htouches⟩ => ⟨hactive, fun _ => hlit, htouches⟩⟩

/-- While the timer is not due, the phase is the parity of the periods that have passed. -/
theorem Swings.lit_iff (he : Swings id token start period users e)
    (hahead : ∀ t ∈ e.clock.timers, e.clock.now < t.due) :
    (e.latch id).lit = true ↔ Even ((e.clock.now - start) / period) := by
  obtain ⟨count, hphase, ⟨t, ht, -, hdue, -⟩, hpast⟩ := he.ticks
  have hnext := hahead t ht
  rw [hdue] at hnext
  have hstarted := Nat.le_trans (Nat.le_add_right start _) hpast
  rw [hphase, Nat.div_eq_of_lt_le (Nat.le_sub_of_add_le' hpast)
    (Nat.sub_lt_left_of_lt_add hstarted hnext)]

/-- A binding that has lost the timer has been released. -/
theorem InPhase.extinguished (he : InPhase id token start period users e) (hmirrored : Mirrored e)
    (hreserved : Reserved (fun use => use.binding = id) token e) (hb : e.bindings[id]? = some b)
    (hbacks : e.Backs b) (hturbo : b.mapping.options.turbo = true)
    (hgone : b.latch.timer ≠ some (token, .turbo)) : e.Extinguished token b := by
  have hdropped : ∀ use ∈ e.timers, use.token ≠ token := by
    rintro use huse rfl
    have hown := hreserved.2 use huse rfl
    have hkind := (hmirrored.mirrors.blinks use huse b (hown ▸ hb)).mpr hturbo
    have htimer := (he.agree.table use.token use.binding use.kind).mp huse
    rw [hown, latch_of_getElem? hb, hkind] at htimer
    exact hgone htimer
  refine ⟨hdropped, Bool.eq_false_iff.mpr fun harmed => ?_, ?_, fun hup spot slot hown hdrives => ?_⟩
  · obtain ⟨once, harms⟩ := (Clock.isArmed_iff _ _).mp harmed
    obtain ⟨use, huse, htoken, -⟩ := (he.agree.armed token once).mp harms
    exact hdropped use huse htoken
  · have hreleased := he.released
    rw [latch_of_getElem? hb] at hreleased
    have hquit := hreleased hgone
    unfold LetGo at hquit
    rwa [latch_of_getElem? hb] at hquit
  · rw [← Option.not_isSome_iff_eq_none]
    intro hlive
    exact absurd (hbacks spot slot hown hdrives hlive).1 (Bool.eq_false_iff.mp hup)

/-- While it has the timer, its light and its slots can be told from the time. -/
theorem InPhase.seen (he : InPhase id token start period users e) (hunspoilt : Unspoilt e)
    (hahead : ∀ t ∈ e.clock.timers, e.clock.now < t.due) (hb : e.bindings[id]? = some b)
    (hbacks : e.Backs b) (hturbo : b.mapping.options.turbo = true)
    (hsame : b.latch.timer = some (token, .turbo)) :
    (b.latch.active = true ∧ b.latch.applied = users) ∧
      (b.latch.lit = true ↔ Even ((e.clock.now - start) / period)) ∧ e.Flashes id b := by
  have hswings := he.swings ((congrArg Latch.timer (latch_of_getElem? hb)).trans hsame)
  have hlight := hswings.lit_iff hahead
  obtain ⟨hon, husers, -⟩ := hswings
  rw [latch_of_getElem? hb] at hon hlight husers
  exact ⟨⟨hon, husers⟩, hlight, hunspoilt.flashes hbacks hb hturbo hon⟩

/-- A binding with the turbo option and a target that needs slots blinks throughout a run. -/
theorem Operated.blinksEvery {first : Engine} (hfirst : Operated Config.IsCompiled first)
    (hrun : Beats first e) (hb : e.bindings[id]? = some b) (hturbo : b.mapping.options.turbo = true)
    (hneeds : (e.descriptor b.mapping.target).needsSlot = true) :
    BlinksEvery id (Nanoseconds.ofRate b.mapping.rate) e := by
  obtain ⟨b₀, hb₀, hmapping, -⟩ := binding_congr hrun.deeds.layout.symm hb
  refine ⟨b, hb, hturbo, hneeds, ?_, rfl⟩
  have hserves := hfirst.serves hb₀
  rw [← List.length_pos_iff_ne_nil] at hserves ⊢
  rwa [← hmapping, length_targetUsers_congr hrun.deeds.layout]

/-- **A binding that blinks can be told from the time.** A press lights it and starts its timer.  From
then on, whatever else happens, it is lit in every even period since the press and dark in every odd one,
and its slots show just that, as long as it has this timer.  Once it does not have it any more, it has
been released: the timer is cancelled, and nothing is left in the slots. -/
theorem blinks_in_phase {before pressed : Engine} (hreachable : ∃ start, Reachable Config.IsCompiled start ∧
      Beats start before) (hpress : Beat before pressed) (hb : pressed.bindings[id]? = some b)
    (hturbo : b.mapping.options.turbo = true)
    (hneeds : (pressed.descriptor b.mapping.target).needsSlot = true)
    (hactive : b.latch.active = true) {kind : TimerKind} (htimer : b.latch.timer = some (token, kind))
    (hfresh : before.lastToken < token) :
    let start := pressed.clock.now
    let period := Nanoseconds.ofRate b.mapping.rate
    (kind = .turbo ∧ b.slot.isSome = true ∧ b.latch.applied ≠ []) ∧
    (Nanoseconds.perMilli ≤ period ∧ pressed.clock.Has token (start + period) (some period)) ∧
    ∀ later, Beats pressed later →
      (∀ ms, later.clock.now ≤ Nanoseconds.ofMillis ms → ∀ c,
        (later.runUntil ms).bindings[id]? = some c → c.latch.timer = some (token, .turbo) →
          (c.mapping = b.mapping ∧ c.slot = b.slot ∧ c.latch.active = true ∧
            c.latch.applied = b.latch.applied) ∧
          (c.latch.lit = true ↔ Even ((Nanoseconds.ofMillis ms - start) / period)) ∧
          (later.runUntil ms).Flashes id c) ∧
      ∀ c, later.bindings[id]? = some c → c.latch.timer ≠ some (token, .turbo) →
        later.Extinguished token c := by
  intro start period
  obtain ⟨first, hfirst, hfrom⟩ := hreachable
  have hpressing : Beats first pressed := hfrom.tail hpress
  -- What holds throughout the run.
  have hunspoilt : ∀ {e}, Beats first e → Unspoilt e := fun h =>
    h.stable (unspoilt_stable Config.IsCompiled) hfirst.operated.unspoilt
  have hbacks : ∀ {e}, Beats first e → ∀ c, e.bindings[id]? = some c → e.Backs c := fun h =>
    (h.wellBacked hfirst.operated.wellBacked).backed.backs id
  have hrule := hfirst.operated.blinksEvery hpressing hb hturbo hneeds
  have hblinker : ∀ {e}, Beats first e → e.layout = pressed.layout → Blinker id period e := fun h hsame =>
    ⟨hrule.congr hsame, (hunspoilt h).toMirrored,
      h.stable (timersAgree_stable Config.IsCompiled) hfirst.timersAgree⟩
  -- The press starts it in phase, and nobody else gets its token.
  have hlatch := latch_of_getElem? hb
  rw [← hlatch] at hactive htimer
  obtain ⟨hkind, hbright, harmed, hphase⟩ :=
    hpress.begins (hblinker hfrom hpress.layout.symm) hfresh htimer hactive
  have hreserved : Reserved (fun use => use.binding = id) token pressed := by
    have huse := (hphase.agree.table token id kind).mpr htimer
    refine ⟨hphase.issued, fun use hmem hsame => ?_⟩
    rw [hphase.agree.eq_of_token hmem huse hsame]
  have hslot : b.slot.isSome = true := by
    have hequipped := hpressing.stable (OnlyEquipped.stable Config.IsCompiled)
      ((OnlyEquipped.stable Config.IsCompiled).reachable (fun _ => ActiveWithin.ofInstall _ _ 0) hfirst)
    exact hequipped.within id hactive b hb hneeds
  refine ⟨⟨hkind, hslot, ?_⟩, ⟨Nanoseconds.perMilli_le_ofRate _, harmed⟩, fun later hlater =>
    ⟨fun ms hms c hc hsame => ?_, fun c hc hgone => ?_⟩⟩
  · rw [← hlatch]
    exact hbright.2 hactive
  -- While it has the timer: the clock gets to the time, and no timer is due then.
  · have htoLater : Beats first later := hpressing.trans hlater
    obtain ⟨hrun, hahead, hnow⟩ := (htoLater.inTime hfirst.operated.inTime).beats_runUntil ms
    rw [max_eq_right hms] at hnow
    rw [← hnow] at hahead ⊢
    have hbeats : Beats pressed (later.runUntil ms) := hlater.trans hrun
    have hfromFirst : Beats first (later.runUntil ms) := hpressing.trans hbeats
    obtain ⟨c', hc', hmapping, hslots⟩ := binding_congr hbeats.deeds.layout hb
    obtain rfl := Option.some.inj (hc.symm.trans hc')
    obtain ⟨⟨hon, husers⟩, hlight, hflashes⟩ := (hphase.beats hbeats (hblinker hpressing rfl)).seen
      (hunspoilt hfromFirst) hahead hc (hbacks hfromFirst c hc) (hmapping ▸ hturbo) hsame
    rw [hlatch] at husers
    exact ⟨⟨hmapping, hslots, hon, husers⟩, hlight, hflashes⟩
  -- Once it has lost the timer.
  · obtain ⟨c', hc', hmapping, -⟩ := binding_congr hlater.deeds.layout hb
    obtain rfl := Option.some.inj (hc.symm.trans hc')
    have hfromFirst : Beats first later := hpressing.trans hlater
    exact (hphase.beats hlater (hblinker hpressing rfl)).extinguished (hunspoilt hfromFirst).toMirrored
      (hlater.stable (reserved_stable Config.IsCompiled _ token) hreserved) hc
      (hbacks hfromFirst c hc) (hmapping ▸ hturbo) hgone

/-- The key A makes a button blink: lit for a tenth of a second and dark for the next. -/
def flickeringFile : ConfigFile :=
  { mappings := [{ source := "A", target := "PadA", options := ["turbo"], rate := some 0.1 }] }

/-- The key A has just been pressed. -/
def flickering : Engine := (ofConfig flickeringFile.compile).after (.input ⟨0x41⟩ 0 true 1 0)

/-- The key A is let go of a quarter of a second later. -/
def darkened : Engine := (flickering.runUntil 250).after (.input ⟨0x41⟩ 0 false 0 250)

/-- In the third tenth of a second the button is lit again.  Letting go of the key puts it out and cancels
the timer. -/
theorem blinks_in_phase_flickering :
    ((flickering.runUntil 250).latch 0).lit = true ∧
      ((flickering.runUntil 250).held (.pad User.first (.button 0)) 0).isSome = true ∧
      darkened.clock.isArmed 1 = false ∧ darkened.held (.pad User.first (.button 0)) 0 = none := by
  have hstart : Reachable Config.IsCompiled (ofConfig flickeringFile.compile) :=
    .start ⟨flickeringFile, rfl⟩
  have hpress : Beat (ofConfig flickeringFile.compile) flickering :=
    .call (show Call.IsSingle (.input ⟨0x41⟩ 0 true 1 0) from trivial)
  obtain ⟨hrule, hpressed, htarget, htime, hlast⟩ : (flickering.bindings[0]?.map fun b =>
        (b.mapping.options.turbo, b.mapping.options.add, Nanoseconds.ofRate b.mapping.rate)) =
        some (true, false, Nanoseconds.ofMillis 100) ∧
      (flickering.bindings[0]?.map fun b => (b.slot, b.latch.active, b.latch.timer)) =
        some (some 0, true, some (1, .turbo)) ∧
      (flickering.bindings[0]?.map fun b => (b.latch.applied,
        (flickering.descriptor b.mapping.target).cell,
        decide (User.first ∈ flickering.slotUsers b.mapping.targetUser))) =
        some ([User.first], .pad (.button 0), true) ∧
      flickering.clock.now = 0 ∧ (ofConfig flickeringFile.compile).lastToken < 1 := by
    decide +kernel
  obtain ⟨hon, hoff⟩ : ((flickering.runUntil 250).latch 0).timer = some (1, .turbo) ∧
      ((darkened.latch 0).active, (darkened.latch 0).timer) = (false, none) := by
    decide +kernel
  -- The press has started the binding.
  obtain ⟨b, hb, hrest⟩ := Option.map_eq_some_iff.mp hpressed
  rw [hb, Option.map_some, Option.some_inj] at hrule htarget
  simp only [Prod.mk.injEq, decide_eq_true_iff] at hrest hrule htarget hoff
  obtain ⟨hslot, hactive, htimer⟩ := hrest
  obtain ⟨hturbo, hadd, hrate⟩ := hrule
  obtain ⟨happlied, hcell, huser⟩ := htarget
  have hneeds : (flickering.descriptor b.mapping.target).needsSlot = true := by
    rw [Descriptor.needsSlot, hcell]
  have hdrives : flickering.Drives b.mapping (.pad User.first (.button 0)) :=
    drives_pad hcell (List.mem_singleton.mpr rfl) huser
  have hlater := (blinks_in_phase ⟨_, hstart, .refl⟩ hpress hb hturbo hneeds hactive htimer
    hlast).2.2
  rw [hrate, htime] at hlater
  -- It still has its timer in its third period, and has lost it after the key has come up.
  have hreachable : Reachable Config.IsCompiled flickering := hstart.input ..
  have hrun : Beats flickering (flickering.runUntil 250) :=
    (hreachable.operated.inTime.beats_runUntil 250).1
  have hend : Beats flickering darkened :=
    hrun.tail (.call (show Call.IsSingle (.input ⟨0x41⟩ 0 false 0 250) from trivial))
  obtain ⟨c, hc, -, -⟩ := binding_congr hrun.deeds.layout hb
  obtain ⟨d, hd, hmapping, hsame⟩ := binding_congr hend.deeds.layout hb
  rw [latch_of_getElem? hc] at hon ⊢
  rw [latch_of_getElem? hd] at hoff
  obtain ⟨⟨hmapping', hslot', -, husers⟩, hlit, hflashes⟩ :=
    (hlater flickering .refl).1 250 (htime ▸ Nat.zero_le _) c hc hon
  have hgone := (hlater darkened hend).2 d hd (by rw [hoff.2]; exact (Option.some_ne_none _).symm)
  have hlight : c.latch.lit = true := hlit.mpr (by decide)
  rw [← hmapping', ← drives_congr hrun.deeds.layout] at hdrives
  refine ⟨hlight, ((hflashes _ 0 (hslot'.trans hslot) hdrives).2 ?_).mpr ⟨hlight, ?_⟩, hgone.disarmed,
    hgone.empty hoff.1 _ 0 (hsame.trans hslot) ?_⟩
  · rw [Secure, hmapping', hadd]
    exact fun h => absurd h (by decide)
  · rw [Touches, hmapping', husers, happlied, descriptor_congr hrun.deeds.layout]
    exact ⟨⟨_, hcell, List.mem_singleton.mpr rfl⟩, List.mem_singleton.mpr rfl⟩
  · rw [hmapping, drives_congr hend.deeds.layout]
    exact drives_pad hcell (List.mem_singleton.mpr rfl) huser

/-- The key A builds up a direction of a stick and blinks; the key B clears what has been built up. -/
def clearedFile : ConfigFile :=
  { mappings :=
      [{ source := "A", target := "LStickRight", options := ["turbo", "add"], rate := some 0.1 },
        { source := "B", target := "LStickRight", options := ["reset"] }] }

/-- The key B has been hit while the key A is held, half a phase ago. -/
def cleared : Engine :=
  ((((ofConfig clearedFile.compile).after (.input ⟨0x41⟩ 0 true 1 0)).after
    (.input ⟨0x42⟩ 0 true 1 0)).after (.input ⟨0x42⟩ 0 false 0 0)).after (.runUntil 50)

/-- A variable that blinks as long as it is down. -/
def quittingFile : ConfigFile :=
  { custom := { vars := ["Lamp"] }
    mappings :=
      [{ source := "A", target := "Lamp", options := ["turbo"], rate := some 0.1, condition := some "Lamp" },
        { source := "B", target := "Lamp" }] }

/-- The key A has been pressed while the key B held the variable, and now holds it alone. -/
def quitting : Engine :=
  (((ofConfig quittingFile.compile).after (.input ⟨0x42⟩ 0 true 1 0)).after
    (.input ⟨0x41⟩ 0 true 1 0)).after (.input ⟨0x42⟩ 0 false 0 0)

/-- What is built up may be cleared while its binding is lit and stays in effect.  And a binding may be
released by a tick of its own: then it stays dark in even periods, too. -/
theorem blinks_out_of_phase :
    (Reachable Config.IsCompiled cleared ∧ cleared.clock.now = Nanoseconds.ofMillis 50 ∧
      ∃ b, cleared.bindings[0]? = some b ∧ b.mapping.options.turbo = true ∧
        Nanoseconds.ofRate b.mapping.rate = Nanoseconds.ofMillis 100 ∧
        b.latch.active = true ∧ b.latch.lit = true ∧ b.latch.timer = some (1, .turbo) ∧
        b.slot = some 0 ∧ cleared.Touches b (.pad User.first (.direction 0 .x .positive)) ∧
        cleared.held (.pad User.first (.direction 0 .x .positive)) 0 = none) ∧
    (Reachable Config.IsCompiled quitting ∧ quitting.clock.now = 0 ∧
      (quitting.clock.timers.map fun t => (t.token, t.period)) =
        [(1, some (Nanoseconds.ofMillis 100))] ∧
      (quitting.latch 0).active = true ∧ (quitting.latch 0).timer = some (1, .turbo) ∧
      Even (Nanoseconds.ofMillis 250 / Nanoseconds.ofMillis 100) ∧
      ((quitting.runUntil 250).latch 0).lit = false) := by
  have hcleared : Reachable Config.IsCompiled cleared :=
    ((((Reachable.start ⟨clearedFile, rfl⟩).input ..).input ..).input ..).call
      (show Call.Admitted _ (.runUntil 50) from trivial)
  have hquitting : Reachable Config.IsCompiled quitting :=
    (((Reachable.start ⟨quittingFile, rfl⟩).input ..).input ..).input ..
  -- The slot that another mapping has cleared, then the mapping that its own tick releases.
  have hseen : cleared.clock.now = Nanoseconds.ofMillis 50 ∧
      cleared.held (.pad User.first (.direction 0 .x .positive)) 0 = none ∧
      (cleared.latch 0).timer = some (1, .turbo) ∧
      (cleared.bindings[0]?.map fun b => (b.mapping.options.turbo,
        Nanoseconds.ofRate b.mapping.rate, (cleared.descriptor b.mapping.target).cell)) =
        some (true, Nanoseconds.ofMillis 100, .pad (.direction 0 .x .positive)) ∧
      (cleared.bindings[0]?.map fun b =>
        (b.slot, b.latch.active, b.latch.lit, b.latch.applied)) = some (some 0, true, true, [User.first]) := by
    decide +kernel
  have hquit : quitting.clock.now = 0 ∧
      (quitting.clock.timers.map fun t => (t.token, t.period)) = [(1, some (Nanoseconds.ofMillis 100))] ∧
      (quitting.latch 0).active = true ∧ (quitting.latch 0).timer = some (1, .turbo) ∧
      Even (Nanoseconds.ofMillis 250 / Nanoseconds.ofMillis 100) ∧
      ((quitting.runUntil 250).latch 0).lit = false := by
    decide +kernel
  obtain ⟨htime, hdark, htimer, hrule, hstate⟩ := hseen
  obtain ⟨b, hb, hrest⟩ := Option.map_eq_some_iff.mp hstate
  rw [hb, Option.map_some, Option.some_inj] at hrule
  rw [latch_of_getElem? hb] at htimer
  simp only [Prod.mk.injEq] at hrest hrule
  obtain ⟨hslot, hactive, hlit, happlied⟩ := hrest
  obtain ⟨hturbo, hrate, hcell⟩ := hrule
  refine ⟨⟨hcleared, htime, b, hb, hturbo, hrate, hactive, hlit, htimer, hslot, ?_, hdark⟩, hquitting,
    hquit⟩
  rw [Touches, happlied]
  exact ⟨⟨_, hcell, List.mem_singleton.mpr rfl⟩, List.mem_singleton.mpr rfl⟩

end Engine

end VirtualPad
