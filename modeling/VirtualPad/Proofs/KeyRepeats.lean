import VirtualPad.Proofs.Beats
import VirtualPad.Proofs.Compilation
import VirtualPad.Proofs.TypedTurns

/-!
# A key that is held repeats

A binding with a key of its own presses the key once, and sends it again when the delay is over and then
with every interval, as long as it is in effect.  The delay is a timer that goes off once and gives way
to one that repeats; both are armed for times that count from the press, whatever else goes off in
between.  So the number of times that the key has been sent can be told from the time alone.

The main result is `Engine.key_repeats`.  It follows a press through the rest of the run, to the release
and beyond.
-/

namespace VirtualPad

namespace Engine

variable {e e' : Engine} {id : Nat} {k : Control} {history history' : List Heard}

/-! ## §1 Beats and their answers -/

/-- One beat, and the history before and after it. -/
inductive LoggedBeat : List Heard → Engine → List Heard → Engine → Prop
  | call {history : List Heard} {e : Engine} {call : Call} (hcall : call.IsSingle) :
      LoggedBeat history e (e.logCall history call) (e.after call)
  | tick {history : List Heard} {e : Engine} {limit due : Nanoseconds} {token : TimerToken}
      {clock : Clock} (hdue : e.clock.nextDue? limit = some (token, due, clock)) :
      LoggedBeat history e (({ e with clock } : Engine).logTimer token (due.toMillis % twoTo 64) history)
        (({ e with clock } : Engine).onTimer token (due.toMillis % twoTo 64))
  | pass {history : List Heard} {e : Engine} {time : Nanoseconds}
      (hdue : e.clock.nextDue? time = none) :
      LoggedBeat history e history { e with clock := e.clock.advanceTo time }

/-- One beat after another, and the history before and after them. -/
inductive LoggedBeats (first : List Heard) (e : Engine) : List Heard → Engine → Prop
  | refl : LoggedBeats first e first e
  | tail {history history' : List Heard} {e' e'' : Engine} (h : LoggedBeats first e history e')
      (hlast : LoggedBeat history e' history' e'') : LoggedBeats first e history' e''

theorem LoggedBeat.beat (h : LoggedBeat history e history' e') : Beat e e' := by
  cases h with
  | call hcall => exact .call hcall
  | tick hdue => exact .tick hdue
  | pass hdue => exact .pass hdue

/-- **A history only grows.** -/
theorem kept_suffix (first : List Heard) : KeptInTurns fun history _ => first <:+ history :=
  have hfeed := Turn.feed_along (Q := fun history _ => first <:+ history) (fun _ _ h => h)
    (fun _ _ _ h => h.trans (List.suffix_cons _ _)) fun _ _ _ _ h => h
  { chore := fun _ h => h
    force := fun {history} e time h =>
      have hgrows := forceReleaseAll_along (fun _ _ h => h)
        (fun _ _ _ h => h.trans (List.suffix_cons _ _)) hfeed history (fun _ h => h) (fun _ _ h => h) e time h
      ⟨hgrows, hgrows⟩
    quiet := fun _ _ h => h
    answer := fun _ _ _ h => h.trans (List.suffix_cons _ _)
    feed := hfeed }

/-- A single call moves a source, or it releases everything, or it goes unheard. -/
theorem call_logged {P : List Heard → Engine → Prop} {call : Call} (hcall : call.IsSingle)
    (hunheard : P history e)
    (haccept : ∀ c pulse time, P (e.logAccept c pulse time history) (e.accept c pulse time).1)
    (hrelease : ∀ time, P (e.logReleaseAll time history) (e.releaseAll time)) :
    P (e.logCall history call) (e.after call) := by
  cases call with
  | input c user down strength time =>
    unfold logCall after processInput
    dsimp only
    by_cases huser : user < userLimit
    · rw [dif_pos huser, dif_pos huser]
      exact haccept c _ time
    · rw [dif_neg huser, dif_neg huser]
      exact hunheard
  | motion c user magnitude time =>
    unfold logCall after processRelative
    dsimp only
    by_cases huser : user < userLimit
    · rw [dif_pos huser, dif_pos huser]
      by_cases hfinite : magnitude.isFinite = true
      · rw [if_pos hfinite, if_pos hfinite]
        exact haccept c _ time
      · rw [if_neg hfinite, if_neg hfinite]
        exact hunheard
    · rw [dif_neg huser, dif_neg huser]
      exact hunheard
  | releaseAll time => exact hrelease time
  | runUntil ms => exact hcall.elim
  | reload config => exact hcall.elim

theorem LoggedBeat.suffix (h : LoggedBeat history e history' e') : history <:+ history' := by
  have hkept := kept_suffix history
  have hstart := List.suffix_refl history
  cases h with
  | call hcall =>
    exact call_logged (P := fun history' _ => history <:+ history') hcall hstart
      (fun c pulse time => hkept.accept e c pulse time hstart) fun time => hkept.releaseAll e time hstart
  | tick hdue => exact hkept.onTimer _ (fun _ => hstart) fun _ _ _ _ => hstart
  | pass hdue => exact hstart

/-- Timers that go off one after another are beats. -/
theorem LoggedBeats.due {first : List Heard} (limit : Nanoseconds) (bound : Nat)
    (h : LoggedBeats first e history e') :
    LoggedBeats first e (logDue limit bound e' history) (runDue limit bound e') := by
  induction bound generalizing e' history with
  | zero => exact h
  | succ bound ih =>
    unfold logDue runDue
    cases hnext : e'.clock.nextDue? limit with
    | none => exact h
    | some next =>
      obtain ⟨token, due, clock⟩ := next
      exact ih (h.tail (.tick hnext))

/-- Time passes up to then if everything is due later. -/
theorem LoggedBeats.passed {first : List Heard} {limit : Nanoseconds}
    (h : LoggedBeats first e history e') (hahead : ∀ t ∈ ({ e' with
      clock := e'.clock.advanceTo limit } : Engine).clock.timers, limit < t.due) :
    LoggedBeats first e history { e' with clock := e'.clock.advanceTo limit } := by
  refine h.tail (.pass ?_)
  rw [Option.eq_none_iff_forall_ne_some]
  rintro ⟨token, due, clock⟩ hnext
  obtain ⟨t, ht, -, rfl, hlimit, -⟩ := Clock.nextDue?_some hnext
  exact absurd (hahead t ht) (Nat.not_lt_of_le hlimit)

/-- Running the clock up to a time is a series of beats. -/
theorem loggedBeats_runUntil (he : InTime e) (ms : Nat) (history : List Heard) :
    LoggedBeats history e (e.logCall history (.runUntil ms)) (e.runUntil ms) :=
  (LoggedBeats.refl.due _ _).passed (he.beats_runUntil ms).2.1

/-- One beat after another, and no pulse has the binding answer it as a press. -/
def Unpressed (id : Nat) (e e' : Engine) : Prop :=
  ∃ history, LoggedBeats [] e history e' ∧ (answersOf id history).count true = 0

/-! ## §2 What becomes of the binding in a beat -/

/-- A binding with a key of its own, between two operations. -/
structure Settled (id : Nat) (k : Control) (e : Engine) : Prop where
  typist : Typist id k e
  inTime : InTime e

theorem Settled.beat (he : Settled id k e) (h : Beat e e') : Settled id k e' where
  typist := {
    toHasTypist := he.typist.toHasTypist.congr h.layout
    mirrored := h.stable (mirrored_stable fun _ => True) he.typist.mirrored
    agree := h.stable (timersAgree_stable fun _ => True) he.typist.agree
    equipped := h.stable (OnlyEquipped.stable fun _ => True) he.typist.equipped }
  inTime := h.inTime he.inTime

/-- The turn that a beat opens, before any binding has answered anything: the timer of the binding itself
may have gone off by then. -/
inductive Onset (id : Nat) (k : Control) (e : Engine) (t : Turn) : Prop
  /-- Nothing has become of the binding. -/
  | aside (htally : t.tally id k = e.tally id k)
      (hkept : ∀ {token kind due period}, (e.latch id).timer = some (token, kind) →
        e.clock.Has token due period → t.engine.clock.Has token due period)
  /-- The delay is over, and the key repeats from now on. -/
  | first {token later : TimerToken} {due : Nanoseconds} {period : Option Nanoseconds}
      (htimer : (e.latch id).timer = some (token, .keyRepeatDelay)) (hdue : e.clock.Has token due period)
      (htally : t.tally id k = ⟨e.told k ++ [true], true, some (later, .keyRepeat)⟩)
      (harmed : t.engine.clock.Has later (due + e.settings.keyRepeatInterval)
        (some e.settings.keyRepeatInterval))
      (hnow : t.engine.clock.now = due)
  /-- An interval is over. -/
  | again {token : TimerToken} {due : Nanoseconds} {period : Option Nanoseconds}
      (htimer : (e.latch id).timer = some (token, .keyRepeat)) (hdue : e.clock.Has token due period)
      (htally : t.tally id k = ⟨e.told k ++ [true], true, some (token, .keyRepeat)⟩)
      (harmed : ∀ every, period = some every → t.engine.clock.Has token (due + every) (some every))
      (hnow : t.engine.clock.now = due)

/-- What there is to a beat: an onset, and answers that the tally follows. -/
structure Followed (id : Nat) (k : Control) (history : List Heard) (e : Engine) (history' : List Heard)
    (e' : Engine) (t : Turn) : Prop where
  onset : Onset id k e t
  typist : Typist id k t.engine
  now : e.clock.now ≤ t.engine.clock.now
  layout : t.engine.layout = e.layout
  typed : Typed id k t.engine (t.tally id k) (answersOf id history) history' e'
  /-- Nothing is answered in the turn in which the timer of the binding itself goes off. -/
  apart : t.tally id k = e.tally id k ∨ e'.tally id k = t.tally id k

end Engine

namespace Turn

open Engine

variable {e : Engine} {id : Nat} {k : Control} {history : List Heard} {b : Binding} {use : TimerUse}

/-- A key that is held is sent once more when it repeats. -/
theorem tally_repeatKey {t : Turn} (ht : Typist id k t.engine) (hb : t.engine.bindings[id]? = some b)
    (hdown : (t.engine.latch id).active = true) :
    (t.repeatKey id (t.targetOf b)).tally id k =
      ⟨t.told k ++ [true], true, (t.engine.latch id).timer⟩ := by
  have hheld := ht.keyHeld.trans hdown
  obtain ⟨b', hb', rfl, hrule⟩ := ht.rule
  obtain rfl := Option.some.inj (hb.symm.trans hb')
  unfold tally
  rw [told_repeatKey hb hrule.keyboard, hheld, engine_repeatKey, hdown, if_pos rfl]

/-- The tick of a timer that repeats a key answers nothing. -/
theorem tick_repeats {t lapsed : Turn} (history : List Heard)
    (hlapse : (t.mapEngine fun e => e.lapse use) = lapsed)
    (hb : t.engine.bindings[use.binding]? = some b)
    (hkind : use.kind = .keyRepeatDelay ∨ use.kind = .keyRepeat) :
    t.tick use = lapsed.repeatKey use.binding (t.targetOf b) ∧ t.logTick use history = history := by
  unfold tick logTick
  dsimp only
  rw [hb, hlapse]
  rcases hkind with hkind | hkind
  · rw [hkind]
    exact ⟨rfl, rfl⟩
  · rw [hkind]
    exact ⟨rfl, rfl⟩

end Turn

namespace Engine

variable {e e' : Engine} {id : Nat} {k : Control} {history history' : List Heard} {b : Binding}
  {limit due : Nanoseconds} {token : TimerToken} {clock : Clock} {use : TimerUse}

/-- The turn in which a timer goes off, once what becomes of the timer itself is settled. -/
def ticking (e : Engine) (clock : Clock) (use : TimerUse) (time : Nat) : Turn where
  engine := ({ e with clock, lastTime := time } : Engine).lapse use
  time := time

section

variable (e clock use) (time : Nat)

theorem untimed_ticking :
    (e.ticking clock use time).engine.untimed = ({ e with lastTime := time } : Engine).untimed :=
  (untimed_lapse _ use).trans rfl

theorem layout_ticking : (e.ticking clock use time).engine.layout = e.layout :=
  (layout_of_untimed (untimed_ticking e clock use time)).trans rfl

theorem told_ticking (k : Control) : (e.ticking clock use time).told k = e.told k := by
  have hsame : (e.ticking clock use time).told k =
      ({ engine := { e with lastTime := time }, time } : Turn).told k :=
    Turn.told_of_untimed (untimed_ticking e clock use time) rfl
  exact hsame.trans (told_opened { e with lastTime := time } time k)

theorem tally_ticking {id : Nat} (hother : use.binding ≠ id) (k : Control) :
    (e.ticking clock use time).tally id k = e.tally id k := by
  have hlatch : (e.ticking clock use time).engine.latch id = e.latch id := latch_lapse_of_ne _ hother
  unfold Turn.tally tally
  rw [told_ticking, hlatch]

theorem active_ticking (id : Nat) :
    ((e.ticking clock use time).engine.latch id).active = (e.latch id).active :=
  congrArg Prod.fst (stake_of_untimed (untimed_ticking e clock use time) id)

end

section

variable (he : Typist id k e) (hdue : e.clock.nextDue? limit = some (token, due, clock))
  (huse : e.timerUse? token = some use) (hb : e.bindings[use.binding]? = some b) (time : Nat)

include he hdue huse hb

theorem typist_ticking : Typist id k (e.ticking clock use time).engine := by
  have hnote : Chore e { e with lastTime := time } :=
    .note e e.queue e.remainder time e.journal.snapshots e.journal.events
  have hnoted : Typist id k { e with lastTime := time } :=
    he.of_kept rfl fun _ hP => @KeptByRequests.chore _ hP.toKeptByRequests [] _ _ hnote
  exact ⟨he.toHasTypist.congr (layout_ticking e clock use time),
    (mirrored_stable fun _ => True).lapse (e := { e with lastTime := time }) hdue huse hb hnoted.mirrored,
    hnoted.agree.lapse hdue huse hb,
    (OnlyEquipped.stable fun _ => True).lapse (e := { e with lastTime := time }) hdue huse hb
      hnoted.equipped⟩

/-- The timer of another binding goes off. -/
theorem onset_other (hown : (e.latch use.binding).timer = some (token, use.kind))
    (hother : use.binding ≠ id) : Onset id k e (e.ticking clock use time) := by
  have hlatch : (e.ticking clock use time).engine.latch id = e.latch id := latch_lapse_of_ne _ hother
  refine .aside (tally_ticking e clock use time hother k) fun {waiting kind due period} htimer hhas => ?_
  have hne : waiting ≠ token := by
    rintro rfl
    exact hother (he.agree.eq_of_timer hown htimer).1
  have hwaits : Waits id waiting kind due period { e with lastTime := time } :=
    ⟨he.agree.congr ⟨fun _ => rfl, rfl, rfl, rfl, rfl⟩,
      he.agree.issued _ ((he.agree.table waiting id kind).mpr htimer), fun _ => hhas⟩
  exact (hwaits.lapse hdue huse hb hne).armed ((congrArg Latch.timer hlatch).trans htimer)

/-- The timer of the binding itself goes off, and the key is sent once more. -/
theorem onset_own (hinTime : InTime e) (hown : (e.latch use.binding).timer = some (token, use.kind))
    (hbinding : use.binding = id) (hkind : use.kind = .keyRepeatDelay ∨ use.kind = .keyRepeat)
    (hdown : (e.latch id).active = true) :
    Onset id k e ((e.ticking clock use time).repeatKey use.binding
      (({ engine := e, time } : Turn).targetOf b)) := by
  obtain ⟨hclock, -, -⟩ := hinTime.onTime.now_nextDue hdue
  have hlapsing := typist_ticking he hdue huse hb time
  obtain ⟨b', hb', hmapping, -⟩ := binding_congr (layout_ticking e clock use time) hb
  have htarget : (e.ticking clock use time).targetOf b' = ({ engine := e, time } : Turn).targetOf b :=
    Turn.targetOf_congr (layout_ticking e clock use time) hmapping
  have hin : use.binding < e.bindings.size := (Array.getElem?_eq_some_iff.mp hb).1
  subst hbinding
  have htally := Turn.tally_repeatKey hlapsing hb' ((active_ticking e clock use time _).trans hdown)
  have hengine := Turn.engine_repeatKey (e.ticking clock use time) use.binding
    ((e.ticking clock use time).targetOf b')
  have hnow : ((e.ticking clock use time).repeatKey use.binding
      ((e.ticking clock use time).targetOf b')).engine.clock.now = due := by
    rw [hengine]
    exact (now_lapse _ use).trans hclock
  obtain ⟨fired, hmem, htoken, hthen, -, hfire⟩ := Clock.nextDue?_some hdue
  have hhas : e.clock.Has token due fired.period := ⟨fired, hmem, htoken, hthen, rfl⟩
  have hafter := timer_lapse { e with clock, lastTime := time } hin
  rw [told_ticking] at htally
  rw [← htarget]
  rcases hkind with hkind | hkind
  · -- The delay gives way to a timer that repeats.
    have hlapse : (e.ticking clock use time).engine =
        ({ e with clock, lastTime := time } : Engine).startTimer use.binding .keyRepeat
          (.repeating e.settings.keyRepeatInterval) := by
      unfold ticking Engine.lapse
      rw [hkind]
    rw [hkind] at hown hafter
    refine .first hown hhas (htally.trans (congrArg _ hafter)) ?_ hnow
    have harmed := has_startTimer_repeating { e with clock, lastTime := time } use.binding .keyRepeat
      e.settings.keyRepeatInterval
    rw [← hlapse, max_eq_left hinTime.onTime.interval, hclock] at harmed
    rw [hengine]
    exact harmed
  · -- The timer that repeats goes on.
    have hlapse : (e.ticking clock use time).engine = { e with clock, lastTime := time } := by
      unfold ticking Engine.lapse
      rw [hkind]
    rw [hkind] at hown hafter
    refine .again hown hhas (htally.trans (congrArg _ (hafter.trans hown))) (fun every hperiod => ?_) hnow
    have harmed := Clock.has_fire (c := e.clock) hperiod
    rw [htoken, hthen, ← hfire] at harmed
    rw [hengine, hlapse]
    exact harmed

/-- What has been opened for a timer to go off. -/
structure Opened (e : Engine) (clock : Clock) (use : TimerUse) (time : Nat) (b : Binding) (t : Turn) :
    Prop where
  lapse : (t.mapEngine fun e => e.lapse use) = e.ticking clock use time
  target : t.targetOf b = ({ engine := e, time } : Turn).targetOf b
  binding : t.engine.bindings[use.binding]? = some b
  pending : use ∈ t.engine.timers

/-- What there is to a tick of the binding itself: it is in effect, and its key is sent once more. -/
theorem followed_own (hsettled : Settled id k e) {t : Turn} (ht : Opened e clock use time b t)
    (hown : (e.latch use.binding).timer = some (token, use.kind)) (hbinding : use.binding = id)
    (hkind : use.kind = .keyRepeatDelay ∨ use.kind = .keyRepeat) (hdown : (e.latch id).active = true)
    (history : List Heard) :
    ∃ turn, Followed id k history e (((t.tick use).commit).logDrain time (t.logTick use history))
      (((t.tick use).commit).drainQueue time) turn := by
  have hinTime := hsettled.inTime
  obtain ⟨hclock, hle, -⟩ := hinTime.onTime.now_nextDue hdue
  have honset := onset_own he hdue huse hb time hinTime hown hbinding hkind hdown
  have hrequests := Turn.requests_repeatKey (e.ticking clock use time) use.binding
    (({ engine := e, time } : Turn).targetOf b)
  obtain ⟨htick, hnone⟩ := Turn.tick_repeats history ht.lapse ht.binding hkind
  rw [htick, hnone, ht.target]
  have hengine := Turn.engine_repeatKey (e.ticking clock use time) use.binding
    (({ engine := e, time } : Turn).targetOf b)
  generalize (e.ticking clock use time).repeatKey use.binding
    (({ engine := e, time } : Turn).targetOf b) = sent at honset hengine hrequests ⊢
  have htypist : Typist id k sent.engine := hengine ▸ typist_ticking he hdue huse hb time
  have hlayout : sent.engine.layout = e.layout := hengine ▸ layout_ticking e clock use time
  have hnow : e.clock.now ≤ sent.engine.clock.now := by
    rw [hengine]
    exact Nat.le_trans hle (Nat.le_of_eq ((now_lapse _ use).trans hclock).symm)
  have hactive : (sent.engine.latch id).active = true := by
    rw [hengine, active_ticking, hdown]
  -- Nothing has been requested, so the tick ends with what has been sent.
  have hqueue : sent.commit.queue = [] := by
    rw [Turn.queue_commit, hengine, hrequests]
    show (Engine.lapse _ use).queue ++ [] = []
    rw [queue_lapse, List.append_nil]
    exact hinTime.queue
  refine ⟨_, honset, htypist, hnow, hlayout, .finish (.refl htypist fun hup =>
    absurd (hup.symm.trans hactive) Bool.false_ne_true) time, .inr ?_⟩
  rw [drainQueue_of_nil hqueue, tally_commit]

/-- What there is to a tick of another binding. -/
theorem followed_other (hinTime : InTime e)
    (hidle : (e.latch id).active = false → (e.latch id).timer = none) {t : Turn}
    (ht : Opened e clock use time b t)
    (hown : (e.latch use.binding).timer = some (token, use.kind)) (hother : use.binding ≠ id)
    (history : List Heard) :
    ∃ turn, Followed id k history e (((t.tick use).commit).logDrain time (t.logTick use history))
      (((t.tick use).commit).drainQueue time) turn := by
  obtain ⟨hclock, hle, -⟩ := hinTime.onTime.now_nextDue hdue
  have htypist := typist_ticking he hdue huse hb time
  have hnow : e.clock.now ≤ (e.ticking clock use time).engine.clock.now :=
    Nat.le_trans hle (Nat.le_of_eq ((now_lapse _ use).trans hclock).symm)
  have hlatch : (e.ticking clock use time).engine.latch id = e.latch id := latch_lapse_of_ne _ hother
  have hidle' : ((e.ticking clock use time).engine.latch id).active = false →
      ((e.ticking clock use time).engine.latch id).timer = none := by
    rwa [hlatch]
  exact ⟨_, onset_other he hdue huse hb time hown hother, htypist, hnow,
    layout_ticking e clock use time,
    .finish (Turn.types_tick ht.lapse ht.pending ht.binding hother (.refl htypist hidle')) time,
    .inl (tally_ticking e clock use time hother k)⟩

end

/-- **What there is to a tick.** -/
theorem followed_tick (he : Settled id k e)
    (hidle : (e.latch id).active = false → (e.latch id).timer = none)
    (hkinds : ∀ token kind, (e.latch id).timer = some (token, kind) →
      kind = .keyRepeatDelay ∨ kind = .keyRepeat)
    (hdue : e.clock.nextDue? limit = some (token, due, clock)) (time : Nat) (history : List Heard) :
    ∃ t, Followed id k history e (({ e with clock } : Engine).logTimer token time history)
      (({ e with clock } : Engine).onTimer token time) t := by
  obtain ⟨use, b, huse, hmem, hown, hb⟩ := he.typist.agree.due_binding hdue
  have huse' : ({ e with clock } : Engine).timerUse? token = some use := huse
  have hlog : ({ e with clock } : Engine).logTimer token time history =
      ((({ engine := { e with clock, lastTime := time }, time } : Turn).tick use).commit).logDrain time
        (({ engine := { e with clock, lastTime := time }, time } : Turn).logTick use history) := by
    unfold logTimer
    rw [huse']
  have hopened : Opened e clock use time b { engine := { e with clock, lastTime := time }, time } :=
    ⟨rfl, rfl, hb, hmem⟩
  rw [onTimer_of_use huse', hlog]
  by_cases hother : use.binding = id
  · have htimer := hown
    rw [hother] at htimer
    have hdown : (e.latch id).active = true := by
      by_contra hup
      rw [hidle (by simpa using hup)] at htimer
      contradiction
    exact followed_own he.typist hdue huse hb time he hopened hown hother (hkinds token use.kind htimer)
      hdown history
  · exact followed_other he.typist hdue huse hb time he.inTime hidle hopened hown hother history

/-- **What there is to a beat**, as long as the binding has no other timers than those of a key. -/
theorem LoggedBeat.followed (h : LoggedBeat history e history' e') (he : Settled id k e)
    (hidle : (e.latch id).active = false → (e.latch id).timer = none)
    (hkinds : ∀ token kind, (e.latch id).timer = some (token, kind) →
      kind = .keyRepeatDelay ∨ kind = .keyRepeat) :
    ∃ t, Followed id k history e history' e' t := by
  have hafter := he.beat h.beat
  cases h with
  | call hcall =>
    have hstart : Typed id k e (e.tally id k) (answersOf id history) history e := by
      intro time
      rw [← tally_opened e time]
      exact Turn.Types.refl (t := { engine := e, time }) he.typist hidle
    refine ⟨{ engine := e, time := 0 }, .aside (tally_opened e 0 id k) fun _ h => h, he.typist,
      Nat.le_refl _, rfl, ?_, .inl (tally_opened e 0 id k)⟩
    rw [tally_opened]
    exact call_logged (P := Typed id k e (e.tally id k) (answersOf id history)) hcall hstart
      (fun c pulse time => hstart.accept c pulse time) fun time => hstart.releaseAll time
  | tick hdue => exact followed_tick he hidle hkinds hdue _ history
  | @pass time hdue =>
    refine ⟨{ engine := { e with clock := e.clock.advanceTo time }, time := 0 },
      .aside (tally_opened _ 0 id k) fun _ h => h, hafter.typist, Nat.le_max_left _ _, rfl,
      fun time' => ?_, .inl (tally_opened _ 0 id k)⟩
    exact Turn.Types.refl (t := { engine := { e with clock := e.clock.advanceTo time }, time := time' })
      hafter.typist hidle

end Engine

/-! ## §3 How often the key is sent -/

/-- The key has been pressed then, after what had been told before, and it repeats since the delay is
over: it has been sent as often as intervals have passed, and the next time is armed.  Or it has been let
go of. -/
inductive Tally.Repeats (before : List Bool) (start delay interval : Nanoseconds) (clock : Clock) :
    Tally → Prop
  | delayed {token : TimerToken} (harmed : clock.Has token (start + delay) none) :
      Repeats before start delay interval clock
        ⟨before ++ List.replicate 1 true, true, some (token, .keyRepeatDelay)⟩
  | repeating {token : TimerToken} (count : Nat)
      (harmed : clock.Has token (start + delay + (count + 1) * interval) (some interval))
      (hpast : start + delay + count * interval ≤ clock.now) :
      Repeats before start delay interval clock
        ⟨before ++ List.replicate (count + 2) true, true, some (token, .keyRepeat)⟩
  | released (told : List Bool) : Repeats before start delay interval clock ⟨told, false, none⟩

theorem Tally.Repeats.idle {before : List Bool} {start delay interval : Nanoseconds} {clock : Clock}
    {s : Tally} (h : Repeats before start delay interval clock s) :
    (s.active = false → s.timer = none) ∧ ∀ token kind, s.timer = some (token, kind) →
      kind = .keyRepeatDelay ∨ kind = .keyRepeat := by
  cases h with
  | delayed =>
    exact ⟨fun hup => absurd hup.symm Bool.false_ne_true, fun _ _ h =>
      .inl (congrArg Prod.snd (Option.some.inj h)).symm⟩
  | repeating =>
    exact ⟨fun hup => absurd hup.symm Bool.false_ne_true, fun _ _ h =>
      .inr (congrArg Prod.snd (Option.some.inj h)).symm⟩
  | released => exact ⟨fun _ => rfl, fun _ _ h => absurd h.symm (Option.some_ne_none _)⟩

/-- **While nothing is due, the number of times is told by the time alone.** -/
theorem Tally.Repeats.told_eq {before : List Bool} {start delay interval : Nanoseconds} {clock : Clock}
    {s : Tally} (h : Repeats before start delay interval clock s) (hdown : s.active = true)
    (hahead : ∀ t ∈ clock.timers, clock.now < t.due) (hstart : start ≤ clock.now) :
    s.told = before ++ List.replicate
      (if clock.now - start < delay then 1 else 2 + (clock.now - start - delay) / interval) true := by
  cases h with
  | delayed harmed =>
    obtain ⟨t, ht, -, hdue, -⟩ := harmed
    have hnext := hahead t ht
    rw [hdue] at hnext
    rw [if_pos (Nat.sub_lt_left_of_lt_add hstart hnext)]
  | repeating count harmed hpast =>
    obtain ⟨t, ht, -, hdue, -⟩ := harmed
    have hnext := hahead t ht
    rw [hdue] at hnext
    have hover : delay ≤ clock.now - start :=
      Nat.le_sub_of_add_le' (Nat.le_trans (Nat.le_add_right _ _) hpast)
    have hcount : (clock.now - start - delay) / interval = count := by
      rw [Nat.sub_sub]
      exact Nat.div_eq_of_lt_le (Nat.le_sub_of_add_le' hpast)
        (Nat.sub_lt_left_of_lt_add (Nat.le_trans (Nat.le_add_right _ _) hpast) hnext)
    rw [if_neg (Nat.not_lt_of_le hover), hcount, Nat.add_comm 2]
  | released => contradiction

namespace Engine

variable {e e' : Engine} {id : Nat} {k : Control} {history history' : List Heard}
  {before : List Bool} {start delay interval : Nanoseconds}

/-- The timer of a binding is due at one time only. -/
theorem TimersAgree.due_unique (he : TimersAgree e) {token : TimerToken} {due due' : Nanoseconds}
    {period period' : Option Nanoseconds} (h : e.clock.Has token due period)
    (h' : e.clock.Has token due' period') : due = due' ∧ period = period' := by
  obtain ⟨t, ht, htoken, rfl, rfl⟩ := h
  obtain ⟨t', ht', htoken', rfl, rfl⟩ := h'
  obtain rfl := he.clock.eq_of_token ht ht' (htoken.trans htoken'.symm)
  exact ⟨rfl, rfl⟩

/-- Nothing becomes of a binding that waits for nothing. -/
theorem Onset.tally_of_none {t : Turn} (h : Onset id k e t) (hnone : (e.latch id).timer = none) :
    t.tally id k = e.tally id k := by
  cases h with
  | aside htally => exact htally
  | first hsome => exact absurd (hsome.symm.trans hnone) (Option.some_ne_none _)
  | again hsome => exact absurd (hsome.symm.trans hnone) (Option.some_ne_none _)

/-- What becomes of the binding when the turn opens. -/
theorem Onset.repeats {t : Turn} (h : Onset id k e t) (he : Typist id k e)
    (hnow : e.clock.now ≤ t.engine.clock.now)
    (hinterval : e.settings.keyRepeatInterval = interval)
    (hrepeats : Tally.Repeats before start delay interval e.clock (e.tally id k)) :
    Tally.Repeats before start delay interval t.engine.clock (t.tally id k) := by
  generalize htally : e.tally id k = s at hrepeats
  have htold : e.told k = s.told := congrArg Tally.told htally
  have htimer : (e.latch id).timer = s.timer := congrArg Tally.timer htally
  -- Nothing but the two sorts of ticks of its own timer moves the account on.
  cases h with
  | aside hsame hkept =>
    rw [hsame, htally]
    cases hrepeats with
    | delayed harmed => exact .delayed (hkept htimer harmed)
    | repeating count harmed hpast =>
      exact .repeating count (hkept htimer harmed) (Nat.le_trans hpast hnow)
    | released told => exact .released told
  | first hold hdue hsent harmed hthen =>
    cases hrepeats with
    | delayed hfirst =>
      obtain rfl := congrArg Prod.fst (Option.some.inj (hold.symm.trans htimer))
      obtain ⟨rfl, -⟩ := he.agree.due_unique hdue hfirst
      rw [hinterval] at harmed
      rw [hsent, htold, List.append_assoc]
      exact .repeating 0 (by simpa using harmed) (by simp [hthen])
    | repeating =>
      exact absurd (congrArg Prod.snd (Option.some.inj (hold.symm.trans htimer))) TimerKind.noConfusion
    | released => exact absurd (hold.symm.trans htimer) (Option.some_ne_none _)
  | again hold hdue hsent harmed hthen =>
    cases hrepeats with
    | delayed =>
      exact absurd (congrArg Prod.snd (Option.some.inj (hold.symm.trans htimer))) TimerKind.noConfusion
    | repeating count hnext =>
      obtain rfl := congrArg Prod.fst (Option.some.inj (hold.symm.trans htimer))
      obtain ⟨rfl, rfl⟩ := he.agree.due_unique hdue hnext
      have hafter := harmed interval rfl
      rw [hsent, htold, List.append_assoc, ← List.replicate_succ']
      refine .repeating (count + 1) ?_ (Nat.le_of_eq hthen.symm)
      rwa [Nat.add_mul (count + 1), Nat.one_mul, ← Nat.add_assoc]
    | released => exact absurd (hold.symm.trans htimer) (Option.some_ne_none _)

/-- What the binding has answered does not matter to the timers, unless it has been let go of. -/
theorem Typed.repeats {t : Turn} {base : List Bool}
    (h : Typed id k t.engine (t.tally id k) base history e') (ht : Typist id k t.engine)
    (hquiet : ∀ presses, answersOf id history = presses ++ base → presses.count true = 0)
    (hrepeats : Tally.Repeats before start delay interval t.engine.clock (t.tally id k)) :
    Tally.Repeats before start delay interval e'.clock (e'.tally id k) := by
  obtain ⟨presses, hhistory, hanswers⟩ := (h 0).answers
  have hwaiting : KeepsWaiting t.engine e' := (h 0).waiting
  rw [tally_opened] at hanswers
  have hkept : ∀ {token kind due period}, (t.tally id k).timer = some (token, kind) →
      (e'.tally id k).timer = (t.tally id k).timer → t.engine.clock.Has token due period →
        e'.clock.Has token due period :=
    fun htimer hsame hhas => hwaiting.has ht.agree htimer (hsame.trans htimer) hhas
  obtain hsame | ⟨-, hended⟩ := hanswers.unpressed (hquiet presses hhistory)
  · have htimer := congrArg Tally.timer hsame
    rw [hsame]
    generalize t.tally id k = s at hkept hrepeats htimer
    cases hrepeats with
    | delayed harmed => exact .delayed (hkept rfl htimer harmed)
    | repeating count harmed hpast =>
      exact .repeating count (hkept rfl htimer harmed) (hwaiting.now ▸ hpast)
    | released told => exact .released told
  · rw [hended]
    exact .released _

/-- **A beat** without a press takes the repeating on, or ends it. -/
theorem LoggedBeat.repeats (h : LoggedBeat history e history' e') (he : Settled id k e)
    (hinterval : e.settings.keyRepeatInterval = interval)
    (hquiet : (answersOf id history').count true = 0)
    (hrepeats : Tally.Repeats before start delay interval e.clock (e.tally id k)) :
    Tally.Repeats before start delay interval e'.clock (e'.tally id k) := by
  obtain ⟨t, ht⟩ := h.followed he hrepeats.idle.1 hrepeats.idle.2
  refine ht.typed.repeats ht.typist (fun presses hhistory => ?_)
    (ht.onset.repeats he.typist ht.now hinterval hrepeats)
  rw [hhistory, List.count_append] at hquiet
  omega

/-- A binding that is at rest stays so without a press, and tells nothing. -/
theorem LoggedBeat.rests (h : LoggedBeat history e history' e') (he : Settled id k e) {told : List Bool}
    (hquiet : (answersOf id history').count true = 0) (hrests : e.tally id k = ⟨told, false, none⟩) :
    e'.tally id k = ⟨told, false, none⟩ := by
  have htimer : (e.latch id).timer = none := congrArg Tally.timer hrests
  obtain ⟨t, ht⟩ := h.followed he (fun _ => htimer) fun token kind hsome => by
    rw [htimer] at hsome
    contradiction
  obtain ⟨presses, hhistory, hanswers⟩ := (ht.typed 0).answers
  rw [hhistory, List.count_append] at hquiet
  rw [tally_opened, ht.onset.tally_of_none htimer, hrests] at hanswers
  exact (hanswers.unpressed (by omega)).resolve_right fun hended => Bool.false_ne_true hended.1

/-- What every beat without a press keeps is kept as long as nothing is pressed. -/
theorem Unpressed.keeps {P : Engine → Prop} (h : Unpressed id e e') (he : Settled id k e)
    (hbeat : ∀ {history : List Heard} {e₁ : Engine} {history' : List Heard} {e₂ : Engine},
      LoggedBeat history e₁ history' e₂ → Settled id k e₁ → e₁.layout = e.layout →
        (answersOf id history').count true = 0 → P e₁ → P e₂) (hstart : P e) : P e' := by
  obtain ⟨history, hbeats, hquiet⟩ := h
  suffices hall : Settled id k e' ∧ e'.layout = e.layout ∧ P e' from hall.2.2
  induction hbeats with
  | refl => exact ⟨he, rfl, hstart⟩
  | tail _ hlast ih =>
    obtain ⟨more, rfl⟩ := hlast.suffix
    have hbefore := hquiet
    rw [answersOf_append, List.count_append] at hbefore
    obtain ⟨hsettled, hlayout, hkept⟩ := ih (by omega)
    exact ⟨hsettled.beat hlast.beat, hlast.beat.layout.trans hlayout,
      hbeat hlast hsettled hlayout hquiet hkept⟩

namespace Unpressed

variable (h : Unpressed id e e') (he : Settled id k e)

include h he

/-- What does not change, and time does not go back. -/
theorem course : Settled id k e' ∧ e'.layout = e.layout ∧ e.clock.now ≤ e'.clock.now :=
  h.keeps (P := fun e' => Settled id k e' ∧ e'.layout = e.layout ∧ e.clock.now ≤ e'.clock.now) he
    (fun hbeat _ _ _ ⟨hsettled, hlayout, hnow⟩ => ⟨hsettled.beat hbeat.beat,
      hbeat.beat.layout.trans hlayout, Nat.le_trans hnow (hbeat.beat.now_le hsettled.inTime)⟩)
    ⟨he, rfl, Nat.le_refl _⟩

theorem repeats (hinterval : e.settings.keyRepeatInterval = interval)
    (hrepeats : Tally.Repeats before start delay interval e.clock (e.tally id k)) :
    Tally.Repeats before start delay interval e'.clock (e'.tally id k) :=
  h.keeps (P := fun e' => Tally.Repeats before start delay interval e'.clock (e'.tally id k)) he
    (fun hbeat hsettled hlayout hquiet hrepeats => hbeat.repeats hsettled
      ((congrArg (fun layout => layout.settings.keyRepeatInterval) hlayout).trans hinterval) hquiet hrepeats)
    hrepeats

theorem rests {told : List Bool} (hrests : e.tally id k = ⟨told, false, none⟩) :
    e'.tally id k = ⟨told, false, none⟩ :=
  h.keeps (P := fun e' => e'.tally id k = ⟨told, false, none⟩) he
    (fun hbeat hsettled _ hquiet hrests => hbeat.rests hsettled hquiet hrests) hrests

end Unpressed

/-- What has been told of a key that repeats, while nothing is due. -/
theorem told_of_repeats (h : Tally.Repeats before start delay interval e.clock (e.tally id k))
    (hstill : (e.latch id).active = true) (hahead : ∀ t ∈ e.clock.timers, e.clock.now < t.due)
    (hstart : start ≤ e.clock.now) :
    e.told k = before ++ List.replicate (if e.clock.now - start < delay then 1
      else 2 + (e.clock.now - start - delay) / interval) true :=
  h.told_eq hstill hahead hstart

/-- **Running the clock up to a time** without a press sends the key as often as it is time to. -/
theorem told_runUntil (h : Tally.Repeats before start delay interval e.clock (e.tally id k))
    (he : Settled id k e) (hinterval : e.settings.keyRepeatInterval = interval)
    (hstart : start ≤ e.clock.now) {ms : Nat} (hms : e.clock.now ≤ Nanoseconds.ofMillis ms)
    (hquiet : (answersOf id (e.logCall [] (.runUntil ms))).count true = 0)
    (hstill : ((e.runUntil ms).latch id).active = true) :
    (e.runUntil ms).told k = before ++ List.replicate (if Nanoseconds.ofMillis ms - start < delay then 1
      else 2 + (Nanoseconds.ofMillis ms - start - delay) / interval) true := by
  have hrun : Unpressed id e (e.runUntil ms) := ⟨_, loggedBeats_runUntil he.inTime ms [], hquiet⟩
  obtain ⟨-, hahead, hnow⟩ := he.inTime.beats_runUntil ms
  rw [max_eq_right hms] at hnow
  rw [← hnow] at hahead hms ⊢
  exact told_of_repeats (hrun.repeats he hinterval h) hstill hahead (Nat.le_trans hstart hms)

/-- A press at rest puts the binding into effect: the key is told, and the delay starts. -/
theorem LoggedBeat.presses (h : LoggedBeat [] e history e') (he : Settled id k e)
    (hup : (e.latch id).active = false) (hnone : (e.latch id).timer = none)
    (honce : (answersOf id history).count true = 1) (hdown : (e'.latch id).active = true) :
    ∃ token, e'.tally id k = ⟨e.told k ++ [true], true, some (token, .keyRepeatDelay)⟩ ∧
      e'.clock.Has token (e'.clock.now + e.settings.keyRepeatDelay) none := by
  obtain ⟨t, ht⟩ := h.followed he (fun _ => hnone) fun token kind hsome => by
    rw [hnone] at hsome
    contradiction
  have hfollows := ht.typed 0
  obtain ⟨presses, hhistory, hanswers⟩ := hfollows.answers
  rw [tally_opened, ht.onset.tally_of_none hnone] at hanswers
  replace hhistory : answersOf id history = presses := hhistory.trans (List.append_nil _)
  obtain ⟨token, hfresh, htally⟩ := hanswers.pressed hup (hhistory ▸ honce) hdown
  refine ⟨token, htally, ?_⟩
  have harmed := hfollows.delayed token hfresh (congrArg Tally.timer htally)
  have hsettings : t.engine.settings = e.settings := congrArg Layout.settings ht.layout
  rw [hsettings, ← hfollows.waiting.now] at harmed
  exact harmed

/-- **A release** is told as one release of the key. -/
theorem LoggedBeat.releases (h : LoggedBeat [] e history e') (he : Settled id k e)
    (hrepeats : Tally.Repeats before start delay interval e.clock (e.tally id k))
    (honce : (answersOf id history).count true = 0 ∨ (answersOf id history).length = 1)
    (hdown : (e.latch id).active = true) (hup : (e'.latch id).active = false) :
    e'.tally id k = ⟨e.told k ++ [false], false, none⟩ := by
  obtain ⟨t, ht⟩ := h.followed he hrepeats.idle.1 hrepeats.idle.2
  obtain ⟨presses, hhistory, hanswers⟩ := (ht.typed 0).answers
  replace hhistory : answersOf id history = presses := hhistory.trans (List.append_nil _)
  rw [tally_opened] at hanswers
  rcases ht.apart with hsame | hsame
  · rw [hsame] at hanswers
    rcases honce with hquiet | hsingle
    · refine ((hanswers.unpressed (hhistory ▸ hquiet)).resolve_left fun hstays => ?_).2
      have hactive : (e'.latch id).active = (e.latch id).active := congrArg Tally.active hstays
      rw [hup, hdown] at hactive
      contradiction
    · exact hanswers.released (hhistory ▸ hsingle) hdown hup
  · -- The tick of the binding itself leaves it in effect.
    have hactive : (t.tally id k).active = true := by
      cases ht.onset with
      | aside htally => exact (congrArg Tally.active htally).trans hdown
      | first _ _ htally => exact congrArg Tally.active htally
      | again _ _ htally => exact congrArg Tally.active htally
    have hstays : (e'.latch id).active = true := (congrArg Tally.active hsame).trans hactive
    rw [hup] at hstays
    contradiction

/-! ## §4 From press to release -/

/-- What is not in effect holds on to nothing, however the deeds go on. -/
theorem Deeds.rests (h : Deeds e e') (he : Operated Config.IsCompiled e) :
    RestsWithin (fun _ => False) e' := by
  have hboth : RestsWithin (fun _ => False) e' ∧ TimersKnown e' := by
    induction h with
    | refl => exact ⟨he.rests, he.timersKnown⟩
    | tail _ hlast ih =>
      exact ⟨ih.1.deed hlast ih.2,
        hlast.keeps_stable (timersKnown_stable fun _ => True) (fun _ _ he => he) ih.2⟩
  exact hboth.1

section

variable {first : Engine} {b : Binding} (hfirst : Reachable Config.IsCompiled first)
  (hbeats : Beats first e) (hb : e.bindings[id]? = some b) (hrule : e.TypesAlone id b)

include hfirst hbeats hb hrule

/-- In the course of a run, a binding that types finds the slots and timers in order. -/
theorem settled_of_beats : Settled id b.mapping.target e where
  typist := {
    rule := ⟨b, hb, rfl, hrule⟩
    adds := by
      intro i c hc hadd
      have hlayout := hbeats.deeds.layout
      obtain ⟨c', hc', hmapping, -⟩ := binding_congr hlayout.symm hc
      rw [← hmapping, descriptor_congr hlayout]
      exact adds_of_operated hfirst.operated hc' (by rw [hmapping, hadd])
    mirrored := hbeats.stable (mirrored_stable Config.IsCompiled) hfirst.operated.mirrored
    agree := hbeats.stable (timersAgree_stable Config.IsCompiled) hfirst.timersAgree
    equipped := hbeats.stable (OnlyEquipped.stable Config.IsCompiled)
      ((OnlyEquipped.stable Config.IsCompiled).reachable (fun _ => ActiveWithin.ofInstall _ _ 0) hfirst) }
  inTime := hbeats.inTime hfirst.operated.inTime

/-- While it is out of effect, it waits for nothing. -/
theorem timer_of_up (hup : b.latch.active = false) : b.latch.timer = none := by
  have hrests := (hbeats.deeds.rests hfirst.operated).timers id (fun h => h)
  rw [latch_of_getElem? hb] at hrests
  refine hrests ?_ hup
  -- A key is no variable, so nothing comes back from it.
  rintro ⟨b', hb', hvar, -⟩
  obtain rfl := Option.some.inj (hb.symm.trans hb')
  rw [hrule.keyboard] at hvar
  cases hvar

end

/-- **A key that is held repeats.** -/
theorem key_repeats {first before pressed : Engine} (hfirst : Reachable Config.IsCompiled first)
    (hbeats : Beats first before) {b : Binding} (hb : before.bindings[id]? = some b)
    (hrule : before.TypesAlone id b) {answers : List Heard}
    (hpress : LoggedBeat [] before answers pressed) (honce : (answersOf id answers).count true = 1)
    (hup : b.latch.active = false) (hdown : (pressed.latch id).active = true) :
    let key := b.mapping.target
    let start := pressed.clock.now
    let delay := before.settings.keyRepeatDelay
    let interval := before.settings.keyRepeatInterval
    pressed.told key = before.told key ++ [true] ∧
    ∀ later, Unpressed id pressed later →
      (∀ ms, later.clock.now ≤ Nanoseconds.ofMillis ms →
        (answersOf id (later.logCall [] (.runUntil ms))).count true = 0 →
        ((later.runUntil ms).latch id).active = true →
        let held := Nanoseconds.ofMillis ms - start
        (later.runUntil ms).told key = before.told key ++
          List.replicate (if held < delay then 1 else 2 + (held - delay) / interval) true) ∧
      ∀ answers released, LoggedBeat [] later answers released →
        (answersOf id answers).count true = 0 ∨ (answersOf id answers).length = 1 →
        (later.latch id).active = true → (released.latch id).active = false →
        released.told key = later.told key ++ [false] ∧
          ∀ final, Unpressed id released final →
            final.told key = released.told key ∧ (final.latch id).active = false := by
  intro key start delay interval
  have hlatch := latch_of_getElem? hb
  have hsettled := settled_of_beats hfirst hbeats hb hrule
  have hnone := timer_of_up hfirst hbeats hb hrule hup
  rw [← hlatch] at hup hnone
  have hafter := hsettled.beat hpress.beat
  have hinterval : pressed.settings.keyRepeatInterval = interval :=
    congrArg (fun layout => layout.settings.keyRepeatInterval) hpress.beat.layout
  -- The press sends the key once and starts the delay.
  obtain ⟨token, htally, harmed⟩ := hpress.presses hsettled hup hnone honce hdown
  have hstart : Tally.Repeats (before.told key) start delay interval pressed.clock
      (pressed.tally id key) := by
    rw [htally]
    exact .delayed harmed
  refine ⟨congrArg Tally.told htally, fun later hlater => ?_⟩
  -- Until it is released the account goes on from there.
  have hrepeats := hlater.repeats hafter hinterval hstart
  obtain ⟨hlast, hlayout, hsince⟩ := hlater.course hafter
  refine ⟨fun ms hms hquiet hstill => ?_, fun answers released hrelease hone hheld hended => ?_⟩
  · exact told_runUntil hrepeats hlast
      ((congrArg (fun layout => layout.settings.keyRepeatInterval) hlayout).trans hinterval) hsince hms
      hquiet hstill
  -- The release sends the key up and leaves no timer, so nothing follows.
  · have hrests := hrelease.releases hlast hrepeats hone hheld hended
    refine ⟨congrArg Tally.told hrests, fun final hfinal => ?_⟩
    have hstays := hfinal.rests (hlast.beat hrelease.beat) hrests
    exact ⟨(congrArg Tally.told hstays).trans (congrArg Tally.told hrests).symm,
      congrArg Tally.active hstays⟩

/-- The left mouse button types the key B. -/
def clickedFile : ConfigFile := { mappings := [{ source := "LButton", target := "B" }] }

/-- The button is pressed. -/
def clickedDown : Call := .input ⟨0x101⟩ 0 true 1 0

/-- The button has just been pressed. -/
def clicked : Engine := (ofConfig clickedFile.compile).after clickedDown

/-- The button is let go of after the delay and two intervals. -/
def clickedUp : Call := .input ⟨0x101⟩ 0 false 0 566

/-- By the end of the second interval the key has been sent four times, and it goes up with the button. -/
theorem key_repeats_clicked : (clicked.runUntil 566).told ⟨0x42⟩ = List.replicate 4 true ∧
    ((clicked.runUntil 566).after clickedUp).told ⟨0x42⟩ = List.replicate 4 true ++ [false] := by
  have hfirst : Reachable Config.IsCompiled (ofConfig clickedFile.compile) :=
    .start ⟨clickedFile, rfl⟩
  obtain ⟨hrule, hcells, hsize⟩ : ((ofConfig clickedFile.compile).bindings[0]?.map fun b =>
        (b.mapping.target, b.mapping.options.turbo, b.latch.active)) = some (⟨0x42⟩, false, false) ∧
      ((ofConfig clickedFile.compile).bindings[0]?.map fun b =>
        (((ofConfig clickedFile.compile).descriptor b.mapping.target).cell,
          ((ofConfig clickedFile.compile).descriptor b.mapping.source).flags.relative,
          ((ofConfig clickedFile.compile).descriptor b.mapping.source).flags.repeatable)) =
        some (.output .keyboard, false, false) ∧
      (ofConfig clickedFile.compile).bindings.size = 1 := by
    decide +kernel
  -- What the run shows: the button presses the key, and 566 ms later it is still down.
  obtain ⟨hpress, htold, hsettings⟩ :
      answersOf 0 ((ofConfig clickedFile.compile).logCall [] clickedDown) = [true] ∧
      (ofConfig clickedFile.compile).told ⟨0x42⟩ = [] ∧
      ((ofConfig clickedFile.compile).settings.keyRepeatDelay,
        (ofConfig clickedFile.compile).settings.keyRepeatInterval) =
        (Nanoseconds.ofMillis 500, Nanoseconds.ofMillis 33) := by
    decide +kernel
  obtain ⟨hdown, hnow, hquiet⟩ : (clicked.latch 0).active = true ∧ clicked.clock.now = 0 ∧
      answersOf 0 (clicked.logCall [] (.runUntil 566)) = [] := by
    decide +kernel
  obtain ⟨hheld, hrelease, hended⟩ : ((clicked.runUntil 566).latch 0).active = true ∧
      answersOf 0 ((clicked.runUntil 566).logCall [] clickedUp) = [false] ∧
      (((clicked.runUntil 566).after clickedUp).latch 0).active = false := by
    decide +kernel
  obtain ⟨b, hb, hfields⟩ := Option.map_eq_some_iff.mp hrule
  rw [hb, Option.map_some, Option.some_inj] at hcells
  simp only [Prod.mk.injEq] at hfields hcells hsettings
  obtain ⟨htarget, hturbo, hup⟩ := hfields
  obtain ⟨hkey, hresting, hunrepeated⟩ := hcells
  obtain ⟨hdelay, hinterval⟩ := hsettings
  -- The mapping is the only one, so the key is its own.
  have halone : (ofConfig clickedFile.compile).TypesAlone 0 b := by
    refine ⟨hkey, fun i c hc _ => ?_, hresting, .inl hunrepeated, hturbo⟩
    have hin := (Array.getElem?_eq_some_iff.mp hc).1
    omega
  have hpressing : LoggedBeat [] (ofConfig clickedFile.compile) _ clicked :=
    .call (show clickedDown.IsSingle from trivial)
  have hrepeats := (key_repeats hfirst .refl hb halone hpressing (by rw [hpress]; rfl) hup hdown).2
  rw [htarget, htold, hnow, hdelay, hinterval] at hrepeats
  have hinTime := hpressing.beat.inTime hfirst.operated.inTime
  obtain ⟨hsent, -⟩ := hrepeats clicked ⟨[], .refl, rfl⟩
  -- The first time, once after half a second, and twice more at intervals of 33 ms; then the release.
  have hfour := hsent 566 (hnow ▸ Nat.zero_le _) (by rw [hquiet]; rfl) hheld
  have hlater : Unpressed 0 clicked (clicked.runUntil 566) :=
    ⟨_, loggedBeats_runUntil hinTime 566 [], by rw [hquiet]; rfl⟩
  obtain ⟨-, hlets⟩ := hrepeats _ hlater
  have hup := (hlets _ _ (.call (show clickedUp.IsSingle from trivial)) (.inl (by rw [hrelease]; rfl))
    hheld hended).1
  have hcount : (if Nanoseconds.ofMillis 566 - 0 < Nanoseconds.ofMillis 500 then 1 else
    2 + (Nanoseconds.ofMillis 566 - 0 - Nanoseconds.ofMillis 500) / Nanoseconds.ofMillis 33) = 4 := by
    decide
  replace hfour : (clicked.runUntil 566).told ⟨0x42⟩ = List.replicate 4 true := hcount ▸ hfour
  exact ⟨hfour, hup.trans (by rw [hfour])⟩

end Engine

end VirtualPad
