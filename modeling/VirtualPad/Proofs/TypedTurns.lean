import VirtualPad.Proofs.Typing

/-!
# What a binding types in a turn

A binding with a key of its own is followed through a turn of the engine.  `Turn.Types` says that the
tally of the key has followed the answers that the history has noted down since some earlier engine, and
that nothing else has happened to the binding and its timer.  It is kept by cascades, forced releases and
the ticks of other bindings, by the requests that a turn leads to, and so by every turn as a whole.
-/

namespace VirtualPad

namespace Turn

open Engine

variable {t t' : Turn} {k : Control} {id : Nat} {b : Binding} {r : Response}

/-! ## §1 Cascades -/

/-- **The tally follows the answers** of the binding, from an engine where it stood like that and those
answers had been noted down.  Nothing else happens to the binding, its timer and its key. -/
structure Types (id : Nat) (k : Control) (e : Engine) (s : Tally) (base : List Bool)
    (history : List Heard) (t : Turn) : Prop where
  typist : Typist id k t.engine
  layout : t.engine.layout = e.layout
  waiting : KeepsWaiting e t.engine
  answers : ∃ presses, answersOf id history = presses ++ base ∧
    Tally.Answers e.lastToken presses s (t.tally id k)
  idle : (t.engine.latch id).active = false → (t.engine.latch id).timer = none
  delayed (token : TimerToken) : e.lastToken < token →
    (t.engine.latch id).timer = some (token, .keyRepeatDelay) →
      t.engine.clock.Has token (e.clock.now + e.settings.keyRepeatDelay) none

namespace Types

variable {e : Engine} {s : Tally} {base : List Bool} {history history' : List Heard}

/-- Nothing has been answered since the turn that one starts from. -/
theorem refl (htypist : Typist id k t.engine)
    (hidle : (t.engine.latch id).active = false → (t.engine.latch id).timer = none) :
    Types id k t.engine (t.tally id k) (answersOf id history) history t where
  typist := htypist
  layout := rfl
  waiting := .of_same ⟨fun _ => rfl, rfl, rfl, rfl, rfl⟩
  answers := ⟨[], rfl, .nil _⟩
  idle := hidle
  delayed token hfresh htimer := absurd
    (htypist.agree.issued _ ((htypist.agree.table token id _).mpr htimer)) (Nat.not_le_of_lt hfresh)

/-- What is nothing to the binding, its timer and its key. -/
theorem aside (ht : Types id k e s base history t) (htypist : Typist id k t'.engine)
    (hlayout : t'.engine.layout = t.engine.layout) (hwaiting : KeepsWaiting t.engine t'.engine)
    (htold : t'.told k = t.told k) (hgrip : (t'.engine.latch id).grip = (t.engine.latch id).grip)
    (hhistory : answersOf id history' = answersOf id history) :
    Types id k e s base history' t' := by
  have hactive : (t'.engine.latch id).active = (t.engine.latch id).active := congrArg Prod.fst hgrip
  have htimer : (t'.engine.latch id).timer = (t.engine.latch id).timer := congrArg Prod.snd hgrip
  have htally : t'.tally id k = t.tally id k := by
    unfold tally
    rw [htold, hactive, htimer]
  refine ⟨htypist, hlayout.trans ht.layout, ht.waiting.trans hwaiting, ?_, ?_, fun token hfresh hnew => ?_⟩
  · rw [hhistory, htally]
    exact ht.answers
  · rw [hactive, htimer]
    exact ht.idle
  · have hold := htimer.symm.trans hnew
    exact hwaiting.has ht.typist.agree hold hnew (ht.delayed token hfresh hold)

/-- A pulse that is swallowed goes into the history, and that is all. -/
theorem swallow (ht : Types id k e s base history t) {i : Nat} {c : Binding} {pulse : Pulse}
    {forced : Bool} {latch : Latch} (hc : t.engine.bindings[i]? = some c)
    (hreaches : t.Reaches c pulse forced)
    (hrespond : c.latch.respond c.mapping (t.sourceOf c) (t.targetOf c) pulse.down pulse.strength
      forced = (latch, none)) :
    Types id k e s base (⟨i, pulse.down && !forced, t.engine.sourceDown c⟩ :: history)
      (t.firstStep i c pulse forced latch none) := by
  have hmove := Move.firstStep hc hreaches hrespond
  have hgrip : ∀ j, ((t.firstStep i c pulse forced latch none).engine.latch j).grip =
      (t.engine.latch j).grip := by
    refine latch_mapLatch_congr Latch.grip ?_
    rw [latch_of_getElem? hc]
    have hactive : latch.active = c.latch.active := congrArg Prod.fst (Latch.respond_none hrespond)
    exact Prod.ext hactive (Latch.timer_of_respond hrespond)
  have hstays : Types id k e s base history (t.firstStep i c pulse forced latch none) :=
    ht.aside (ht.typist.move hmove) hmove.layout
      (keepsWaiting_move hmove (steps_firstStep t hc pulse forced latch none).now) rfl (hgrip id) rfl
  obtain ⟨presses, hhistory, hanswers⟩ := hstays.answers
  refine { hstays with answers := ?_ }
  rw [answersOf_cons]
  by_cases hi : i = id
  · rw [if_pos hi, hhistory]
    exact ⟨_, rfl, hanswers.cons (.same _ _)⟩
  · rw [if_neg hi]
    exact ⟨presses, hhistory, hanswers⟩

/-- An answer of the binding itself goes into the history, and the tally follows it. -/
theorem answer (ht : Types id k e s base history t) (hb : t.engine.bindings[id]? = some b)
    {pulse : Pulse} {forced : Bool} {latch : Latch} (hreaches : t.Reaches b pulse forced)
    (hrespond : b.latch.respond b.mapping (t.sourceOf b) (t.targetOf b) pulse.down pulse.strength
      forced = (latch, some r))
    (ht' : (t.firstStep id b pulse forced latch (some r)).settle id b.mapping (t.sourceOf b)
      (t.targetOf b) r = t') (htypist : Typist id k t'.engine) :
    Types id k e s base (⟨id, pulse.down && !forced, t.engine.sourceDown b⟩ :: history) t' := by
  have hmove := Move.firstStep hb hreaches hrespond
  have hsteps : Steps t t' := ht' ▸ (steps_firstStep t hb pulse forced latch (some r)).trans
    (steps_settle _ _ _ _ _ _)
  have hwaiting : KeepsWaiting t.engine t'.engine := by
    obtain ⟨b', hb', hmapping, -⟩ := binding_congr hmove.layout hb
    have hsettle := keepsWaiting_settle hb' (t.sourceOf b) (t.targetOf b) r
    rw [hmapping, ht'] at hsettle
    exact (keepsWaiting_move hmove (steps_firstStep t hb pulse forced latch (some r)).now).trans hsettle
  obtain ⟨hanswer, hidle, htimer⟩ := keyed_answer ht.typist hb hreaches hrespond ht' ht.waiting.later ht.idle
  obtain ⟨presses, hhistory, hanswers⟩ := ht.answers
  refine ⟨htypist, hsteps.layout.trans ht.layout, ht.waiting.trans hwaiting, ?_, hidle,
    fun token hfresh hnew => ?_⟩
  · rw [answersOf_cons, if_pos rfl, hhistory]
    exact ⟨_, rfl, hanswers.cons hanswer⟩
  · rcases htimer with hsame | hnone | ⟨started, hstarted, harmed⟩
    · have hold := hsame.symm.trans hnew
      exact hwaiting.has ht.typist.agree hold hnew (ht.delayed token hfresh hold)
    · rw [hnone] at hnew
      contradiction
    · obtain rfl : started = token := congrArg Prod.fst (Option.some.inj (hstarted.symm.trans hnew))
      have hsettings : t.engine.settings = e.settings := congrArg Layout.settings ht.layout
      rwa [ht.waiting.now, hsettings] at harmed

end Types

/-- **Running a binding**, the one that types or another. -/
theorem types_runBinding {e : Engine} {s : Tally} {base : List Bool} {room : Nat}
    (hbelow : ∀ {history : List Heard} (t : Turn) (c : Control) (pulse : Pulse),
      Types id k e s base history t →
        Types id k e s base (logFeed room t c pulse history) (feed room t c pulse).1)
    {history : List Heard} (t : Turn) (i : Nat) (pulse : Pulse) (forced : Bool)
    (ht : Types id k e s base history t) :
    Types id k e s base (t.logBinding (logFeed room) i pulse forced history)
      (t.runBinding (feed room) i pulse forced).1 := by
  have hlayout := (steps_runBinding t (fun t c pulse => steps_feed t room c pulse) i pulse forced).layout
  have htypist : Typist id k (t.runBinding (feed room) i pulse forced).1.engine :=
    ht.typist.of_kept hlayout fun _ hP => @runBinding_along _ _ _ [] @hP.quiet @hP.answer (hP.feed room)
      t i pulse forced
  revert htypist
  refine runBinding_cases (P := fun t' => Typist id k t'.engine →
    Types id k e s base (t.logBinding (logFeed room) i pulse forced history) t') (fun hrefused _ => ?_)
    (fun c latch hc hreaches hrespond _ => ?_) fun c latch r hc hreaches hrespond htypist => ?_
  · rw [logBinding_of_not_reaches _ hrefused]
    exact ht
  · rw [logBinding_of_reaches _ hc hreaches hrespond]
    exact ht.swallow hc hreaches hrespond
  · rw [logBinding_of_reaches _ hc hreaches hrespond]
    by_cases hi : i = id
    · subst hi
      -- A key is no variable, so nothing is echoed.
      have hsilent : t.firstEcho i c pulse forced latch (some r) = none := by
        obtain ⟨b, hb, -, hrule⟩ := ht.typist.rule
        obtain rfl := Option.some.inj (hc.symm.trans hb)
        rw [Option.eq_none_iff_forall_ne_some]
        intro echo hecho
        have hvar := (perform_echo _ hecho).1
        rw [show (t.targetOf c).cell = _ from hrule.keyboard] at hvar
        simp at hvar
      rw [hsilent] at htypist ⊢
      exact ht.answer hc hreaches hrespond rfl htypist
    · -- Another binding answers: first itself, then whoever hears its echo, and last it settles.
      have hmove := Move.firstStep hc hreaches hrespond
      have hfirst : Types id k e s base (⟨i, pulse.down && !forced, t.engine.sourceDown c⟩ :: history)
          (t.firstStep i c pulse forced latch (some r)) := by
        refine ht.aside (ht.typist.move hmove) hmove.layout
          (keepsWaiting_move hmove (steps_firstStep t hc pulse forced latch (some r)).now)
          (told_firstStep (ht.typist.spares hi) _ _ _ _ _)
          (congrArg Latch.grip (latch_firstStep_of_ne _ _ _ _ _ hi)) ?_
        rw [answersOf_cons, if_neg hi]
      have hrelayed : Types id k e s base
          (logEcho (logFeed room) c.mapping.target (t.firstStep i c pulse forced latch (some r))
            (⟨i, pulse.down && !forced, t.engine.sourceDown c⟩ :: history)
            (t.firstEcho i c pulse forced latch (some r)))
          (relay (feed room) c.mapping.target (t.firstStep i c pulse forced latch (some r))
            (t.firstEcho i c pulse forced latch (some r))) := by
        cases t.firstEcho i c pulse forced latch (some r) with
        | none => exact hfirst
        | some echo => exact hbelow _ _ echo hfirst
      generalize relay (feed room) c.mapping.target (t.firstStep i c pulse forced latch (some r))
        (t.firstEcho i c pulse forced latch (some r)) = relayed at *
      obtain ⟨c', hc', hmapping, -⟩ := binding_congr (hrelayed.layout.trans ht.layout.symm) hc
      have hwaiting := keepsWaiting_settle hc' (t.sourceOf c) (t.targetOf c) r
      rw [hmapping] at hwaiting
      exact hrelayed.aside htypist (steps_settle _ _ _ _ _ _).layout hwaiting
        (told_settle _ _ _ _ _ _) (congrArg Latch.grip (latch_settle_of_ne relayed hi _ _ _ r)) rfl

/-- What a change of the board and the running of a binding keep, however deep the cascade below it, is
kept by a source that moves, history and turn together. -/
theorem feed_logged {P : List Heard → Turn → Prop}
    (hmark : ∀ {history : List Heard} (t : Turn) (c : Control) (user : User) (down : Bool),
      P history t → P history (t.mark c user down))
    (hbinding : ∀ room, (∀ {history : List Heard} (t : Turn) (c : Control) (pulse : Pulse), P history t →
        P (logFeed room t c pulse history) (feed room t c pulse).1) →
      ∀ {history : List Heard} (t : Turn) (id : Nat) (pulse : Pulse) (forced : Bool), P history t →
        P (t.logBinding (logFeed room) id pulse forced history)
          (t.runBinding (feed room) id pulse forced).1)
    (room : Nat) {history : List Heard} (t : Turn) (c : Control) (pulse : Pulse) (ht : P history t) :
    P (logFeed room t c pulse history) (feed room t c pulse).1 := by
  induction room generalizing history t c pulse with
  | zero => exact ht
  | succ room ih =>
    cases hline : t.engine.board.line? c with
    | none =>
      rw [feed_none _ t c pulse hline, logFeed_none _ t c pulse hline]
      exact ht
    | some line =>
      exact feed_succ_logged hline (hmark t c _ _ ht)
        (fun t' i _ ht' => hbinding room ih t' i _ false ht') (fun t' pair _ _ ht' => ih t' pair _ ht')
        fun t' i ht' => hbinding room ih t' i _ true ht'

section

variable {e : Engine} {s : Tally} {base : List Bool} {history : List Heard}

/-- **A source that moves**, however far its cascade goes. -/
theorem types_feed (room : Nat) (t : Turn) (c : Control) (pulse : Pulse)
    (ht : Types id k e s base history t) :
    Types id k e s base (logFeed room t c pulse history) (feed room t c pulse).1 := by
  refine feed_logged (P := Types id k e s base) (fun t c user down ht => ?_)
    (fun room hbelow _ => types_runBinding hbelow) room t c pulse ht
  have hlayout : (t.mark c user down).engine.layout = t.engine.layout := layout_setBoard t.engine c user down
  have hsame : SameTimers t.engine (t.mark c user down).engine := ⟨fun _ => rfl, rfl, rfl, rfl, rfl⟩
  exact ht.aside ⟨ht.typist.toHasTypist.congr hlayout,
      ⟨ht.typist.mirrored.mirrors.mark c user down, ht.typist.mirrored.settled.mark c user down⟩,
      ht.typist.agree.congr hsame, ht.typist.equipped.congr hlayout fun _ => rfl⟩
    hlayout (.of_same hsame) rfl rfl rfl

/-- Stopping the timer of a binding that is not in effect, or of another one, is nothing to the key. -/
theorem Types.stopTimer (ht : Types id k e s base history t) {i : Nat}
    (hi : i ≠ id ∨ (t.engine.latch id).active = false) :
    Types id k e s base history (t.mapEngine fun e => e.stopTimer i) := by
  by_cases hown : i = id
  · subst hown
    have hnone := ht.idle (hi.resolve_left (not_not_intro rfl))
    have hsame : t.engine.stopTimer i = t.engine := by
      unfold Engine.stopTimer
      rw [hnone]
    show Types i k e s base history { t with engine := t.engine.stopTimer i }
    rwa [hsame]
  · have huntimed := untimed_stopTimer t.engine i
    exact ht.aside (ht.typist.move (.stop i)) (layout_of_untimed huntimed) (.stopTimer t.engine i)
      (told_of_untimed huntimed rfl) (congrArg Latch.grip (latch_stopTimer_of_ne t.engine hown)) rfl

/-- **A forced release**, of the binding that types or of another. -/
theorem types_forceRelease (t : Turn) (i : Nat) (ht : Types id k e s base history t) :
    Types id k e s base (logForceRelease t i history) (forceRelease t i) := by
  have hidle := idle_forceRelease i ht.typist.mirrored.settled
  unfold forceRelease logForceRelease at *
  dsimp only at hidle ⊢
  have hreleased : Types id k e s base
      (if (t.engine.latch i).isLatched then t.logRelease (logFeed cascadeRoom) i history else history)
      (if (t.engine.latch i).isLatched then t.release listen i else t) := by
    split
    · exact types_runBinding (types_feed cascadeRoom) t i _ true ht
    · exact ht
  generalize (if (t.engine.latch i).isLatched then t.release listen i else t) = released at *
  refine hreleased.stopTimer ?_
  by_cases hi : i = id
  · subst hi
    have hsame := stake_of_untimed (untimed_stopTimer released.engine i) i
    have hactive : ((released.engine.stopTimer i).latch i).active = (released.engine.latch i).active :=
      congrArg Prod.fst hsame
    exact .inr (hactive.symm.trans hidle.active)
  · exact .inl hi

/-- A move of another binding that starts and stops no timer. -/
theorem Types.move (ht : Types id k e s base history t) (h : Move t t')
    (hnow : t'.engine.clock.now = t.engine.clock.now) (htold : t'.told k = t.told k)
    (hgrip : (t'.engine.latch id).grip = (t.engine.latch id).grip) :
    Types id k e s base history t' :=
  ht.aside (ht.typist.move h) h.layout (keepsWaiting_move h hnow) htold hgrip rfl

/-- **The timer of another binding** that goes off. -/
theorem types_tick {t lapsed : Turn} {use : TimerUse} {c : Binding}
    (hlapse : (t.mapEngine fun e => e.lapse use) = lapsed) (huse : use ∈ t.engine.timers)
    (hc : t.engine.bindings[use.binding]? = some c) (hother : use.binding ≠ id)
    (ht : Types id k e s base history lapsed) :
    Types id k e s base (t.logTick use history) (t.tick use) := by
  obtain ⟨c', hc', hsource, htarget, hstays⟩ := lapsed_binding hlapse huse hc
  have hspares := ht.typist.spares hother
  unfold tick logTick
  dsimp only
  rw [hc, hlapse]
  cases hkind : use.kind with
  | turbo =>
    have hblink : Move lapsed _ := .blink hc' ⟨use, hstays hkind, rfl, hkind⟩
    rw [hsource, htarget] at hblink
    obtain ⟨pads, outputs, hengine, -⟩ := blink_frame lapsed use.binding (t.sourceOf c) (t.targetOf c)
    have hlatch : (lapsed.blink use.binding (t.sourceOf c) (t.targetOf c)).1.engine.latch id =
        lapsed.engine.latch id := by
      have hlit := latch_mapLatch lapsed.engine use.binding (fun l => { l with lit := !l.lit }) id
      rw [if_neg fun h => hother h.1] at hlit
      rw [hengine]
      exact hlit
    have hblinked := ht.move hblink (by rw [hengine]; rfl) (told_blink hspares _ _)
      (congrArg Latch.grip hlatch)
    dsimp only [sourceOf, targetOf] at hblinked ⊢
    cases (lapsed.blink use.binding (t.engine.descriptor c.mapping.source)
      (t.engine.descriptor c.mapping.target)).2 with
    | none => exact hblinked
    | some echo => exact types_feed cascadeRoom _ _ echo hblinked
  | release => exact types_runBinding (types_feed cascadeRoom) lapsed _ _ _ ht
  | repeating =>
    have hgo : Move lapsed _ := .goOn hc'
    rw [htarget] at hgo
    obtain ⟨pads, hengine, -⟩ := goOn_frame lapsed use.binding (t.targetOf c)
    have hgone := ht.move hgo (by rw [hengine]; rfl) (told_goOn _ _ _) (by rw [hengine]; rfl)
    exact hgone
  | rotate =>
    have hturn : Move lapsed _ := .turnStick hc'
    rw [htarget] at hturn
    obtain ⟨pads, hengine, -⟩ := turnStick_frame lapsed use.binding (t.targetOf c)
    have hturned := ht.move hturn (by rw [hengine]; rfl) (told_turnStick _ _ _) (by rw [hengine]; rfl)
    exact hturned
  | keyRepeatDelay | keyRepeat =>
    have hengine := engine_repeatKey lapsed use.binding (t.targetOf c)
    have hsame : SameTimers lapsed.engine (lapsed.repeatKey use.binding (t.targetOf c)).engine := by
      rw [hengine]
      exact ⟨fun _ => rfl, rfl, rfl, rfl, rfl⟩
    have hrepeated := ht.aside (hengine ▸ ht.typist) (congrArg Engine.layout hengine) (.of_same hsame)
      (told_repeatKey_of_ne hspares _) (congrArg (fun e : Engine => (e.latch id).grip) hengine) rfl
    exact hrepeated

end

end Turn

namespace Engine

open Turn

variable {e e₁ e₂ : Engine} {s : Tally} {base : List Bool} {history : List Heard} {k : Control} {id : Nat}

/-! ## §2 Between two turns -/

/-- What the host has been told about a control. -/
def told (e : Engine) (k : Control) : List Bool := edges k e.journal.events.toList

/-- How things stand with a binding and its key between two turns. -/
def tally (e : Engine) (id : Nat) (k : Control) : Tally :=
  ⟨e.told k, (e.latch id).active, (e.latch id).timer⟩

/-- When a turn begins, nothing waits to be told. -/
theorem told_opened (e : Engine) (time : Nat) (k : Control) :
    Turn.told { engine := e, time } k = e.told k := by
  show edges k (e.journal.events.toList ++ []) = edges k e.journal.events.toList
  rw [List.append_nil]

theorem tally_opened (e : Engine) (time id : Nat) (k : Control) :
    Turn.tally { engine := e, time } id k = e.tally id k := by
  unfold Turn.tally
  rw [told_opened]
  rfl

/-- The tally has followed the answers up to an engine between two turns. -/
def Typed (id : Nat) (k : Control) (e : Engine) (s : Tally) (base : List Bool) (history : List Heard)
    (e₁ : Engine) : Prop :=
  ∀ time, Turn.Types id k e s base history { engine := e₁, time }

theorem grip_commit (t : Turn) (id : Nat) : (t.commit.latch id).grip = (t.engine.latch id).grip := by
  obtain ⟨pads, queue, remainder, snapshots, events, hcommit, -⟩ := t.commit_frame
  rw [hcommit]
  rfl

theorem tally_commit (t : Turn) (id : Nat) (k : Control) : t.commit.tally id k = t.tally id k := by
  have hgrip := grip_commit t id
  rw [← tally_opened t.commit 0, Turn.tally, Turn.tally, told_commit]
  exact congrArg₂ (fun active timer => Tally.mk _ active timer) (congrArg Prod.fst hgrip :)
    (congrArg Prod.snd hgrip :)

namespace Typed

/-- What is stable survives, and nothing is told about the key and done to the binding. -/
theorem kept (he : Typed id k e s base history e₁) (hlayout : e₂.layout = e₁.layout)
    (hnow : e₂.clock.now = e₁.clock.now)
    (hkept : ∀ P : Engine → Prop, (KeptInTurns fun _ => P) → P e₁ → P e₂)
    (htold : e₂.told k = e₁.told k) (hgrip : (e₂.latch id).grip = (e₁.latch id).grip) :
    Typed id k e s base history e₂ := by
  intro time
  refine (he time).aside ((he time).typist.of_kept hlayout hkept) hlayout (.of_kept hnow hkept) ?_ hgrip rfl
  rw [told_opened, told_opened, htold]

/-- A turn comes to its end. -/
theorem commit {t : Turn} (ht : Turn.Types id k e s base history t) :
    Typed id k e s base history t.commit := by
  intro time
  have hlayout : t.commit.layout = t.engine.layout :=
    commit_keeps (P := fun e' => e'.layout = t.engine.layout) (fun h he => (Chore.layout h).trans he) t rfl
  have hkept : ∀ P : Engine → Prop, (KeptInTurns fun _ => P) → P t.engine → P t.commit :=
    fun _ hP => @KeptByRequests.commit _ hP.toKeptByRequests [] t
  exact ht.aside (ht.typist.of_kept hlayout hkept) hlayout (.of_kept (now_commit t) hkept)
    (told_commit t time k) (grip_commit t id) rfl

/-- A small matter between two turns takes no time. -/
theorem errand (h : Errand e₁ e₂) (hclock : e₂.clock = e₁.clock) (he : Typed id k e s base history e₁) :
    Typed id k e s base history e₂ := by
  have hchore : Chore e₁ e₂ ∨ e₂ = e₁ := by
    cases h with
    | take => exact .inl (.note e₁ _ _ _ _ _)
    | forward => exact .inl (.note e₁ e₁.queue e₁.remainder e₁.lastTime _ _)
    | enable => exact .inl (.enable e₁)
    | activate user huser => exact .inl (.activate user huser)
    | remember i user => exact .inl (.remember e₁ i user)
    | pass clock =>
      right
      rw [show clock = e₁.clock from hclock]
  rcases hchore with hchore | rfl
  · refine he.kept hchore.layout (congrArg Clock.now hclock)
      (fun _ hP => @KeptByRequests.chore _ hP.toKeptByRequests [] _ _ hchore) ?_ ?_
    · cases h with
      | take | enable | activate | remember | pass => rfl
      | forward =>
        -- A command is no edge.
        show edges k (e₁.journal.events ++ #[HostEvent.command _]).toList = _
        rw [Array.toList_append, edges_append]
        exact List.append_nil _
    · have hrhythm := hchore.rhythm id
      exact Prod.ext (congrArg (fun rhythm => rhythm.1.1) hrhythm :) (congrArg Prod.snd hrhythm :)
  · exact he

/-- **Releasing everything** lets go of the key as well. -/
theorem forceReleaseAll (he : Typed id k e s base history e₁) (time : Nat) :
    Typed id k e s base (e₁.logForceReleaseAll time history) (e₁.forceReleaseAll time) := by
  have hlayout : (e₁.forceReleaseAll time).layout = e₁.layout := (Deed.release e₁ time).layout
  have hreleased : Turn.Types id k e s base (e₁.logForceReleaseAll time history)
      ((List.range e₁.bindings.size).foldl forceRelease { engine := e₁, time }) :=
    foldl_logged (P := Turn.Types id k e s base) _ (fun t i _ ht => types_forceRelease t i ht)
      { engine := e₁, time } (he time)
  have htypist : Typist id k (e₁.forceReleaseAll time) := (he time).typist.of_kept hlayout fun _ hP he =>
    (@KeptByRequests.force _ hP.toKeptByRequests [] e₁ time he).1
  intro time'
  have hsame := hlayout.trans ((he time).layout.trans hreleased.layout.symm)
  revert htypist hsame
  unfold Engine.forceReleaseAll inTurn
  dsimp only
  generalize (List.range e₁.bindings.size).foldl forceRelease { engine := e₁, time } = released at *
  intro htypist hsame
  -- Emptying the pads and committing the turn leave the latches and the timers alone.
  refine hreleased.aside htypist hsame ?_ ?_ ?_ rfl
  · refine KeepsWaiting.trans ?_ (.of_kept (Turn.now_commit _) fun _ hP =>
      @KeptByRequests.commit _ hP.toKeptByRequests [] _)
    rw [engine_updatePads]
    exact .of_same ⟨fun _ => rfl, rfl, rfl, rfl, rfl⟩
  · exact (told_commit _ _ _).trans (told_updatePads _ _ _)
  · refine (grip_commit _ _).trans ?_
    rw [engine_updatePads]
    rfl

/-- The mappings are switched off after that. -/
theorem switchOff (he : Typed id k e s base history e₁) (time : Nat) :
    Typed id k e s base (e₁.logForceReleaseAll time history) (e₁.forceReleaseAll time).switchOff := by
  intro time'
  have hlayout : (e₁.forceReleaseAll time).layout = e₁.layout := (Deed.release e₁ time).layout
  exact (he.forceReleaseAll time time').aside ((he time').typist.of_kept hlayout fun _ hP he =>
    (@KeptByRequests.force _ hP.toKeptByRequests [] e₁ time he).2) rfl
    (.of_same ⟨fun _ => rfl, rfl, rfl, rfl, rfl⟩) rfl rfl rfl

/-- A pad that is connected or disconnected is nothing to the key. -/
theorem connect (he : Typed id k e s base history e₁) (user : User) (time : Nat) :
    Typed id k e s base history (e₁.inTurn time fun t =>
      t.updatePad user fun pad => ({ pad with connected := !pad.connected }, true)) := by
  obtain ⟨written, hwritten⟩ : ∃ written, ({ engine := e₁, time } : Turn).updatePad user
    (fun pad => ({ pad with connected := !pad.connected }, true)) = written := ⟨_, rfl⟩
  have hchore : Chore e₁ written.engine := by
    rw [← hwritten, engine_updatePad]
    exact .label user _ ⟨rfl, rfl, rfl⟩
  have hengine : written.engine = e₁.write written.engine.pads e₁.outputs := by
    rw [← hwritten, engine_updatePad]
    rfl
  have hkept : ∀ P : Engine → Prop, (KeptInTurns fun _ => P) → P e₁ → P written.engine :=
    fun _ hP => @KeptByRequests.chore _ hP.toKeptByRequests [] _ _ hchore
  have htyped : Turn.Types id k e s base history written :=
    (he time).aside ((he time).typist.of_kept hchore.layout hkept) hchore.layout
      (.of_kept (by rw [hengine]; rfl) hkept) (told_congr (by rw [hengine]; rfl) (by
        rw [← hwritten]
        exact effects_updatePad _ _ _)) (by rw [hengine]; rfl) rfl
  unfold inTurn
  dsimp only
  rw [hwritten]
  exact commit htyped

theorem setActiveUser (he : Typed id k e s base history e₁) (user : User) :
    Typed id k e s base history (e₁.setActiveUser user) := by
  unfold Engine.setActiveUser
  split
  · rename_i huser
    exact he.errand (.activate user huser) rfl
  · exact he

/-- **A request that is carried out.** -/
theorem obey (he : Typed id k e s base history e₁) (r : Request) (time : Nat) :
    Typed id k e s base (e₁.logObey r time history) (e₁.obey r time) := by
  unfold Engine.logObey Engine.obey
  cases hcommand : r.command with
  | toggleDisable =>
    dsimp only
    by_cases hdisabled : e₁.disabled = true
    · rw [if_pos hdisabled, if_pos hdisabled]
      exact he.errand (.enable e₁) rfl
    · rw [if_neg hdisabled, if_neg hdisabled]
      exact he.switchOff time
  | setActiveUser => exact he.setActiveUser r.user
  | holdActiveUser =>
    dsimp only
    split
    · exact he
    · split
      · exact (he.errand (.remember e₁ r.mapping _) rfl).setActiveUser r.user
      · split
        · exact he
        · exact (he.errand (.remember e₁ r.mapping none) rfl).setActiveUser _
  | toggleConnected =>
    dsimp only
    split
    · exact he.connect r.user time
    · exact he
  | reload => exact he.errand (.forward e₁ (.inl hcommand)) rfl
  | loadConfig => exact he.errand (.forward e₁ (.inr hcommand)) rfl

theorem obeyAll (time bound : Nat) (he : Typed id k e s base history e₁) :
    Typed id k e s base (logObeyAll time bound e₁ history) (Engine.obeyAll time bound e₁) := by
  induction bound generalizing e₁ history with
  | zero => exact he
  | succ bound ih =>
    unfold logObeyAll Engine.obeyAll
    cases hqueue : e₁.queue with
    | nil => exact he
    | cons r rest => exact ih ((he.errand (.take hqueue) rfl).obey r time)

theorem drainQueue (he : Typed id k e s base history e₁) (time : Nat) :
    Typed id k e s base (e₁.logDrain time history) (e₁.drainQueue time) :=
  he.obeyAll time _

/-- A turn that is over, and the requests that it has led to. -/
theorem finish {t : Turn} (ht : Turn.Types id k e s base history t) (time : Nat) :
    Typed id k e s base (t.commit.logDrain time history) (t.commit.drainQueue time) :=
  (commit ht).drainQueue time

theorem noted (he : Typed id k e s base history e₁) (time : Nat) :
    Typed id k e s base history { e₁ with lastTime := time } := by
  have hnote : Chore e₁ { e₁ with lastTime := time } :=
    .note e₁ e₁.queue e₁.remainder time e₁.journal.snapshots e₁.journal.events
  exact he.kept rfl rfl (fun _ hP => @KeptByRequests.chore _ hP.toKeptByRequests [] _ _ hnote) rfl rfl

/-- **An event**, with all that it leads to. -/
theorem accept (he : Typed id k e s base history e₁) (c : Control) (pulse : Pulse) (time : Nat) :
    Typed id k e s base (e₁.logAccept c pulse time history) (e₁.accept c pulse time).1 :=
  finish (types_feed (cascadeRoom + 1) _ c pulse (he.noted time time)) time

theorem releaseAll (he : Typed id k e s base history e₁) (time : Nat) :
    Typed id k e s base (e₁.logReleaseAll time history) (e₁.releaseAll time) :=
  (he.forceReleaseAll time).drainQueue time

end Typed

end Engine

end VirtualPad
