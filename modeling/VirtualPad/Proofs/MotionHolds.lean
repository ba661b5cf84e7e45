import VirtualPad.Proofs.Bystanders
import VirtualPad.Proofs.Waits

/-!
# Holds that motion extends

Motion has no state of being held, so a binding from motion to something that is held stays in effect
for a while: each event starts a timer anew, and the binding ends when the timer goes off.  The press
that begins a hold and the one that extends it are the same here, because the latch answers every
press, and every answer starts the timer.

Two things are in the way of that.  With the reset option a press that brings no news is swallowed,
and rotators have a timer of another kind.  `Engine.ExtendsHold` leaves both aside.
-/

namespace VirtualPad

/-- Without the options that look for news, every press of motion is answered and puts the binding
into effect. -/
theorem Latch.respond_motion {l latch : Latch} {m : Mapping} {source target : Descriptor}
    {strength : Float} {response : Option Response}
    (h : l.respond m source target true strength false = (latch, response))
    (hrepeats : source.flags.repeatable = false) (hturbo : m.options.turbo = false)
    (htoggle : m.options.toggle = false) (hreset : m.options.reset = false) :
    latch.active = true ∧ ∃ r, response = some r ∧ r.now = true := by
  have hwanted : l.wanted m true false = true := by simp [Latch.wanted, htoggle]
  have hnews : m.isSettled source target false l.active true = false := by
    simp [Mapping.isSettled, hrepeats, hturbo, htoggle, hreset]
  unfold Latch.respond at h
  dsimp only at h
  rw [hwanted, hnews] at h
  simp only [Bool.not_true, Bool.and_false, Bool.false_and, Bool.false_eq_true, if_false] at h
  obtain ⟨rfl, rfl⟩ := Prod.mk.inj h
  exact ⟨rfl, _, rfl, rfl⟩

namespace Engine

/-- Motion holds the target of the binding, and each event extends the hold. -/
structure ExtendsHold (e : Engine) (b : Binding) : Prop where
  moves : (e.descriptor b.mapping.source).flags.relative = true
  rests : (e.descriptor b.mapping.target).flags.relative = false
  still : ∀ stick clockwise, (e.descriptor b.mapping.target).cell ≠ .rotator stick clockwise
  turbo : b.mapping.options.turbo = false
  toggle : b.mapping.options.toggle = false
  reset : b.mapping.options.reset = false

variable {e e' : Engine} {id : Nat} {b : Binding} {source : Control} {history history' : List Heard}
  {token : TimerToken} {due start : Nanoseconds}

namespace ExtendsHold

theorem moving (hb : e.ExtendsHold b) :
    ∃ cell, e.descriptor b.mapping.source = Descriptor.moving cell :=
  e.vocabulary.moving_of_relative hb.moves

theorem congr (hb : e.ExtendsHold b) (hlayout : e'.layout = e.layout) {b' : Binding}
    (hmapping : b'.mapping = b.mapping) : e'.ExtendsHold b' := by
  obtain ⟨hmoves, hrests, hstill, hturbo, htoggle, hreset⟩ := hb
  constructor
  all_goals rw [hmapping]
  · rwa [descriptor_congr hlayout]
  · rwa [descriptor_congr hlayout]
  · rwa [descriptor_congr hlayout]
  · exact hturbo
  · exact htoggle
  · exact hreset

/-- Only motion itself puts the binding into effect. -/
theorem unprompted (he : e.Wired) (hb : e.bindings[id]? = some b) (hholds : e.ExtendsHold b) :
    e.Unprompted id b.mapping.source := by
  obtain ⟨cell, hmoving⟩ := hholds.moving
  refine ⟨he, fun b' hb' => ?_, fun hvar => ?_, ?_⟩
  · obtain rfl := Option.some.inj (hb.symm.trans hb')
    exact ⟨rfl, hholds.toggle⟩
  · have hkind := (e.vocabulary.of_var hvar).2
    have hrelative := hholds.moves
    rw [show e.descriptor b.mapping.source = _ from hkind] at hrelative
    contradiction
  · rw [hmoving]
    rfl

/-- The timer is the one that ends the hold. -/
theorem timerPlan (hb : e.ExtendsHold b) (settings : Settings) (was : Bool) :
    b.mapping.timerPlan (e.descriptor b.mapping.source) (e.descriptor b.mapping.target) settings was
      true = .once (Nanoseconds.ofRate b.mapping.rate) .release := by
  unfold Mapping.timerPlan
  cases hcell : (e.descriptor b.mapping.target).cell with
  | rotator stick clockwise => exact absurd hcell (hb.still stick clockwise)
  | inert | output | motion | wheel | pad | command | connective =>
    simp [hb.turbo, hb.moves, hb.rests]

end ExtendsHold

/-! ## §1 A hold in the course of an event -/

/-- The binding is held until then: it is in effect, and waits for the timer that ends the hold. -/
def HeldUntil (id : Nat) (due : Nanoseconds) (e : Engine) : Prop :=
  ∃ token, (e.latch id).grip = (true, some (token, .release)) ∧
    Waits id token .release due none e

/-- In the course of an event, the binding is held until then if it was pressed last. -/
structure HoldsUntil (id : Nat) (source : Control) (due start : Nanoseconds) (history : List Heard)
    (e : Engine) : Prop where
  unprompted : Unprompted id source e
  agree : TimersAgree e
  now : e.clock.now = start
  held : PressedLast history id → HeldUntil id due e

/-- What stands aside and disturbs no timer lets the hold last. -/
theorem HoldsUntil.aside (he : HoldsUntil id source due start history e)
    (haside : Aside id history e history' e') (htimers : KeepsWaiting e e') :
    HoldsUntil id source due start history' e' where
  unprompted := he.unprompted.congr haside.layout
  agree := htimers.agree he.agree
  now := htimers.now.trans he.now
  held hpressed := by
    obtain ⟨hbefore, hgrip⟩ := haside.heard hpressed
    obtain ⟨token, hheld, hwaits⟩ := he.held hbefore
    exact ⟨token, hgrip.trans hheld, htimers.waits _ _ _ _ _ hwaits⟩

end Engine

namespace Turn

open Engine

variable {id : Nat} {source : Control} {due start : Nanoseconds} {history : List Heard}

/-- Settling the press starts the timer that ends the hold. -/
theorem heldUntil_settle {t : Turn} {b : Binding} {source' target : Descriptor} {r : Response}
    (hin : id < t.engine.bindings.size) (hagree : TimersAgree t.engine)
    (hactive : (t.engine.latch id).active = true) (hnow : r.now = true)
    (hplan : b.mapping.timerPlan source' target t.engine.settings r.was true =
      .once (Nanoseconds.ofRate b.mapping.rate) .release) :
    HeldUntil id (t.engine.clock.now + Nanoseconds.ofRate b.mapping.rate)
      (t.settle id b.mapping source' target r).engine := by
  have hsettle : (t.settle id b.mapping source' target r).engine =
      t.engine.startTimer id .release (.once (Nanoseconds.ofRate b.mapping.rate)) := by
    unfold settle
    dsimp only
    rw [hnow, if_pos rfl, hplan]
    rfl
  rw [hsettle]
  refine ⟨t.engine.lastToken + 1, Prod.ext ?_ ?_, waits_startTimer_once hagree hin rfl _⟩
  · have huntimed := untimed_startTimer t.engine id .release
      (.once (Nanoseconds.ofRate b.mapping.rate))
    have hsame := congrArg Latch.active (latch_of_untimed huntimed id)
    exact hsame.trans hactive
  · exact timer_startTimer t.engine hin .release _

/-- **The press begins or extends the hold.** -/
theorem holdsUntil_press (room : Nat) {t : Turn} {b : Binding} {pulse : Pulse}
    (hb : t.engine.bindings[id]? = some b) (hholds : t.engine.ExtendsHold b)
    (hdown : pulse.down = true)
    (ht : HoldsUntil id b.mapping.source (start + Nanoseconds.ofRate b.mapping.rate) start history
      t.engine) :
    HoldsUntil id b.mapping.source (start + Nanoseconds.ofRate b.mapping.rate) start
      (t.logBinding (logFeed room) id pulse false history)
      (t.runBinding (feed room) id pulse false).1.engine := by
  have htimers := keepsWaiting_runBinding room t id pulse false
  have hlayout := (steps_runBinding t (fun t c pulse => steps_feed t room c pulse) id pulse
    false).layout
  refine ⟨ht.unprompted.congr hlayout, htimers.agree ht.agree, htimers.now.trans ht.now, ?_⟩
  have hrepeats : (t.sourceOf b).flags.repeatable = false := by
    obtain ⟨cell, hmoving⟩ := hholds.moving
    unfold sourceOf
    rw [hmoving]
    rfl
  refine runBinding_cases (P := fun t' => PressedLast (t.logBinding (logFeed room) id pulse false
    history) id → HeldUntil id (start + Nanoseconds.ofRate b.mapping.rate) t'.engine)
    (fun hrefused => ?_) (fun b' latch hb' hreaches hrespond => ?_)
    fun b' latch r hb' hreaches hrespond => ?_
  · rw [logBinding_of_not_reaches _ hrefused]
    exact ht.held
  all_goals
    obtain rfl := Option.some.inj (hb.symm.trans hb')
    have hanswer := hrespond
    rw [hdown] at hanswer
    obtain ⟨hactive, r', hsome, hnow⟩ := Latch.respond_motion hanswer hrepeats hholds.turbo
      hholds.toggle hholds.reset
  · contradiction
  · obtain rfl := Option.some.inj hsome
    rw [logBinding_of_reaches _ hb hreaches hrespond]
    intro hpressed
    have hfirst := steps_firstStep t hb pulse false latch (some r)
    have hrelayed : Steps (t.firstStep id b pulse false latch (some r))
        (relay (feed room) b.mapping.target (t.firstStep id b pulse false latch (some r))
          (t.firstEcho id b pulse false latch (some r))) :=
      steps_relay _ (fun t c pulse => steps_feed t room c pulse) _ _
    have hagree : TimersAgree (relay (feed room) b.mapping.target
        (t.firstStep id b pulse false latch (some r))
        (t.firstEcho id b pulse false latch (some r))).engine :=
      @relay_along (fun _ => TimersAgree) (feed room) (logFeed room) []
        (((timersAgree_stable fun _ => True).feed room).along _) _ _ _
        (ht.agree.move (Move.firstStep hb hreaches hrespond))
    -- What the press leads to has left it in effect, as it was pressed last.
    have hgrip := ((aside_echo (aside_feed room) _ ht.unprompted hb hreaches hrespond).heard
      hpressed).2.trans (Latch.grip_of_core ((core_firstStep hb pulse false latch (some r)
        id).trans (if_pos rfl)))
    rw [← hfirst.now.trans ht.now, ← hrelayed.now]
    refine heldUntil_settle ?_ hagree ((congrArg Prod.fst hgrip).trans hactive) hnow
      (hholds.timerPlan _ r.was)
    rw [size_congr (hrelayed.layout.trans hfirst.layout)]
    exact (Array.getElem?_eq_some_iff.mp hb).1

/-- **An event of the source** begins or extends the hold of a binding that is pressed last in the
end. -/
theorem holdsUntil_feed (room : Nat) {t : Turn} {b : Binding} {pulse : Pulse}
    (hb : t.engine.bindings[id]? = some b) (hholds : t.engine.ExtendsHold b)
    (hdown : pulse.down = true)
    (ht : HoldsUntil id b.mapping.source (start + Nanoseconds.ofRate b.mapping.rate) start history
      t.engine) :
    HoldsUntil id b.mapping.source (start + Nanoseconds.ofRate b.mapping.rate) start
      (logFeed (room + 1) t b.mapping.source pulse history)
      (feed (room + 1) t b.mapping.source pulse).1.engine := by
  obtain ⟨line, hline, -⟩ := (ht.unprompted.wired.chain b.mapping.source id).mpr ⟨b, hb, rfl⟩
  -- In the whole course of the event the layout stays, and with it what the binding is.
  generalize hdue : start + Nanoseconds.ofRate b.mapping.rate = due at ht ⊢
  have hothers : ∀ {history' : List Heard} (t' : Turn) (i : Nat) (pulse : Pulse) (forced : Bool),
      i ≠ id ∨ (pulse.down && !forced) = false →
      t'.engine.layout = t.engine.layout ∧
        HoldsUntil id b.mapping.source due start history' t'.engine →
      (t'.runBinding (feed room) i pulse forced).1.engine.layout = t.engine.layout ∧
        HoldsUntil id b.mapping.source due start
          (t'.logBinding (logFeed room) i pulse forced history')
          (t'.runBinding (feed room) i pulse forced).1.engine := by
    intro history' t' i pulse forced hi ⟨hlayout, ht'⟩
    have haside := aside_runBinding (aside_feed room) history' ht'.unprompted hi
    exact ⟨haside.layout.trans hlayout,
      ht'.aside haside (keepsWaiting_runBinding room t' i pulse forced)⟩
  refine (feed_succ_logged (P := fun history' t' => t'.engine.layout = t.engine.layout ∧
    HoldsUntil id b.mapping.source due start history' t'.engine) hline ?_ (fun {history'} t' i _ ht' => ?_)
    (fun {history'} t' pair hmem down ht' => ?_) fun t' i ht' => hothers t' i _ true (.inr (by simp))
      ht').2
  · have hlayout := layout_setBoard t.engine b.mapping.source
      (t.stateUser b.mapping.source pulse.user) pulse.down
    exact ⟨hlayout, ht.aside (.of_grip hlayout rfl) (.of_same ⟨fun _ => rfl, rfl, rfl, rfl, rfl⟩)⟩
  · by_cases hi : i = id
    · subst hi
      obtain ⟨b', hb', hmapping, -⟩ := binding_congr ht'.1 hb
      have hheld : HoldsUntil i b'.mapping.source
          (start + Nanoseconds.ofRate b'.mapping.rate) start history' t'.engine := by
        rw [hmapping, hdue]
        exact ht'.2
      have hpulse : ({ pulse with user := t.stateUser b.mapping.source pulse.user } : Pulse).down =
          true := hdown
      have hpress := holdsUntil_press room hb' (hholds.congr ht'.1 hmapping) hpulse hheld
      rw [hmapping, hdue] at hpress
      refine ⟨?_, hpress⟩
      exact (steps_runBinding t' (fun t c pulse => steps_feed t room c pulse) i _
        false).layout.trans ht'.1
    · exact hothers t' i _ false (.inl hi) ht'
  · have haside := aside_feed room history' t' pair
      ⟨t.stateUser b.mapping.source pulse.user, down, pulse.strength⟩ ht'.2.unprompted
      (ht.unprompted.pair_ne ⟨line, hline, hmem⟩)
    exact ⟨haside.layout.trans ht'.1, ht'.2.aside haside (keepsWaiting_feed room t' pair _)⟩

end Turn

namespace Engine

variable {e e' : Engine} {id : Nat} {b : Binding} {source : Control} {history : List Heard}
  {token : TimerToken} {due start : Nanoseconds}

theorem holdsUntil_accept (hb : e.bindings[id]? = some b) (hholds : e.ExtendsHold b) {pulse : Pulse}
    (hdown : pulse.down = true) (time : Nat)
    (he : HoldsUntil id b.mapping.source (e.clock.now + Nanoseconds.ofRate b.mapping.rate) e.clock.now
      history e) :
    HoldsUntil id b.mapping.source (e.clock.now + Nanoseconds.ofRate b.mapping.rate) e.clock.now
      (e.logAccept b.mapping.source pulse time history)
      (e.accept b.mapping.source pulse time).1 := by
  have htimed : HoldsUntil id b.mapping.source
      (e.clock.now + Nanoseconds.ofRate b.mapping.rate) e.clock.now history
      { e with lastTime := time } :=
    he.aside (.of_grip rfl rfl) (.of_same ⟨fun _ => rfl, rfl, rfl, rfl, rfl⟩)
  have hlayout : ({ e with lastTime := time } : Engine).layout = e.layout := rfl
  have hfed := Turn.holdsUntil_feed cascadeRoom (t := { engine := { e with lastTime := time }, time })
    hb (hholds.congr hlayout rfl) hdown htimed
  have hrequests := hfed.unprompted.requests (Turn.logFeed (cascadeRoom + 1)
    { engine := { e with lastTime := time }, time } b.mapping.source pulse history)
  exact hfed.aside (hrequests.drainQueue _ time (hrequests.commit _ (.refl _ _)))
    (keepsWaiting_commit _ time)

/-! ## §2 The press is answered -/

/-- The binding has answered a press. -/
def PressedIn (history : List Heard) (id : Nat) : Prop := ∃ h ∈ history, h.id = id ∧ h.press = true

/-- What has been answered stays answered. -/
theorem pressedIn_kept (id : Nat) : KeptInTurns fun history _ => PressedIn history id := by
  have hanswer : Turn.AnswerKeeps fun history _ => PressedIn history id :=
    fun _ _ _ ⟨h, hmem, hh⟩ => ⟨h, List.mem_cons_of_mem _ hmem, hh⟩
  have hfeed : ∀ room, Turn.KeepsAlong (fun history _ => PressedIn history id) (Turn.feed room)
      (Turn.logFeed room) := fun room =>
    Turn.feed_along (fun _ _ ht => ht) hanswer (fun _ _ _ _ ht => ht) room
  refine { chore := fun _ he => he, force := fun e time he => ?_, quiet := fun _ _ ht => ht,
           answer := hanswer, feed := hfeed }
  have hforced := forceReleaseAll_along (Q := fun history _ => PressedIn history id)
    (fun _ _ ht => ht) hanswer hfeed _ (fun _ he => he) (fun _ _ he => he) e time he
  exact ⟨hforced, hforced⟩

/-- If it has answered nothing but presses, it was pressed last. -/
theorem PressedIn.last {history : List Heard} (hpressed : PressedIn history id)
    (hfree : ∀ h ∈ history, h.id = id → h.press = true) : PressedLast history id := by
  obtain ⟨h, hmem, hid, -⟩ := hpressed
  have hfound : (history.find? fun h => h.id == id).isSome = true :=
    List.find?_isSome.mpr ⟨h, hmem, by simpa using hid⟩
  obtain ⟨last, hlast⟩ := Option.isSome_iff_exists.mp hfound
  exact ⟨last, hlast, hfree last (List.mem_of_find?_eq_some hlast)
    (by simpa using List.find?_some hlast)⟩

end Engine

namespace Turn

open Engine

variable {id : Nat}

/-- A binding whose target is no variable leaves the board alone. -/
theorem board_runBinding (onVar : Listener) (t : Turn) (pulse : Pulse) (forced : Bool)
    (hplain : ∀ b, t.engine.bindings[id]? = some b → (t.targetOf b).cell ≠ .output .var) :
    (t.runBinding onVar id pulse forced).1.engine.board = t.engine.board := by
  refine runBinding_cases (P := fun t' => t'.engine.board = t.engine.board) (fun _ => rfl)
    (fun b latch hb hreaches hrespond => ?_) fun b latch r hb hreaches hrespond => ?_
  · exact board_of_scene (Move.firstStep hb hreaches hrespond).bits.1
  · have hfirst := board_of_scene (Move.firstStep hb hreaches hrespond).bits.1
    refine (board_of_scene (quiet_settle _ id b.mapping _ _ r).scene).trans ?_
    cases hecho : t.firstEcho id b pulse forced latch (some r) with
    | none => exact hfirst
    | some echo => exact absurd (perform_echo _ hecho).1 (hplain b hb)

/-- A press that a binding accepts is answered. -/
theorem heard_runBinding (room : Nat) {t : Turn} {b : Binding} {pulse : Pulse}
    {history : List Heard} (hb : t.engine.bindings[id]? = some b) (hdown : pulse.down = true)
    (haccepts : t.accepts b (t.sourceOf b) (t.targetOf b) pulse = true) :
    PressedIn (t.logBinding (logFeed room) id pulse false history) id := by
  cases hrespond : b.latch.respond b.mapping (t.sourceOf b) (t.targetOf b) pulse.down
    pulse.strength false with
  | mk latch response =>
  rw [logBinding_of_reaches _ hb (.inr haccepts) hrespond]
  refine relay_along (((pressedIn_kept id).feed room)) _ _ _ ?_
  exact ⟨_, List.mem_cons_self, rfl, by rw [hdown]; rfl⟩

/-- What the binding depends on is as it was when its source had just moved. -/
structure AsMarked (b : Binding) (t t' : Turn) : Prop where
  layout : t'.engine.layout = t.engine.layout
  disabled : t'.engine.disabled = t.engine.disabled
  activeUser : t'.engine.activeUser = t.engine.activeUser
  board : b.mapping.conditions = [] ∨
    t'.engine.board = t.engine.board.set b.mapping.source User.first true

/-- With conditions, no binding of the same source may drive a variable, which could change them before
it is the turn of this one. -/
def UndrivenBy (b : Binding) (e : Engine) : Prop :=
  b.mapping.conditions = [] ∨ ∀ (i : Nat) (b' : Binding), e.bindings[i]? = some b' →
    b'.mapping.source = b.mapping.source → (e.descriptor b'.mapping.target).cell ≠ .output .var

/-- The bindings that come first change nothing that the binding depends on. -/
theorem AsMarked.runBinding {t t' : Turn} {b b' : Binding} (h : AsMarked b t t') {i room : Nat}
    (hb' : t.engine.bindings[i]? = some b') (hsource : b'.mapping.source = b.mapping.source)
    (hstays : UndrivenBy b t.engine) (pulse : Pulse) :
    AsMarked b t (t'.runBinding (feed room) i pulse false).1 := by
  have hsteps := steps_runBinding t' (fun t c pulse => steps_feed t room c pulse) i pulse false
  refine ⟨hsteps.layout.trans h.layout, hsteps.gates.2.trans h.disabled,
    hsteps.gates.1.trans h.activeUser, ?_⟩
  rcases h.board with hfree | hboard
  · exact .inl hfree
  · rcases hstays with hfree | hplain
    · exact .inl hfree
    · refine .inr ((board_runBinding (feed room) t' pulse false fun b'' hb'' => ?_).trans hboard)
      obtain ⟨b₀, hb₀, hmapping, -⟩ := binding_congr h.layout.symm hb''
      obtain rfl := Option.some.inj (hb'.symm.trans hb₀)
      rw [← targetOf_congr h.layout.symm hmapping]
      exact hplain i b' hb' hsource

/-- So the binding accepts a press when it is its turn. -/
theorem AsMarked.accepts {t t' : Turn} {b b' : Binding} (h : AsMarked b t t')
    (hmapping : b'.mapping = b.mapping) (hslot : b'.slot = b.slot) (hheeds : t.engine.Heeds b)
    (husers : (t.sourceOf b).flags.ofUser = false)
    (hallows : b.mapping.allows (t.engine.board.set b.mapping.source User.first true)
      t.engine.activeUser = true) {pulse : Pulse} (hdown : pulse.down = true) :
    t'.accepts b' (t'.sourceOf b') (t'.targetOf b') pulse = true := by
  obtain ⟨hon, hhasSlot⟩ := (heeds_congr h.layout h.disabled hmapping hslot).mpr hheeds
  have hholds : b'.mapping.allows t'.engine.board t'.engine.activeUser = true := by
    rw [hmapping, h.activeUser]
    rcases h.board with hfree | hboard
    · unfold Mapping.allows
      rw [hfree]
      rfl
    · rw [hboard]
      exact hallows
  rw [← sourceOf_congr h.layout hmapping] at husers
  unfold Turn.accepts
  rw [show (t'.engine.disabled && (t'.targetOf b').cell != .command .toggleDisable) = false from hon,
    show ((t'.targetOf b').needsSlot && b'.slot.isNone) = false from hhasSlot, husers, hdown]
  simpa using hholds

/-- **The binding answers the press**, if it heeds its source and its conditions hold once the source
has moved. -/
theorem heard_feed (room : Nat) {t : Turn} (ht : t.engine.Wired) {b : Binding}
    (hb : t.engine.bindings[id]? = some b) (hheeds : t.engine.Heeds b)
    (husers : (t.sourceOf b).flags.ofUser = false)
    (hallows : b.mapping.allows (t.engine.board.set b.mapping.source User.first true)
      t.engine.activeUser = true)
    (hstays : UndrivenBy b t.engine) {pulse : Pulse} (hdown : pulse.down = true) :
    PressedIn (logFeed (room + 1) t b.mapping.source pulse []) id := by
  obtain ⟨line, hline, hmem⟩ := (ht.chain b.mapping.source id).mpr ⟨b, hb, rfl⟩
  have hkept := pressedIn_kept id
  have huser : t.stateUser b.mapping.source pulse.user = User.first := by
    unfold stateUser
    rw [show (t.engine.descriptor b.mapping.source).flags.ofUser = false from husers]
    rfl
  rw [logFeed_succ room t _ pulse hline]
  dsimp only
  rw [huser, hdown]
  let marking : Pulse := ⟨User.first, true, pulse.strength⟩
  -- Until its turn comes nothing that it heeds has changed; then it is heard, and that stays on record.
  have hchain : PressedIn (logWalk (fun t' i => (t'.runBinding (feed room) i marking false).1)
      (fun t' i => t'.logBinding (logFeed room) i marking false)
      (t.mark b.mapping.source User.first true) line.chain []) id := by
    refine foldl_reaches (P := AsMarked b t) (Q := fun history => PressedIn history id) hmem
      (fun t' i hi ht' => ?_) (fun {history} t' ht' => ?_)
      (fun {history} t' i hheard => runBinding_along hkept.quiet hkept.answer (hkept.feed room) t' i _
        false hheard)
      (t.mark b.mapping.source User.first true) ⟨layout_setBoard _ _ _ _, rfl, rfl, .inr rfl⟩ []
    · obtain ⟨b', hb', hsource⟩ := (ht.chain b.mapping.source i).mp ⟨line, hline, hi⟩
      exact ht'.runBinding hb' hsource hstays marking
    · obtain ⟨b', hb', hmapping, hslot⟩ := binding_congr ht'.layout hb
      exact heard_runBinding room hb' rfl (ht'.accepts hmapping hslot hheeds husers hallows rfl)
  have hpairs : ∀ t' : Turn, PressedIn (logWalk (fun t pair => (followPair (feed room) marking t pair).1)
      (logPair (logFeed room) marking) t' line.pairs
      (logWalk (fun t' i => (t'.runBinding (feed room) i marking false).1)
        (fun t' i => t'.logBinding (logFeed room) i marking false)
        (t.mark b.mapping.source User.first true) line.chain [])) id :=
    fun t' => logWalk_keeps (Q := fun history => PressedIn history id)
      (fun t pair hheard => followPair_along (hkept.feed room) marking t pair hheard) t' line.pairs hchain
  split
  · exact logWalk_keeps (Q := fun history => PressedIn history id)
      (fun t' i hheard => review_along hkept.quiet hkept.answer (hkept.feed room) t' i hheard) _ _
      (hpairs _)
  · exact hpairs _

end Turn

/-- The call neither moves the source nor brings another configuration. -/
def Call.Spares (source : Control) : Call → Prop
  | .input c _ _ _ _ | .motion c _ _ _ => c ≠ source
  | .runUntil _ | .releaseAll _ => True
  | .reload _ => False

theorem Call.Spares.admitted {admits : Config → Prop} {source : Control} {call : Call}
    (h : call.Spares source) : call.Admitted admits := by
  cases call with
  | reload config => exact h.elim
  | input | motion | runUntil | releaseAll => trivial

namespace Engine

variable {e e' : Engine} {id : Nat} {b : Binding} {source : Control} {history : List Heard}
  {token : TimerToken} {due limit : Nanoseconds}

/-! ## §3 The end of the hold -/

/-- The loop of the clock has ended when nothing is due any more. -/
theorem TicksUntil.last_due {times : List Nat} {last : Engine} (hticks : TicksUntil limit e times last) :
    last.clock.nextDue? limit = none := by
  induction hticks with
  | done hdue => exact hdue
  | tick _ _ ih => exact ih

/-- The binding is out of effect, or it is held until then at most. -/
structure EndsBy (id : Nat) (source : Control) (due : Nanoseconds) (e : Engine) : Prop where
  unprompted : Unprompted id source e
  agree : TimersAgree e
  heeding : ∃ history, OutlivesWithin (fun _ => False) history e
  rule (b : Binding) : e.bindings[id]? = some b →
    (e.descriptor b.mapping.source).flags.ofUser = false ∧
      (b.mapping.options.add = true → b.mapping.conditions = [])
  ends : (e.latch id).active = false ∨ HeldUntil id due e

namespace EndsBy

/-- What the binding is stays with the layout. -/
theorem of_layout (he : EndsBy id source due e) (hlayout : e'.layout = e.layout)
    (hagree : TimersAgree e') (hheeding : ∃ history, OutlivesWithin (fun _ => False) history e')
    (hends : (e'.latch id).active = false ∨ HeldUntil id due e') : EndsBy id source due e' where
  unprompted := he.unprompted.congr hlayout
  agree := hagree
  heeding := hheeding
  rule b' hb' := by
    obtain ⟨b, hb, hmapping, -⟩ := binding_congr hlayout.symm hb'
    rw [← hmapping, descriptor_congr hlayout]
    exact he.rule b hb
  ends := hends

/-- A binding that is out of effect stays so while others stand aside. -/
theorem off_of_aside (h : Aside id [] e history e') (hup : (e.latch id).active = false) :
    (e'.latch id).active = false :=
  (h.off ⟨hup, not_pressedLast_nil id⟩).1

/-- What stands aside and keeps the timer waiting lets the hold end in time. -/
theorem ends_of_aside (h : Aside id [] e history e')
    (hwaits : ∀ token, Waits id token .release due none e → Waits id token .release due none e')
    (hends : (e.latch id).active = false ∨ HeldUntil id due e) :
    (e'.latch id).active = false ∨ HeldUntil id due e' := by
  rcases hends with hup | ⟨token, hgrip, hheld⟩
  · exact .inl (off_of_aside h hup)
  · cases hactive : (e'.latch id).active with
    | false => exact .inl rfl
    | true => exact .inr ⟨token, (h.held hactive).trans hgrip, hwaits token hheld⟩

/-- The timer that goes off is the one that ends the hold, or one of another binding. -/
theorem expire (he : EndsBy id source due e) {time : Nanoseconds} {clock : Clock}
    (hdue : e.clock.nextDue? limit = some (token, time, clock)) (ms : Nat) :
    EndsBy id source due (({ e with clock } : Engine).onTimer token ms) := by
  obtain ⟨heard, hheeding⟩ := he.heeding
  have hagree : TimersAgree (({ e with clock } : Engine).onTimer token ms) :=
    @StableAlong.expire _ _ (timersAgree_stable fun _ => True).along [] _ _ _ _ _ ms hdue he.agree
  have hlayout : (({ e with clock } : Engine).onTimer token ms).layout = e.layout :=
    (deeds_onTimer { e with clock } token ms).layout
  refine he.of_layout hlayout hagree
    ⟨_, (outlived_stable fun _ => True).expire ms hdue hheeding⟩ ?_
  have hclock : Unprompted id source { e with clock } := he.unprompted.congr rfl
  rcases he.ends with hup | ⟨held, hgrip, hwaits⟩
  · exact .inl (off_of_aside (aside_onTimer hclock [] (fun use _ => .inr ⟨hup, not_pressedLast_nil id⟩)
      ms) hup)
  · have htimer : (e.latch id).timer = some (held, .release) := congrArg Prod.snd hgrip
    obtain ⟨use, huse, -, hown, -⟩ := he.agree.due hdue
    by_cases hsame : held = token
    · -- The hold is over.
      subst hsame
      obtain ⟨hbinding, hkind⟩ := he.agree.eq_of_timer hown htimer
      cases hb : e.bindings[id]? with
      | none =>
        rw [latch_of_le (Array.getElem?_eq_none_iff.mp hb)] at htimer
        contradiction
      | some b =>
        obtain ⟨husers, hadd⟩ := he.rule b hb
        exact .inl (off_onTimer hclock huse hbinding hkind hb (hheeding.heeding id b hb) husers hadd ms)
    · have hother : use.binding ≠ id := by
        rintro rfl
        exact hsame (congrArg Prod.fst (Option.some.inj (htimer.symm.trans hown)))
      have haside := aside_onTimer hclock [] (fun use' huse' => by
        obtain rfl := Option.some.inj (huse.symm.trans huse')
        exact .inl hother) ms
      cases hactive : ((({ e with clock } : Engine).onTimer token ms).latch id).active with
      | false => exact .inl rfl
      | true => exact .inr ⟨held, (haside.held hactive).trans hgrip, hwaits.expire hdue hsame ms⟩

theorem ticks {times : List Nat} {last : Engine} (hticks : TicksUntil limit e times last)
    (he : EndsBy id source due e) : EndsBy id source due last := by
  induction hticks with
  | done _ => exact he
  | tick hdue _ ih => exact ih (he.expire hdue _)

/-- A run of the clock goes on past the end of the hold, or leaves it to come. -/
theorem runUntil (he : EndsBy id source due e) (hreachable : Reachable Config.IsCompiled e)
    (ms : Nat) : EndsBy id source due (e.runUntil ms) ∧
      (due ≤ Nanoseconds.ofMillis ms → ((e.runUntil ms).latch id).active = false) := by
  have hoperated := hreachable.operated
  obtain ⟨times, last, hticks, hrun, -⟩ :=
    hoperated.onTime.ticksUntil hoperated.measured hoperated.queue_nil ms
  have hlast := he.ticks hticks
  rw [hrun]
  generalize hclock : last.clock.advanceTo (Nanoseconds.ofMillis ms) = clock
  have hchore : Chore last { last with clock } := hclock ▸ .advance last _
  obtain ⟨heard, hheeding⟩ := hlast.heeding
  refine ⟨hlast.of_layout hchore.layout (hlast.agree.chore hchore)
    ⟨heard, (outlived_stable fun _ => True).chore hchore hheeding⟩
    (ends_of_aside (.chore [] hchore) (fun token hwaits => hwaits.chore hchore) hlast.ends),
    fun hpast => hlast.ends.resolve_right ?_⟩
  -- A timer that is still armed when nothing is due any more is due later.
  rintro ⟨token, hgrip, hwaits⟩
  obtain ⟨t, ht, -, rfl, -⟩ := hwaits.armed (congrArg Prod.snd hgrip)
  exact Nat.not_lt_of_le hpast (Clock.nextDue?_none hticks.last_due t ht)

theorem accept (he : EndsBy id source due e) {c : Control} (hc : c ≠ source) (pulse : Pulse)
    (time : Nat) : EndsBy id source due (e.accept c pulse time).1 := by
  obtain ⟨heard, hheeding⟩ := he.heeding
  have haside := aside_accept he.unprompted [] hc pulse time
  have htimers : KeptInTurns fun _ => TimersAgree :=
    (timersAgree_stable fun _ => True).along.toKeptInTurns
  refine he.of_layout haside.layout (@KeptInTurns.accept _ htimers [] e c pulse time he.agree)
    ⟨_, (outlived_stable fun _ => True).accept e c pulse time hheeding⟩
    (ends_of_aside haside (fun token hwaits => ?_) he.ends)
  exact @KeptInTurns.accept _ Waits.kept [] e c pulse time hwaits

theorem releaseAll (he : EndsBy id source due e) (time : Nat) :
    EndsBy id source due (e.releaseAll time) := by
  obtain ⟨heard, hheeding⟩ := he.heeding
  have haside := (he.unprompted.requests []).releaseAll e time (.refl [] e)
  have htimers : KeptByRequests fun _ => TimersAgree :=
    (timersAgree_stable fun _ => True).along.toKeptByRequests
  refine he.of_layout haside.layout (@KeptByRequests.releaseAll _ htimers [] e time he.agree)
    ⟨_, (outlived_stable fun _ => True).releaseAll e time hheeding⟩
    (ends_of_aside haside (fun token hwaits => ?_) he.ends)
  exact @KeptByRequests.releaseAll _ Waits.kept.toKeptByRequests [] e time hwaits

/-- **A call that spares the source** does not prolong the hold. -/
theorem after (he : EndsBy id source due e) (hreachable : Reachable Config.IsCompiled e)
    {call : Call} (hcall : call.Spares source) : EndsBy id source due (e.after call) := by
  cases call with
  | input c user down strength time =>
    rcases e.processInput_cases c user down strength time with ⟨pulse, -, hfed⟩ | hnot
    · rw [show e.after (.input c user down strength time) = _ from congrArg Prod.fst hfed]
      exact he.accept hcall pulse time
    · rwa [show e.after (.input c user down strength time) = e from congrArg Prod.fst hnot]
  | motion c user magnitude time =>
    rcases e.processRelative_cases c user magnitude time with ⟨pulse, -, hfed⟩ | hnot
    · rw [show e.after (.motion c user magnitude time) = _ from congrArg Prod.fst hfed]
      exact he.accept hcall pulse time
    · rwa [show e.after (.motion c user magnitude time) = e from congrArg Prod.fst hnot]
  | runUntil ms => exact (he.runUntil hreachable ms).1
  | releaseAll time => exact he.releaseAll time
  | reload config => exact hcall.elim

theorem afterAll (he : EndsBy id source due e) (hreachable : Reachable Config.IsCompiled e)
    (calls : List Call) (hcalls : ∀ call ∈ calls, call.Spares source) :
    EndsBy id source due (e.afterAll calls) ∧ Reachable Config.IsCompiled (e.afterAll calls) := by
  induction calls generalizing e with
  | nil => exact ⟨he, hreachable⟩
  | cons call rest ih =>
    have hhead := hcalls call List.mem_cons_self
    exact ih (he.after hreachable hhead) (hreachable.call hhead.admitted)
      fun call hmem => hcalls call (List.mem_cons_of_mem _ hmem)

end EndsBy

/-! ## §4 The hold as a whole -/

/-- The binding is in effect, and just one timer is there for it, in the table as on the clock: the one
that ends the hold, due then. -/
def HoldDue (id : Nat) (due : Nanoseconds) (e : Engine) : Prop :=
  (e.latch id).active = true ∧ ∃ token order,
    (∀ use, use ∈ e.timers ∧ use.binding = id ↔ use = ⟨token, id, .release⟩) ∧
    ∀ t, t ∈ e.clock.timers ∧ t.token = token ↔ t = ⟨token, due, none, order⟩

theorem HeldUntil.holdDue (h : HeldUntil id due e) : HoldDue id due e := by
  obtain ⟨token, hgrip, hwaits⟩ := h
  have htimer : (e.latch id).timer = some (token, .release) := congrArg Prod.snd hgrip
  have huse := (hwaits.agree.table token id .release).mpr htimer
  obtain ⟨t, ht, rfl, rfl, hperiod⟩ := hwaits.armed htimer
  refine ⟨congrArg Prod.fst hgrip, t.token, t.order, fun use => ?_, fun u => ?_⟩
  · constructor
    · rintro ⟨hmem, rfl⟩
      have hown := (hwaits.agree.table use.token use.binding use.kind).mp hmem
      exact hwaits.agree.eq_of_token hmem huse
        (congrArg Prod.fst (Option.some.inj (hown.symm.trans htimer)))
    · rintro rfl
      exact ⟨huse, rfl⟩
  · constructor
    · rintro ⟨hmem, htoken⟩
      obtain rfl := hwaits.agree.clock.eq_of_token hmem ht htoken
      rw [← hperiod]
    · rintro rfl
      rw [← hperiod]
      exact ⟨ht, rfl⟩

/-- **Motion extends the hold.** An event of the source puts a binding into effect that heeds it,
held or not, and the timer that ends the hold is due one rate from now, unless the binding is released
again in the course of the event.  If there are no more events of the source, the binding is out of
effect as soon as that time has passed. -/
theorem motion_extends (he : Reachable Config.IsCompiled e) (hb : e.bindings[id]? = some b)
    (hholds : e.ExtendsHold b) {user : Nat} (huser : user < userLimit) {magnitude : Float}
    (hfinite : magnitude.isFinite = true) (hmoved : (magnitude != 0) = true) (time : Nat) :
    let motion := Call.motion b.mapping.source user magnitude time
    let due := e.clock.now + Nanoseconds.ofRate b.mapping.rate
    (e.Heeds b →
      b.mapping.allows (e.board.set b.mapping.source User.first true) e.activeUser = true →
      Turn.UndrivenBy b e →
      (∀ h ∈ e.logCall [] motion, h.id = id → h.press = true) →
      HoldDue id due (e.after motion)) ∧
    (PressedLast (e.logCall [] motion) id → HoldDue id due (e.after motion) ∧
      ((b.mapping.options.add = true → b.mapping.conditions = []) →
        ∀ calls : List Call, (∀ call ∈ calls, call.Spares b.mapping.source) →
        ∀ ms, due ≤ Nanoseconds.ofMillis ms →
          ((((e.after motion).afterAll calls).runUntil ms).latch id).active = false)) := by
  intro motion due
  have hunprompted := hholds.unprompted he.operated.wired hb
  obtain ⟨cell, hmoving⟩ := hholds.moving
  have husers : (e.descriptor b.mapping.source).flags.ofUser = false := by
    rw [hmoving]
    rfl
  -- The event is a turn of the source.
  obtain ⟨pulse, hdown, hafter, hlog⟩ : ∃ pulse : Pulse, pulse.down = true ∧
      e.after motion = (e.accept b.mapping.source pulse time).1 ∧
      e.logCall [] motion = e.logAccept b.mapping.source pulse time [] := by
    refine ⟨⟨⟨user, huser⟩, magnitude != 0, magnitude.abs⟩, hmoved, ?_, ?_⟩
    · show (e.processRelative b.mapping.source user magnitude time).1 = _
      unfold processRelative
      rw [dif_pos huser, if_pos hfinite]
    · show (if h : user < userLimit then _ else _) = _
      rw [dif_pos huser, if_pos hfinite]
  rw [hafter, hlog]
  -- Before it the binding has not been pressed, and every step of the turn keeps it due one rate from now.
  have hstart : HoldsUntil id b.mapping.source due e.clock.now [] e :=
    ⟨hunprompted, he.timersAgree, rfl, fun hpressed => absurd hpressed (not_pressedLast_nil id)⟩
  have hheld := holdsUntil_accept hb hholds hdown time hstart
  refine ⟨fun hheeds hallows hstays hfree => ?_, fun hpressed => ?_⟩
  · refine (hheld.held (PressedIn.last ?_ hfree)).holdDue
    -- What heeds the event has been pressed when the walk is over, and requests press nothing back.
    let t : Turn := { engine := { e with lastTime := time }, time }
    have hheard := Turn.heard_feed cascadeRoom (t := t) (hunprompted.wired.congr rfl) hb hheeds husers
      hallows hstays hdown
    have hkept := (pressedIn_kept id).toKeptByRequests
    exact hkept.drainQueue _ time
      (hkept.commit (Turn.feed (cascadeRoom + 1) t b.mapping.source pulse).1 hheard)
  · have hheldUntil := hheld.held hpressed
    refine ⟨hheldUntil.holdDue, fun hadd calls hcalls ms hpast => ?_⟩
    have hreachable : Reachable Config.IsCompiled (e.after motion) := he.call trivial
    -- Without another event nothing presses it again, so the timer ends it.
    obtain ⟨history, htraced⟩ := hreachable.traced
    have hlate := (outlived_stable Config.IsCompiled).traced
      (fun _ => OutlivesWithin.ofInstall _ _ 0) htraced
    rw [hafter] at hreachable hlate
    have hends : EndsBy id b.mapping.source due (e.accept b.mapping.source pulse time).1 := by
      refine ⟨hheld.unprompted, hheld.agree, ⟨history, hlate⟩, fun b' hb' => ?_, .inr hheldUntil⟩
      have hlayout := (deeds_accept e b.mapping.source pulse time).layout
      obtain ⟨b'', hb'', hmapping, -⟩ := binding_congr hlayout.symm hb'
      obtain rfl := Option.some.inj (hb.symm.trans hb'')
      rw [← hmapping, descriptor_congr hlayout]
      exact ⟨husers, hadd⟩
    obtain ⟨hlater, hreached⟩ := hends.afterAll hreachable calls hcalls
    exact (hlater.runUntil hreached ms).2 hpast

/-- Motion to the right holds a button for a tenth of a second. -/
def coastingFile : ConfigFile :=
  { mappings := [{ source := "MouseRight", target := "PadX", rate := some 0.1 }] }

/-- The mouse has moved to the right. -/
def nudge (time : Nat) : Call := .motion ⟨273⟩ 0 1 time

/-- The engine when half of the hold is over. -/
def coasting : Engine := ((ofConfig coastingFile.compile).after (nudge 0)).after (.runUntil 50)

/-- Motion after half of the hold begins it anew: it lasts for a tenth of a second from then. -/
theorem motion_extends_coasting :
    Reachable Config.IsCompiled coasting ∧ coasting.clock.now = Nanoseconds.ofMillis 50 ∧
      (coasting.latch 0).active = true ∧
      HoldDue 0 (Nanoseconds.ofMillis 150) (coasting.after (nudge 50)) ∧
      (((coasting.after (nudge 50)).runUntil 150).latch 0).active = false := by
  have hstart : Reachable Config.IsCompiled (ofConfig coastingFile.compile) :=
    .start ⟨coastingFile, rfl⟩
  have hmoved : Reachable Config.IsCompiled ((ofConfig coastingFile.compile).after (nudge 0)) :=
    hstart.call trivial
  have hcoasting : Reachable Config.IsCompiled coasting := hmoved.call trivial
  have hstate : (coasting.bindings[0]?.map fun b =>
      ((b.mapping.source, b.mapping.conditions.isEmpty, Nanoseconds.ofRate b.mapping.rate,
        b.slot.isSome),
      (b.mapping.options.turbo, b.mapping.options.toggle, b.mapping.options.reset),
      ((coasting.descriptor b.mapping.source).flags.relative,
        (coasting.descriptor b.mapping.target).flags.relative,
        (coasting.descriptor b.mapping.target).cell))) =
      some ((⟨273⟩, true, Nanoseconds.ofMillis 100, true), (false, false, false),
        (true, false, .pad (.button 2))) := by
    decide +kernel
  have hheard : ((coasting.logCall [] (nudge 50)).map fun h => (h.id, h.press)) = [(0, true)] := by
    decide +kernel
  have htime : coasting.clock.now = Nanoseconds.ofMillis 50 := by decide +kernel
  have hon : coasting.disabled = false := by decide +kernel
  -- The mapping holds a button, and it is the one binding that the second event presses.
  obtain ⟨b, hb, hrest⟩ := Option.map_eq_some_iff.mp hstate
  simp only [Prod.mk.injEq] at hrest
  obtain ⟨⟨hsource, hconditions, hrate, hslot⟩, ⟨hturbo, htoggle, hreset⟩, hmoves, hrests, hcell⟩ :=
    hrest
  have hfree : b.mapping.conditions = [] := List.isEmpty_iff.mp hconditions
  have hholds : coasting.ExtendsHold b := by
    refine ⟨hmoves, hrests, fun stick clockwise => ?_, hturbo, htoggle, hreset⟩
    rw [hcell]
    nofun
  have hfinite : (1 : Float).isFinite = true := by decide +kernel
  have hextends := motion_extends hcoasting hb hholds (show 0 < userLimit by decide) hfinite
    (by decide +kernel) 50
  obtain ⟨h, rest, hlog, hh, hnone⟩ := List.map_eq_cons_iff.mp hheard
  obtain rfl := List.map_eq_nil_iff.mp hnone
  obtain ⟨hid, hpress⟩ := Prod.mk.inj hh
  rw [hsource, hrate, htime] at hextends
  -- A press puts the end off to 150 ms, and nothing more happens until then.
  refine ⟨hcoasting, htime, by decide +kernel, hextends.1 ?_ ?_ (.inl hfree) ?_, ?_⟩
  · exact ⟨by rw [hon]; rfl, by rw [Option.isNone_eq_false_iff.mpr hslot, Bool.and_false]⟩
  · unfold Mapping.allows
    rw [hfree]
    rfl
  · show ∀ h ∈ coasting.logCall [] (nudge 50), _
    rw [hlog]
    simpa using fun _ => hpress
  · refine (hextends.2 ⟨h, ?_, hpress⟩).2 (fun _ => hfree) [] nofun 150 (Nat.le_refl _)
    show (coasting.logCall [] (nudge 50)).find? _ = _
    rw [hlog]
    simp [hid]

/-- With the reset option motion holds the button too. -/
def lapsingFile : ConfigFile :=
  { mappings :=
      [{ source := "MouseRight", target := "PadX", options := ["reset"], rate := some 0.1 }] }

def lapsing : Engine := ((ofConfig lapsingFile.compile).after (nudge 0)).after (.runUntil 50)

/-- With the reset option motion during the hold brings no news and goes unheard: the hold is over at
the time that was set when it began, with half of it to come since the mouse has last moved. -/
theorem motion_lapses_reset :
    Reachable Config.IsCompiled lapsing ∧ lapsing.disabled = false ∧
      (∃ b, lapsing.bindings[0]? = some b ∧ b.mapping.source = ⟨273⟩ ∧
        (lapsing.descriptor b.mapping.source).flags.relative = true ∧
        (lapsing.descriptor b.mapping.target).flags.relative = false ∧
        (lapsing.descriptor b.mapping.target).cell = .pad (.button 2) ∧
        b.mapping.options.turbo = false ∧ b.mapping.options.toggle = false ∧
        b.mapping.conditions = [] ∧ b.slot.isSome = true ∧
        Nanoseconds.ofRate b.mapping.rate = Nanoseconds.ofMillis 100) ∧
      lapsing.clock.now = Nanoseconds.ofMillis 50 ∧
      ¬ HoldDue 0 (Nanoseconds.ofMillis 150) (lapsing.after (nudge 50)) ∧
      (((lapsing.after (nudge 50)).runUntil 100).latch 0).active = false := by
  have hstart : Reachable Config.IsCompiled (ofConfig lapsingFile.compile) :=
    .start ⟨lapsingFile, rfl⟩
  have hmoved : Reachable Config.IsCompiled ((ofConfig lapsingFile.compile).after (nudge 0)) :=
    hstart.call trivial
  have hstate : (lapsing.bindings[0]?.map fun b =>
      ((b.mapping.source, (lapsing.descriptor b.mapping.source).flags.relative,
        (lapsing.descriptor b.mapping.target).flags.relative,
        (lapsing.descriptor b.mapping.target).cell),
      (b.mapping.options.turbo, b.mapping.options.toggle),
      (b.mapping.conditions.isEmpty, b.slot.isSome, Nanoseconds.ofRate b.mapping.rate))) =
      some ((⟨273⟩, true, false, .pad (.button 2)), (false, false),
        (true, true, Nanoseconds.ofMillis 100)) := by
    decide +kernel
  have hclock : ((lapsing.after (nudge 50)).clock.timers.map Timer.due) =
      [Nanoseconds.ofMillis 100] := by
    decide +kernel
  obtain ⟨b, hb, hrest⟩ := Option.map_eq_some_iff.mp hstate
  simp only [Prod.mk.injEq, List.isEmpty_iff] at hrest
  obtain ⟨⟨hsource, hmoves, hrests, hcell⟩, ⟨hturbo, htoggle⟩, hfree, hslot, hrate⟩ := hrest
  refine ⟨hmoved.call trivial, by decide +kernel, ⟨b, hb, hsource, hmoves, hrests, hcell, hturbo,
    htoggle, hfree, hslot, hrate⟩, by decide +kernel, ?_, by decide +kernel⟩
  rintro ⟨-, token, order, -, hclocked⟩
  have hmem : Nanoseconds.ofMillis 150 ∈ (lapsing.after (nudge 50)).clock.timers.map Timer.due :=
    List.mem_map.mpr ⟨_, ((hclocked _).mpr rfl).1, rfl⟩
  rw [hclock] at hmem
  exact absurd (List.mem_singleton.mp hmem) (by decide)

end Engine

end VirtualPad
