import VirtualPad.Proofs.Frames
import VirtualPad.Proofs.Runs

/-!
# The moves of an engine

All that a turn does comes down to two kinds of thing.  A source moves, which changes the board and
starts a cascade; or one binding does something on its own, which is a `Turn.Move`.  Between two
turns there are only `Engine.Chore`s, which no mapping has a part in.

So a property of engines holds at every reachable one as soon as it is kept by the moves, by the
chores, by sources, by the timers that go off and by installing a configuration.  `Stable` collects
these conditions, and `Stable.reachable` is the induction, done once for all properties.

A move is stated together with what the engine has checked before it makes it.
-/

namespace VirtualPad

/-! ## §1 Moves and chores -/

namespace Turn

def sourceOf (t : Turn) (b : Binding) : Descriptor := t.engine.descriptor b.mapping.source

def targetOf (t : Turn) (b : Binding) : Descriptor := t.engine.descriptor b.mapping.target

/-- A pulse gets through to a binding: it is forced on it, or the binding accepts it. -/
def Reaches (t : Turn) (b : Binding) (pulse : Pulse) (forced : Bool) : Prop :=
  forced = true ∨ t.accepts b (t.sourceOf b) (t.targetOf b) pulse = true

/-- What a binding looks at before it accepts a pulse. -/
theorem accepts_iff {t : Turn} {b : Binding} {source target : Descriptor} {pulse : Pulse} :
    t.accepts b source target pulse = true ↔
      (t.engine.disabled = true → target.cell = .command .toggleDisable) ∧
      (source.flags.ofUser = true →
        b.mapping.sourceUser.covers pulse.user t.engine.activeUser = true) ∧
      (target.needsSlot = true → b.slot.isSome = true) ∧
      (if pulse.down then b.mapping.allows t.engine.board t.engine.activeUser
        else b.latch.isLatched) = true := by
  have himp : ∀ p q : Bool, (!p || q) = true ↔ (p = true → q = true) := by decide
  unfold accepts
  simp only [Bool.and_eq_true, and_assoc, himp, Bool.not_and, bne, Bool.not_not, beq_iff_eq,
    Option.not_isNone]

/-- Something that one binding does on its own. -/
inductive Move : Turn → Turn → Prop
  /-- A pulse changes the latch and nothing else. -/
  | swallow {t : Turn} {id : Nat} {b : Binding} {pulse : Pulse} {forced : Bool} {latch : Latch}
      (hb : t.engine.bindings[id]? = some b) (hreaches : t.Reaches b pulse forced)
      (hrespond : b.latch.respond b.mapping (t.sourceOf b) (t.targetOf b) pulse.down
        pulse.strength forced = (latch, none)) :
      Move t (t.mapLatch id fun _ => latch)
  /-- A pulse changes the latch, and the target is written. -/
  | act {t : Turn} {id : Nat} {b : Binding} {pulse : Pulse} {forced : Bool} {latch : Latch}
      {r : Response}
      (hb : t.engine.bindings[id]? = some b) (hreaches : t.Reaches b pulse forced)
      (hrespond : b.latch.respond b.mapping (t.sourceOf b) (t.targetOf b) pulse.down
        pulse.strength forced = (latch, some r)) :
      Move t ((t.mapLatch id fun _ => latch).perform id b.mapping (t.sourceOf b) (t.targetOf b)
        pulse.user r forced).1
  /-- The timer follows a response. -/
  | plan {t : Turn} {id : Nat} {b : Binding} (was now : Bool)
      (hb : t.engine.bindings[id]? = some b) :
      Move t (t.mapEngine fun e => e.followPlan id
        (b.mapping.timerPlan (t.sourceOf b) (t.targetOf b) t.engine.settings was now))
  /-- A binding that has ended lets go of its users. -/
  | letGo {t : Turn} {id : Nat} {b : Binding} (hb : t.engine.bindings[id]? = some b)
      (hpad : (t.targetOf b).padCell?.isSome → b.latch.active = false) :
      Move t (t.mapLatch id fun l => { l with applied := [] })
  /-- The output blinks. -/
  | blink {t : Turn} {id : Nat} {b : Binding} (hb : t.engine.bindings[id]? = some b)
      (huse : ∃ use ∈ t.engine.timers, use.binding = id ∧ use.kind = .turbo) :
      Move t (t.blink id (t.sourceOf b) (t.targetOf b)).1
  /-- Motion or adding up goes on. -/
  | goOn {t : Turn} {id : Nat} {b : Binding} (hb : t.engine.bindings[id]? = some b) :
      Move t (t.goOn id (t.targetOf b))
  /-- A rotator moves on. -/
  | turnStick {t : Turn} {id : Nat} {b : Binding} (hb : t.engine.bindings[id]? = some b) :
      Move t (t.turnStick id (t.targetOf b))
  /-- A timer is stopped. -/
  | stop {t : Turn} (id : Nat) : Move t (t.mapEngine fun e => e.stopTimer id)

end Turn

/-- Two pads hold the same contributions. -/
def Pad.SameCells (p q : Pad) : Prop :=
  p.buttons = q.buttons ∧ p.triggers = q.triggers ∧ p.sticks = q.sticks

namespace Engine

/-- What bindings look at before they accept a pulse. -/
def scene (e : Engine) : Switchboard × User × Bool := (e.board, e.activeUser, e.disabled)

theorem board_of_scene {e e' : Engine} (h : e'.scene = e.scene) : e'.board = e.board :=
  congrArg Prod.fst h

/-- The engine after its clock was asked to cancel every timer of the table. -/
def cancelTimers (e : Engine) : Engine :=
  e.timers.foldl (fun e t => e.ask (.cancel t.token)) e

/-- The engine with the mappings switched off. -/
def switchOff (e : Engine) : Engine := { e with disabled := true }

/-- Something that happens between turns and has no mapping's part in it. -/
inductive Chore : Engine → Engine → Prop
  /-- The host and the readers are told, and requests come and go. -/
  | note (e : Engine) (queue : List Request) (remainder : MotionRemainder Float) (lastTime : Nat)
      (snapshots : Array Snapshot) (events : Array HostEvent) :
      Chore e { e with
        queue, remainder, lastTime, journal := { e.journal with snapshots, events } }
  /-- The mappings are switched on again. -/
  | enable (e : Engine) : Chore e { e with disabled := false }
  /-- A pad is committed, connected or disconnected. -/
  | label {e : Engine} (user : User) (pad : Pad) (hcells : pad.SameCells (e.pads.pad user)) :
      Chore e { e with pads := e.pads.set user pad }
  /-- Another user becomes the active one. -/
  | activate {e : Engine} (user : User) (huser : user < e.userCount) :
      Chore e { e with activeUser := user }
  /-- A binding remembers or forgets the user to go back to. -/
  | remember (e : Engine) (id : Nat) (user : Option User) :
      Chore e (e.mapLatch id fun l => { l with restoreUser := user })
  /-- Time goes by. -/
  | advance (e : Engine) (time : Nanoseconds) :
      Chore e { e with clock := e.clock.advanceTo time }

end Engine

/-! ## §2 Responses -/

/-- The part of a latch that says whether the binding is in effect and why. -/
def Latch.bits (l : Latch) : Bool × Bool × Bool := (l.rawDown, l.active, l.toggled)

/-- A response tells whether the binding was in effect and whether it is now. -/
theorem Latch.respond_some {l latch : Latch} {m : Mapping} {source target : Descriptor}
    {down forced : Bool} {strength : Float} {r : Response}
    (h : l.respond m source target down strength forced = (latch, some r)) :
    r.was = l.active ∧ r.now = latch.active := by
  unfold Latch.respond at h
  dsimp only at h
  split at h
  · obtain ⟨rfl, rfl⟩ : _ ∧ _ := by simpa using h
    exact ⟨rfl, rfl⟩
  · split at h
    · simp at h
    · split at h
      · simp at h
      · obtain ⟨rfl, rfl⟩ : _ ∧ _ := by simpa using h
        exact ⟨rfl, rfl⟩

/-- A pulse changes nothing of a latch but the state of the source and of the binding: not its timer,
nor its users. -/
theorem Latch.respond_frame {l latch : Latch} {m : Mapping} {source target : Descriptor}
    {down forced : Bool} {strength : Float} {response : Option Response}
    (h : l.respond m source target down strength forced = (latch, response)) :
    ∃ rawDown active toggled lit, latch = { l with rawDown, active, toggled, lit } := by
  unfold Latch.respond at h
  dsimp only at h
  split at h
  · exact ⟨_, _, _, _, (congrArg Prod.fst h).symm⟩
  · split at h
    · exact ⟨_, _, _, _, (congrArg Prod.fst h).symm⟩
    · split at h
      · exact ⟨_, _, _, _, (congrArg Prod.fst h).symm⟩
      · exact ⟨_, _, _, _, (congrArg Prod.fst h).symm⟩

/-! ## §3 Turns -/

namespace Turn

theorem Move.layout {t t' : Turn} (h : Move t t') : t'.engine.layout = t.engine.layout := by
  cases h with
  | swallow hb hreaches hrespond => exact Engine.layout_mapLatch _ _ _
  | @act id b pulse forced latch r hb hreaches hrespond =>
    obtain ⟨change, pads, outputs, hengine, hcount, -⟩ := perform_frame
      (t.mapLatch id fun _ => latch) id b.mapping (t.sourceOf b) (t.targetOf b) pulse.user r forced
    rw [hengine, Engine.layout_write]
    · rw [Engine.layout_mapLatch]
      exact Engine.layout_mapLatch _ _ _
    · exact hcount
  | plan was now hb => exact Engine.layout_of_untimed (Engine.untimed_followPlan _ _ _)
  | letGo hb hpad => exact Engine.layout_mapLatch _ _ _
  | @blink id b hb huse =>
    obtain ⟨pads, outputs, hengine, hcount⟩ := blink_frame t id (t.sourceOf b) (t.targetOf b)
    rw [hengine, Engine.layout_write]
    · exact Engine.layout_mapLatch _ _ _
    · exact hcount
  | @goOn id b hb =>
    obtain ⟨pads, hengine, hcount⟩ := goOn_frame t id (t.targetOf b)
    rw [hengine]
    exact Engine.layout_write _ _ hcount
  | @turnStick id b hb =>
    obtain ⟨pads, hengine, hcount⟩ := turnStick_frame t id (t.targetOf b)
    rw [hengine]
    exact Engine.layout_write _ _ hcount
  | stop id => exact Engine.layout_of_untimed (Engine.untimed_stopTimer _ _)

/-- The first step of what a response brings about: the latch changes, and the target is
written. -/
def firstStep (t : Turn) (id : Nat) (b : Binding) (pulse : Pulse) (forced : Bool) (latch : Latch) :
    Option Response → Turn
  | none => t.mapLatch id fun _ => latch
  | some r => ((t.mapLatch id fun _ => latch).perform id b.mapping (t.sourceOf b) (t.targetOf b)
      pulse.user r forced).1

/-- The pulse of a variable that the first step has changed. -/
def firstEcho (t : Turn) (id : Nat) (b : Binding) (pulse : Pulse) (forced : Bool) (latch : Latch) :
    Option Response → Option Pulse
  | none => none
  | some r => ((t.mapLatch id fun _ => latch).perform id b.mapping (t.sourceOf b) (t.targetOf b)
      pulse.user r forced).2

theorem Move.firstStep {t : Turn} {id : Nat} {b : Binding} {pulse : Pulse} {forced : Bool}
    {latch : Latch} {response : Option Response} (hb : t.engine.bindings[id]? = some b)
    (hreaches : t.Reaches b pulse forced)
    (hrespond : b.latch.respond b.mapping (t.sourceOf b) (t.targetOf b) pulse.down pulse.strength
      forced = (latch, response)) :
    Move t (t.firstStep id b pulse forced latch response) := by
  cases response with
  | none => exact .swallow hb hreaches hrespond
  | some r => exact .act hb hreaches hrespond

/-- The first step of an answer changes no latch but that of its binding. -/
theorem latch_firstStep_of_ne {t : Turn} {id : Nat} (b : Binding) (pulse : Pulse) (forced : Bool)
    (latch : Latch) (response : Option Response) {other : Nat} (hother : id ≠ other) :
    (t.firstStep id b pulse forced latch response).engine.latch other = t.engine.latch other := by
  have hset : ∀ (e : Engine) change, (e.mapLatch id change).latch other = e.latch other :=
    fun e change => (Engine.latch_mapLatch _ _ _ _).trans (if_neg fun h => hother h.1)
  cases response with
  | none => exact hset _ _
  | some r =>
    obtain ⟨change, pads, outputs, hengine, -⟩ := (t.mapLatch id fun _ => latch).perform_frame id
      b.mapping (t.sourceOf b) (t.targetOf b) pulse.user r forced
    show ((t.mapLatch id fun _ => latch).perform id b.mapping (t.sourceOf b) (t.targetOf b)
      pulse.user r forced).1.engine.latch other = _
    rw [hengine]
    exact (hset _ change).trans (hset _ _)

theorem sourceOf_congr {t t' : Turn} (hlayout : t'.engine.layout = t.engine.layout)
    {b b' : Binding} (hmapping : b'.mapping = b.mapping) : t'.sourceOf b' = t.sourceOf b := by
  unfold sourceOf
  rw [hmapping, Engine.descriptor_congr hlayout]

theorem targetOf_congr {t t' : Turn} (hlayout : t'.engine.layout = t.engine.layout)
    {b b' : Binding} (hmapping : b'.mapping = b.mapping) : t'.targetOf b' = t.targetOf b := by
  unfold targetOf
  rw [hmapping, Engine.descriptor_congr hlayout]

/-- Only a variable echoes what is written to it, and letting go of one is never echoed as a
press. -/
theorem writeTarget_echo (t : Turn) {id : Nat} {source target : Descriptor} {down : Bool}
    {strength : Float} {echo : Pulse}
    (h : (t.writeTarget id source target down strength).2 = some echo) :
    target.cell = .output .var ∧ (down = false → echo.down = false) := by
  unfold writeTarget at h
  cases hb : t.engine.bindings[id]? with
  | none =>
    rw [hb] at h
    contradiction
  | some b =>
    rw [hb] at h
    dsimp only at h
    split at h
    · contradiction
    · contradiction
    · contradiction
    · rename_i kind slot hcell hslot
      unfold writeOutput at h
      split at h
      · contradiction
      · rename_i before hbefore
        cases kind with
        | keyboard => simp at h
        | mouseButton => simp at h
        | customKey => simp at h
        | var =>
          refine ⟨hcell, fun hdown => ?_⟩
          simp only [hdown] at h
          split at h
          · rename_i hchanged
            obtain rfl := Option.some.inj h
            show ButtonCell.pressed _ = false
            cases hafter : ButtonCell.pressed
              (ButtonCell.set before slot false b.mapping.options.replace) with
            | false => rfl
            | true =>
              -- It was pressed before, so nothing has changed.
              have hbefore := ButtonCell.pressed_of_set_up hafter
              simp [ButtonCell.differs, hafter, hbefore] at hchanged
          · contradiction
    · contradiction

/-- Only a variable echoes what a response asks for, and the end of a binding is never echoed as a
press. -/
theorem perform_echo (t : Turn) {id : Nat} {m : Mapping} {source target : Descriptor}
    {user : User} {r : Response} {forced : Bool} {echo : Pulse}
    (h : (t.perform id m source target user r forced).2 = some echo) :
    target.cell = .output .var ∧ (r.now = false → echo.down = false) := by
  unfold perform at h
  dsimp only at h
  split at h
  · contradiction
  · split at h
    · obtain ⟨hvar, hup⟩ := writeTarget_echo _ h
      refine ⟨hvar, fun hnow => hup ?_⟩
      rw [hnow]
      rfl
    · contradiction

/-- After the first step the latch of the binding is as the pulse has left it, apart from what writing
leaves in it, and the other latches are as before. -/
theorem core_firstStep {t : Turn} {id : Nat} {b : Binding} (hb : t.engine.bindings[id]? = some b)
    (pulse : Pulse) (forced : Bool) (latch : Latch) (response : Option Response) (i : Nat) :
    ((t.firstStep id b pulse forced latch response).engine.latch i).core =
      if id = i then latch.core else (t.engine.latch i).core := by
  have hin : id < t.engine.bindings.size := (Array.getElem?_eq_some_iff.mp hb).1
  have hset : ∀ change : Latch → Latch, (change latch).core = latch.core →
      (((t.engine.mapLatch id fun _ => latch).mapLatch id change).latch i).core =
        if id = i then latch.core else (t.engine.latch i).core := by
    intro change hchange
    rw [Engine.mapLatch_mapLatch, Engine.latch_mapLatch]
    by_cases hsame : id = i
    · rw [if_pos ⟨hsame, hsame ▸ hin⟩, if_pos hsame]
      exact hchange
    · rw [if_neg fun h => hsame h.1, if_neg hsame]
  cases response with
  | none =>
    have hplain := hset (fun l => l) rfl
    rw [Engine.mapLatch_id] at hplain
    exact hplain
  | some r =>
    obtain ⟨change, pads, outputs, hengine, -, hcore, -⟩ := perform_frame
      (t.mapLatch id fun _ => latch) id b.mapping (t.sourceOf b) (t.targetOf b) pulse.user r forced
    show (((t.mapLatch id fun _ => latch).perform id b.mapping (t.sourceOf b) (t.targetOf b)
      pulse.user r forced).1.engine.latch i).core = _
    rw [hengine]
    exact hset change (hcore latch)

/-- Nothing is new about which bindings are in effect, nor about what they look at. -/
structure Quiet (t t' : Turn) : Prop where
  scene : t'.engine.scene = t.engine.scene
  bits (i : Nat) : (t'.engine.latch i).bits = (t.engine.latch i).bits

/-- What becomes of timers is quiet. -/
theorem quiet_of_untimed {t t' : Turn} (h : t'.engine.untimed = t.engine.untimed) : Quiet t t' := by
  have hscene : t'.engine.untimed.scene = t.engine.untimed.scene := by rw [h]
  refine ⟨hscene, fun i => ?_⟩
  have hlatch : (t'.engine.latch i).untimed.bits = (t.engine.latch i).untimed.bits := by
    rw [Engine.latch_of_untimed h]
  exact hlatch

theorem quiet_letGo (t : Turn) (id : Nat) :
    Quiet t (t.mapLatch id fun l => { l with applied := [] }) := by
  refine ⟨rfl, ?_⟩
  rw [engine_mapLatch]
  exact Engine.latch_mapLatch_congr Latch.bits rfl

/-- What is left to do after a response is quiet. -/
theorem quiet_settle (t : Turn) (id : Nat) (m : Mapping) (source target : Descriptor)
    (r : Response) : Quiet t (t.settle id m source target r) := by
  have hplan : Quiet t (t.mapEngine fun e => e.followPlan id
      (m.timerPlan source target t.engine.settings r.was r.now)) :=
    quiet_of_untimed (Engine.untimed_followPlan _ _ _)
  unfold settle
  dsimp only
  split
  · exact hplan
  · have hfree := quiet_letGo (t.mapEngine fun e => e.followPlan id
      (m.timerPlan source target t.engine.settings r.was r.now)) id
    exact ⟨hfree.scene.trans hplan.scene, fun i => (hfree.bits i).trans (hplan.bits i)⟩

theorem quiet_blink (t : Turn) (id : Nat) (source target : Descriptor) :
    Quiet t (t.blink id source target).1 := by
  obtain ⟨pads, outputs, hengine, -⟩ := blink_frame t id source target
  have hlit : ∀ i, ((t.engine.mapLatch id fun l => { l with lit := !l.lit }).latch i).bits =
      (t.engine.latch i).bits := Engine.latch_mapLatch_congr Latch.bits rfl
  constructor
  · rw [hengine]
    rfl
  · rw [hengine]
    exact hlit

theorem quiet_goOn (t : Turn) (id : Nat) (target : Descriptor) : Quiet t (t.goOn id target) := by
  obtain ⟨pads, hengine, -⟩ := goOn_frame t id target
  constructor
  · rw [hengine]
    rfl
  · rw [hengine]
    exact fun _ => rfl

theorem quiet_turnStick (t : Turn) (id : Nat) (target : Descriptor) :
    Quiet t (t.turnStick id target) := by
  obtain ⟨pads, hengine, -⟩ := turnStick_frame t id target
  constructor
  · rw [hengine]
    rfl
  · rw [hengine]
    exact fun _ => rfl

/-- A pulse that an act echoes keeps a property of the engine. -/
def EchoKeeps (P : Engine → Prop) (onVar : Listener) (t : Turn) (id : Nat) (b : Binding)
    (pulse : Pulse) (forced : Bool) (latch : Latch) (r : Response) : Prop :=
  ∀ acted echo, (t.mapLatch id fun _ => latch).perform id b.mapping (t.sourceOf b) (t.targetOf b)
    pulse.user r forced = (acted, some echo) → P acted.engine →
    P (onVar acted b.mapping.target echo).1.engine

section

variable {P : Engine → Prop}
  (hquiet : ∀ {t t' : Turn}, Move t t' → Quiet t t' → P t.engine → P t'.engine)
  {onVar : Listener}

include hquiet

theorem settle_keeps {t : Turn} {id : Nat} {b : Binding} {r : Response}
    (hb : t.engine.bindings[id]? = some b)
    (hpad : (t.targetOf b).padCell?.isSome → b.latch.active = r.now) (ht : P t.engine) :
    P (t.settle id b.mapping (t.sourceOf b) (t.targetOf b) r).engine := by
  have hplan : Move t _ := .plan r.was r.now hb
  have huntimed := Engine.untimed_followPlan t.engine id
    (b.mapping.timerPlan (t.sourceOf b) (t.targetOf b) t.engine.settings r.was r.now)
  have hafter := hquiet hplan (quiet_of_untimed huntimed) ht
  unfold settle
  dsimp only
  split
  · exact hafter
  · rename_i hnow
    obtain ⟨b', hb', hmapping, -⟩ := Engine.binding_congr hplan.layout hb
    refine hquiet (.letGo hb' ?_) (quiet_letGo _ id) hafter
    intro hcell
    have hactive : b'.latch.active = b.latch.active := by
      have hlatch := Engine.latch_of_untimed huntimed id
      rw [Engine.latch_of_getElem? hb] at hlatch
      rw [← Engine.latch_of_getElem? hb']
      have hsame := congrArg Latch.active hlatch
      exact hsame
    rw [targetOf_congr hplan.layout hmapping] at hcell
    rw [hactive, hpad hcell]
    simpa using hnow

/-- Carrying a response out keeps what the quiet moves keep, once it holds after the first step and
what that echoes. -/
theorem carryOut_keeps
    (hlayout : ∀ t c pulse, (onVar t c pulse).1.engine.layout = t.engine.layout)
    {t : Turn} {id : Nat} {b : Binding} {pulse : Pulse} {forced : Bool} {latch : Latch}
    {response : Option Response} (hb : t.engine.bindings[id]? = some b)
    (hreaches : t.Reaches b pulse forced)
    (hrespond : b.latch.respond b.mapping (t.sourceOf b) (t.targetOf b) pulse.down pulse.strength
      forced = (latch, response))
    (hrelay : P (relay onVar b.mapping.target (t.firstStep id b pulse forced latch response)
      (t.firstEcho id b pulse forced latch response)).engine) :
    P ((t.mapLatch id fun _ => latch).carryOut onVar id b.mapping (t.sourceOf b) (t.targetOf b)
      pulse.user forced response).engine := by
  cases response with
  | none => exact hrelay
  | some r =>
    have hcore := (core_firstStep hb pulse forced latch (some r) id).trans (if_pos rfl)
    have hacted := (Move.act hb hreaches hrespond).layout
    unfold firstStep firstEcho at hrelay
    unfold firstStep at hcore
    dsimp only at hrelay hcore
    unfold carryOut
    dsimp only
    cases hperform : (t.mapLatch id fun _ => latch).perform id b.mapping (t.sourceOf b)
      (t.targetOf b) pulse.user r forced with
    | mk acted echo =>
    rw [hperform] at hcore hrelay hacted
    dsimp only at hrelay ⊢
    -- What is left to do is done after the cascade below the binding.
    have hsame : (relay onVar b.mapping.target acted echo).engine.layout = t.engine.layout := by
      cases echo with
      | none => exact hacted
      | some pulse => exact (hlayout acted b.mapping.target pulse).trans hacted
    obtain ⟨b', hb', hmapping, -⟩ := Engine.binding_congr hsame hb
    rw [← sourceOf_congr hsame hmapping, ← targetOf_congr hsame hmapping, ← hmapping]
    rw [← hmapping] at hb' hrelay
    refine settle_keeps hquiet hb' ?_ hrelay
    intro hcell
    rw [hmapping, targetOf_congr hsame hmapping] at hcell
    have hsilent : echo = none := by
      cases echo with
      | none => rfl
      | some pulse =>
        obtain ⟨hvar, -⟩ := perform_echo _ (congrArg Prod.snd hperform)
        simp [Descriptor.padCell?, hvar] at hcell
    subst hsilent
    have hactive : b'.latch.core.active = latch.core.active := by
      rw [← Engine.latch_of_getElem? hb']
      exact congrArg Latch.active hcore
    exact hactive.trans (Latch.respond_some hrespond).2.symm

theorem runBinding_keeps_of_relay
    (hlayout : ∀ t c pulse, (onVar t c pulse).1.engine.layout = t.engine.layout)
    {t : Turn} {id : Nat} {b : Binding} {pulse : Pulse} {forced : Bool}
    (hb : t.engine.bindings[id]? = some b) (hreaches : t.Reaches b pulse forced)
    (hrelay : ∀ latch response, b.latch.respond b.mapping (t.sourceOf b) (t.targetOf b) pulse.down
      pulse.strength forced = (latch, response) →
      P (relay onVar b.mapping.target (t.firstStep id b pulse forced latch response)
        (t.firstEcho id b pulse forced latch response)).engine) :
    P (t.runBinding onVar id pulse forced).1.engine := by
  unfold runBinding
  rw [hb]
  dsimp only
  rw [if_neg]
  · exact carryOut_keeps hquiet hlayout hb hreaches rfl (hrelay _ _ rfl)
  · rcases hreaches with rfl | haccepts
    · simp
    · simp only [sourceOf, targetOf] at haccepts
      simp [haccepts]

/-- Running a binding that a pulse gets through to keeps what the quiet moves keep, once it holds
after the first step, if an echo keeps it too. -/
theorem runBinding_keeps_of_echo
    (hlayout : ∀ t c pulse, (onVar t c pulse).1.engine.layout = t.engine.layout)
    {t : Turn} {id : Nat} {b : Binding} {pulse : Pulse} {forced : Bool}
    (hb : t.engine.bindings[id]? = some b) (hreaches : t.Reaches b pulse forced)
    (hfirst : ∀ latch response, b.latch.respond b.mapping (t.sourceOf b) (t.targetOf b) pulse.down
      pulse.strength forced = (latch, response) →
      P (t.firstStep id b pulse forced latch response).engine)
    (hecho : ∀ latch r, b.latch.respond b.mapping (t.sourceOf b) (t.targetOf b) pulse.down
      pulse.strength forced = (latch, some r) → EchoKeeps P onVar t id b pulse forced latch r) :
    P (t.runBinding onVar id pulse forced).1.engine := by
  refine runBinding_keeps_of_relay hquiet hlayout hb hreaches fun latch response hrespond => ?_
  have hafter := hfirst latch response hrespond
  cases response with
  | none => exact hafter
  | some r =>
    cases hecho' : t.firstEcho id b pulse forced latch (some r) with
    | none => exact hafter
    | some echo => exact hecho latch r hrespond _ echo (Prod.ext rfl hecho') hafter

end

/-- A pulse that does not get through to a binding changes nothing. -/
theorem runBinding_of_not_reaches {t : Turn} (onVar : Listener) {id : Nat} {pulse : Pulse}
    {forced : Bool} (h : ∀ b, t.engine.bindings[id]? = some b → ¬ t.Reaches b pulse forced) :
    (t.runBinding onVar id pulse forced).1 = t := by
  unfold runBinding
  cases hb : t.engine.bindings[id]? with
  | none => rfl
  | some b =>
    have hrefused := h b hb
    dsimp only
    rw [if_pos]
    unfold Reaches at hrefused
    simp only [sourceOf, targetOf, not_or, Bool.not_eq_true] at hrefused
    simp [hrefused.1, hrefused.2]

/-- A listener keeps a property of the engine, and the layout. -/
structure Keeps (P : Engine → Prop) (onVar : Listener) : Prop where
  layout (t : Turn) (c : Control) (pulse : Pulse) :
    (onVar t c pulse).1.engine.layout = t.engine.layout
  keeps (t : Turn) (c : Control) (pulse : Pulse) :
    P t.engine → P (onVar t c pulse).1.engine

section

variable {P : Engine → Prop} (hmove : ∀ {t t' : Turn}, Move t t' → P t.engine → P t'.engine)
  {onVar : Listener}

include hmove

/-- Running a binding that a pulse gets through to keeps what the moves and the sources below it
keep, once it holds after the first step. -/
theorem runBinding_keeps_of_firstStep (hvar : Keeps P onVar) {t : Turn} {id : Nat} {b : Binding}
    {pulse : Pulse} {forced : Bool} (hb : t.engine.bindings[id]? = some b)
    (hreaches : t.Reaches b pulse forced)
    (hfirst : ∀ latch response, b.latch.respond b.mapping (t.sourceOf b) (t.targetOf b) pulse.down
      pulse.strength forced = (latch, response) →
      P (t.firstStep id b pulse forced latch response).engine) :
    P (t.runBinding onVar id pulse forced).1.engine :=
  runBinding_keeps_of_echo (fun h _ ht => hmove h ht) hvar.layout hb hreaches hfirst
    fun _ _ _ acted echo _ hacted => hvar.keeps acted b.mapping.target echo hacted

/-- Running a binding keeps what the moves and the sources below it keep. -/
theorem runBinding_keeps (hvar : Keeps P onVar) (t : Turn) (id : Nat) (pulse : Pulse)
    (forced : Bool) (ht : P t.engine) : P (t.runBinding onVar id pulse forced).1.engine := by
  by_cases h : ∃ b, t.engine.bindings[id]? = some b ∧ t.Reaches b pulse forced
  · obtain ⟨b, hb, hreaches⟩ := h
    exact runBinding_keeps_of_firstStep hmove hvar hb hreaches fun latch response hrespond =>
      hmove (Move.firstStep hb hreaches hrespond) ht
  · rw [runBinding_of_not_reaches onVar fun b hb hreaches => h ⟨b, hb, hreaches⟩]
    exact ht

theorem release_keeps (hvar : Keeps P onVar) (t : Turn) (id : Nat) (ht : P t.engine) :
    P (t.release onVar id).engine :=
  runBinding_keeps hmove hvar t id _ true ht

theorem review_keeps (hvar : Keeps P onVar) (t : Turn) (id : Nat) (ht : P t.engine) :
    P (t.review onVar id).engine := by
  unfold review
  split
  · exact ht
  · split
    · exact release_keeps hmove hvar t id ht
    · exact ht

omit hmove in
theorem followPair_keeps (hvar : Keeps P onVar) (pulse : Pulse) (t : Turn) (pair : Control)
    (ht : P t.engine) : P (followPair onVar pulse t pair).1.engine := by
  unfold followPair
  split
  · exact ht
  · split
    · exact hvar.keeps t pair _ ht
    · exact ht

omit hmove in
theorem foldl_keeps {α : Type} (run : Turn → α → Turn)
    (hrun : ∀ t item, P t.engine → P (run t item).engine) (t : Turn) (items : List α)
    (ht : P t.engine) : P (items.foldl run t).engine := by
  induction items generalizing t with
  | nil => exact ht
  | cons item rest ih => exact ih _ (hrun t item ht)

end

/-- What a sweep leaves behind, whatever the answers were. -/
theorem sweep_fst {α : Type} (run : Turn → α → Turn × Bool) (t : Turn) (items : List α) :
    (sweep run t items).1 = items.foldl (fun t item => (run t item).1) t := by
  suffices h : ∀ acc : Turn × Bool, (items.foldl (fun acc item =>
      ((run acc.1 item).1, acc.2 || (run acc.1 item).2)) acc).1 =
      items.foldl (fun t item => (run t item).1) acc.1 from h (t, false)
  induction items with
  | nil => exact fun _ => rfl
  | cons item rest ih => exact fun acc => ih _

/-- A sweep keeps what its items keep.  If the answer was no, all of the items have said no. -/
theorem sweep_keeps {α : Type} {run : Turn → α → Turn × Bool} {P : Turn → Prop} {Q : Prop}
    {items : List α} (hrun : ∀ t, P t → ∀ item ∈ items, (Q → (run t item).2 = false) →
      P (run t item).1) {t : Turn} (ht : P t) (hpassed : Q → (sweep run t items).2 = false) :
    P (sweep run t items).1 := by
  let next := fun (acc : Turn × Bool) (item : α) => ((run acc.1 item).1, acc.2 || (run acc.1 item).2)
  have hbefore : ∀ (items : List α) (acc : Turn × Bool), (items.foldl next acc).2 = false →
      acc.2 = false := by
    intro items
    induction items with
    | nil => exact fun _ h => h
    | cons item rest ih => exact fun acc h => (Bool.or_eq_false_iff.mp (ih (next acc item) h)).1
  suffices h : ∀ acc : Turn × Bool, P acc.1 → (Q → (items.foldl next acc).2 = false) →
      P (items.foldl next acc).1 from h (t, false) ht hpassed
  clear hpassed
  induction items with
  | nil => exact fun _ hacc _ => hacc
  | cons item rest ih =>
    intro acc hacc hpassed
    refine ih (fun t ht item hitem => hrun t ht item (List.mem_cons_of_mem _ hitem)) _ ?_ hpassed
    exact hrun acc.1 hacc item List.mem_cons_self fun hQ =>
      (Bool.or_eq_false_iff.mp (hbefore rest (next acc item) (hpassed hQ))).2

/-- What a source that moves does, with room for it: the board changes, the mappings run, the pairs
follow, and the watchers are reviewed if the state is new. -/
theorem feed_succ (room : Nat) (t : Turn) (c : Control) (pulse : Pulse) {line : Line}
    (hline : t.engine.board.line? c = some line) :
    (feed (room + 1) t c pulse).1 =
      let pulse := { pulse with user := t.stateUser c pulse.user }
      let marked := t.mark c pulse.user pulse.down
      let run := line.chain.foldl (fun t id => (t.runBinding (feed room) id pulse false).1) marked
      let followed := line.pairs.foldl (fun t pair => (followPair (feed room) pulse t pair).1) run
      if line.moves pulse.user pulse.down then line.watchers.foldl (review (feed room)) followed
      else followed := by
  unfold feed
  simp only [hline, sweep_fst]

theorem feed_none (room : Nat) (t : Turn) (c : Control) (pulse : Pulse)
    (hline : t.engine.board.line? c = none) : (feed room t c pulse).1 = t := by
  cases room with
  | zero => rfl
  | succ room =>
    unfold feed
    simp only [hline]

/-- A source that moves keeps what the moves and the sources below it keep, provided that a change
of the board does. -/
theorem feed_succ_keeps {P : Engine → Prop}
    (hmove : ∀ {t t' : Turn}, Move t t' → P t.engine → P t'.engine)
    (hmark : ∀ {t : Turn} {c : Control} {line : Line} (user : User) (down : Bool),
      t.engine.board.line? c = some line → P t.engine → P (t.mark c user down).engine)
    {room : Nat} (hbelow : Keeps P (feed room)) (t : Turn) (c : Control) (pulse : Pulse)
    (ht : P t.engine) : P (feed (room + 1) t c pulse).1.engine := by
  cases hline : t.engine.board.line? c with
  | none =>
    rw [feed_none _ t c pulse hline]
    exact ht
  | some line =>
    rw [feed_succ room t c pulse hline]
    dsimp only
    have hmarked := hmark (t.stateUser c pulse.user) pulse.down hline ht
    have hrun := foldl_keeps (P := P) (fun t' id => (t'.runBinding (feed room) id
        { pulse with user := t.stateUser c pulse.user } false).1)
      (fun t' id ht' => runBinding_keeps hmove hbelow t' id _ false ht') _ line.chain hmarked
    have hfollowed := foldl_keeps (P := P) (fun t' pair => (followPair (feed room)
        { pulse with user := t.stateUser c pulse.user } t' pair).1)
      (fun t' pair ht' => followPair_keeps hbelow _ t' pair ht') _ line.pairs hrun
    split
    · exact foldl_keeps _ (fun t' id ht' => review_keeps hmove hbelow t' id ht') _ line.watchers
        hfollowed
    · exact hfollowed

theorem feed_layout (room : Nat) (t : Turn) (c : Control) (pulse : Pulse) :
    (feed room t c pulse).1.engine.layout = t.engine.layout := by
  have hkeeps : ∀ layout, Keeps (fun e => e.layout = layout) (feed room) := by
    induction room with
    | zero => exact fun _ => ⟨fun _ _ _ => rfl, fun _ _ _ ht => ht⟩
    | succ room ih =>
      have hstep : ∀ layout (t : Turn) (c : Control) (pulse : Pulse),
          t.engine.layout = layout → (feed (room + 1) t c pulse).1.engine.layout = layout :=
        fun layout t c pulse ht => feed_succ_keeps (P := fun e => e.layout = layout)
          (fun h ht => h.layout.trans ht)
          (fun user down _ ht => (Engine.layout_setBoard _ _ user down).trans ht) (ih layout) t c
          pulse ht
      exact fun layout => ⟨fun t c pulse => hstep _ t c pulse rfl, hstep layout⟩
  exact (hkeeps t.engine.layout).keeps t c pulse rfl

/-- A source that moves keeps what the moves keep, provided that a change of the board does. -/
theorem feed_keeps {P : Engine → Prop}
    (hmove : ∀ {t t' : Turn}, Move t t' → P t.engine → P t'.engine)
    (hmark : ∀ {t : Turn} {c : Control} {line : Line} (user : User) (down : Bool),
      t.engine.board.line? c = some line → P t.engine → P (t.mark c user down).engine)
    (room : Nat) : Keeps P (feed room) := by
  induction room with
  | zero => exact ⟨fun _ _ _ => rfl, fun _ _ _ ht => ht⟩
  | succ room ih => exact ⟨feed_layout (room + 1), feed_succ_keeps hmove hmark ih⟩

end Turn

end VirtualPad
