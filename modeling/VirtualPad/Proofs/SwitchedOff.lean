import VirtualPad.Proofs.ForcedRequests
import VirtualPad.Proofs.Neutral

/-!
# Switched off

Switching the mappings off releases everything, and what is at rest then stays so until they are
switched on again.  Only the bindings that switch are at work meanwhile.  They write to no target, so
whatever they hear of, nobody outside can tell: all that comes of it is another request to switch.
-/

namespace VirtualPad

/-- What is idle is idle after a forced release, and there is nothing to do about it. -/
theorem Latch.Idle.respond_forced {l latch : Latch} {m : Mapping} {source target : Descriptor}
    {down : Bool} {strength : Float} {response : Option Response} (hl : l.Idle)
    (h : l.respond m source target down strength true = (latch, response)) :
    latch.Idle ∧ ∀ r, response = some r → r.was = false ∧ r.now = false ∧ r.emits = false := by
  have hwanted : l.wanted m down true = false := by
    unfold wanted switched
    cases m.options.toggle <;> simp
  have hsettled : m.isSettled source target true l.active false = true := by
    simp [Mapping.isSettled, hl.active]
  unfold respond at h
  dsimp only at h
  split at h
  · obtain ⟨rfl, rfl⟩ := Prod.mk.inj h
    exact ⟨⟨rfl, rfl, hl.timer⟩, fun r hr => Option.some.inj hr ▸ ⟨hl.active, rfl, rfl⟩⟩
  · simp only [hwanted, hsettled, Bool.not_true, Bool.and_false, Bool.false_eq_true, if_false,
      if_true] at h
    obtain ⟨rfl, rfl⟩ := Prod.mk.inj h
    exact ⟨⟨hl.active, rfl, hl.timer⟩, fun r hr => by contradiction⟩

namespace Engine

/-- The binding switches the mappings on and off. -/
def IsSwitch (e : Engine) (id : Nat) : Prop :=
  ∃ b, e.bindings[id]? = some b ∧ (e.descriptor b.mapping.target).cell = .command .toggleDisable

theorem isSwitch_congr {e e' : Engine} (hlayout : e'.layout = e.layout) (id : Nat) :
    e'.IsSwitch id ↔ e.IsSwitch id := by
  unfold IsSwitch
  simp only [descriptor_congr hlayout]
  exact exists_binding_congr hlayout
    (fun m => (e.descriptor m.target).cell = .command .toggleDisable) id

/-- Nothing goes on, except for the bindings that switch. -/
structure Dormant (e : Engine) : Prop where
  latches (id : Nat) : ¬ e.IsSwitch id → (e.latch id).Idle
  outputs (c : Control) (cell : ButtonCell) : e.outputs[c]? = some cell → cell.pressed = false
  pads (user : User) : user < e.userCount → (e.pads.pad user).AtRest

/-- What a turn shares with the world outside, and what decides about it. -/
def outside (e : Engine) : PadBank × Std.TreeMap Control ButtonCell × Array Snapshot ×
    Array HostEvent × List Request × Bool :=
  (e.pads, e.outputs, e.journal.snapshots, e.journal.events, e.queue, e.disabled)

end Engine

namespace Turn

/-! ## §1 What cannot be noticed -/

/-- From the first turn to the second nothing has happened that can be noticed: what is idle stays
idle, if it is no switch, and only switching is requested. -/
structure Unnoticed (t t' : Turn) : Prop where
  layout : t'.engine.layout = t.engine.layout
  idle (id : Nat) : ¬ t.engine.IsSwitch id → (t.engine.latch id).Idle → (t'.engine.latch id).Idle
  outside : t'.engine.outside = t.engine.outside
  gathered : (t'.changed, t'.effects, t'.moved) = (t.changed, t.effects, t.moved)
  requests : ∃ made, t'.requests = t.requests ++ made ∧ ∀ r ∈ made, r.command = .toggleDisable

namespace Unnoticed

variable {t t' t'' : Turn}

theorem refl (t : Turn) : Unnoticed t t := ⟨rfl, fun _ _ h => h, rfl, rfl, [], by simp⟩

theorem trans (h : Unnoticed t t') (h' : Unnoticed t' t'') : Unnoticed t t'' where
  layout := h'.layout.trans h.layout
  idle id hid hidle := h'.idle id (mt (Engine.isSwitch_congr h.layout id).mp hid) (h.idle id hid hidle)
  outside := h'.outside.trans h.outside
  gathered := h'.gathered.trans h.gathered
  requests := by
    obtain ⟨made, hmade, hall⟩ := h.requests
    obtain ⟨made', hmade', hall'⟩ := h'.requests
    refine ⟨made ++ made', by rw [hmade', hmade, List.append_assoc], fun r hr => ?_⟩
    exact (List.mem_append.mp hr).elim (hall r) (hall' r)

/-- The engine alone has changed. -/
theorem mapEngine (t : Turn) {change : Engine → Engine}
    (hlayout : (change t.engine).layout = t.engine.layout)
    (hidle : ∀ id, ¬ t.engine.IsSwitch id → (t.engine.latch id).Idle →
      ((change t.engine).latch id).Idle)
    (houtside : (change t.engine).outside = t.engine.outside) :
    Unnoticed t (t.mapEngine change) :=
  ⟨hlayout, hidle, houtside, rfl, [], (List.append_nil _).symm, by simp⟩

theorem mapLatch (t : Turn) (id : Nat) (change : Latch → Latch)
    (hchange : ¬ t.engine.IsSwitch id → (t.engine.latch id).Idle →
      (change (t.engine.latch id)).Idle) :
    Unnoticed t (t.mapLatch id change) := by
  refine mapEngine t (Engine.layout_mapLatch _ id change) (fun i hi hidle => ?_) rfl
  rw [Engine.latch_mapLatch]
  split
  · rename_i hsame
    obtain ⟨rfl, -⟩ := hsame
    exact hchange hi hidle
  · exact hidle

theorem mark (t : Turn) (c : Control) (user : User) (down : Bool) :
    Unnoticed t (t.mark c user down) :=
  mapEngine t (Engine.layout_setBoard _ c user down) (fun _ _ hidle => hidle) rfl

/-- What is done about timers can be noticed by the clock only. -/
theorem outside_of_untimed {e e' : Engine} (h : e'.untimed = e.untimed) :
    e'.outside = e.outside := by
  have hsame : e'.untimed.outside = e.untimed.outside := by rw [h]
  exact hsame

theorem stopTimer (t : Turn) (id : Nat) : Unnoticed t (t.mapEngine fun e => e.stopTimer id) := by
  have huntimed := Engine.untimed_stopTimer t.engine id
  exact mapEngine t (Engine.layout_of_untimed huntimed)
    (fun i _ hidle => ((Fall.stop t id).latch i).idle hidle) (outside_of_untimed huntimed)

/-- The timer of a switch may do as it likes. -/
theorem followPlan {t : Turn} {id : Nat} (hid : t.engine.IsSwitch id) (plan : TimerPlan) :
    Unnoticed t (t.mapEngine fun e => e.followPlan id plan) := by
  have huntimed := Engine.untimed_followPlan t.engine id plan
  refine mapEngine t (Engine.layout_of_untimed huntimed) (fun i hi hidle => ?_)
    (outside_of_untimed huntimed)
  have hother : id ≠ i := fun hsame => hi (hsame ▸ hid)
  rw [Engine.latch_followPlan_of_ne _ hother]
  exact hidle

theorem lapse {t : Turn} {use : TimerUse} (hid : t.engine.IsSwitch use.binding) :
    Unnoticed t (t.mapEngine fun e => e.lapse use) := by
  have huntimed := Engine.untimed_lapse t.engine use
  refine mapEngine t (Engine.layout_of_untimed huntimed) (fun i hi hidle => ?_)
    (outside_of_untimed huntimed)
  have hother : use.binding ≠ i := fun hsame => hi (hsame ▸ hid)
  rw [Engine.latch_lapse_of_ne _ hother]
  exact hidle

theorem giveSwitch (t : Turn) (id : Nat) (r : Response) (forced : Bool) :
    Unnoticed t (t.giveCommand id .toggleDisable r forced) := by
  obtain ⟨made, hgiven, hall⟩ := giveCommand_spec t id .toggleDisable r forced
  rw [hgiven]
  exact ⟨rfl, fun _ _ hidle => hidle, rfl, rfl, made, rfl, fun q hq => (hall q hq).1⟩

theorem dormant (h : Unnoticed t t') (ht : t.engine.Dormant) : t'.engine.Dormant := by
  have hpads : t'.engine.pads = t.engine.pads := congrArg Prod.fst h.outside
  have houtputs : t'.engine.outputs = t.engine.outputs := congrArg (fun o => o.2.1) h.outside
  constructor
  · intro id hid
    have hbefore := mt (Engine.isSwitch_congr h.layout id).mpr hid
    exact h.idle id hbefore (ht.latches id hbefore)
  · rw [houtputs]
    exact ht.outputs
  · unfold Engine.userCount
    rw [hpads]
    exact ht.pads

theorem disabled (h : Unnoticed t t') : t'.engine.disabled = t.engine.disabled :=
  congrArg (fun o => o.2.2.2.2.2) h.outside

/-! ## §2 One binding -/

/-- A switch writes to no target. -/
theorem firstStep_switch {id : Nat} {b : Binding} (hb : t.engine.bindings[id]? = some b)
    (hcell : (t.targetOf b).cell = .command .toggleDisable) (pulse : Pulse) (forced : Bool)
    (latch : Latch) (response : Option Response) :
    Unnoticed t (t.firstStep id b pulse forced latch response) ∧
      t.firstEcho id b pulse forced latch response = none := by
  have hid : t.engine.IsSwitch id := ⟨b, hb, hcell⟩
  have hlatch := mapLatch t id (fun _ => latch) fun hnot => absurd hid hnot
  cases response with
  | none => exact ⟨hlatch, rfl⟩
  | some r =>
    have hpad : (t.targetOf b).padCell? = none := by simp [Descriptor.padCell?, hcell]
    unfold firstStep firstEcho perform
    simp only [hcell]
    refine ⟨hlatch.trans ?_, trivial⟩
    generalize t.mapLatch id (fun _ => latch) = t' at hlatch ⊢
    refine Unnoticed.trans ?_ (giveSwitch _ id r forced)
    refine iteInduction (motive := Unnoticed t') (fun _ => ?_) fun _ => .refl t'
    unfold rise
    simp only [hpad]
    exact mapLatch t' id _ fun hnot => absurd ((Engine.isSwitch_congr hlatch.layout id).mpr hid) hnot

/-- A binding that was not in effect and is not now has nothing to say. -/
theorem giveCommand_of_idle (t : Turn) (id : Nat) (command : Command) {r : Response} (forced : Bool)
    (hwas : r.was = false) (hnow : r.now = false) : t.giveCommand id command r forced = t := by
  obtain ⟨made, hgiven, hall⟩ := giveCommand_spec t id command r forced
  have hnone : made = [] := List.eq_nil_iff_forall_not_mem.mpr fun q hq => by
    have hedge := (hall q hq).2.2.2
    simp [hwas, hnow] at hedge
  rw [hgiven, hnone, List.append_nil]

theorem firstStep_idle (t : Turn) (id : Nat) (b : Binding) (pulse : Pulse) (forced : Bool)
    (latch : Latch) {r : Response} (hwas : r.was = false) (hnow : r.now = false)
    (hemits : r.emits = false) :
    t.firstStep id b pulse forced latch (some r) = t.mapLatch id (fun _ => latch) ∧
      t.firstEcho id b pulse forced latch (some r) = none := by
  unfold firstStep firstEcho perform
  simp only [hnow, hemits, Bool.false_and, Bool.false_eq_true, if_false]
  split
  · exact ⟨giveCommand_of_idle _ id _ forced hwas hnow, rfl⟩
  · exact ⟨rfl, rfl⟩

theorem settle_switch {id : Nat} (hid : t.engine.IsSwitch id) (m : Mapping)
    (source target : Descriptor) (r : Response) :
    Unnoticed t (t.settle id m source target r) := by
  have hplan := followPlan hid (m.timerPlan source target t.engine.settings r.was r.now)
  unfold settle
  dsimp only
  split
  · exact hplan
  · refine hplan.trans (mapLatch _ id _ fun hnot => absurd ?_ hnot)
    exact (Engine.isSwitch_congr hplan.layout id).mpr hid

/-- Settling the end of what is idle leaves it idle. -/
theorem settle_idle (t : Turn) (id : Nat) (m : Mapping) (source target : Descriptor) {r : Response}
    (hnow : r.now = false) : Unnoticed t (t.settle id m source target r) := by
  rw [settle_up t id m source target hnow]
  exact (stopTimer t id).trans
    (mapLatch _ id _ fun _ hidle => ⟨hidle.active, hidle.rawDown, hidle.timer⟩)

/-- **A binding that runs is not noticed** if it is a switch.  If it is idle it only runs when it is
forced to. -/
theorem runBinding (onVar : Listener) {id : Nat} (pulse : Pulse) {forced : Bool}
    (hid : t.engine.IsSwitch id ∨
      (t.engine.latch id).Idle ∧ (forced = true ∨ t.engine.disabled = true)) :
    Unnoticed t (t.runBinding onVar id pulse forced).1 := by
  -- While the mappings are off, only switches accept a pulse.
  have hforced : ∀ b, t.engine.bindings[id]? = some b → t.Reaches b pulse forced →
      ¬ t.engine.IsSwitch id → b.latch.Idle ∧ forced = true := by
    intro b hb hreaches hnot
    obtain ⟨hidle, hgate⟩ := hid.resolve_left hnot
    refine ⟨Engine.latch_of_getElem? hb ▸ hidle, hreaches.elim (fun h => h) fun haccepts => ?_⟩
    exact hgate.elim (fun h => h) fun hoff =>
      absurd ⟨b, hb, (accepts_iff.mp haccepts).1 hoff⟩ hnot
  refine runBinding_cases (P := Unnoticed t) (fun _ => .refl t)
    (fun b latch hb hreaches hrespond => ?_) fun b latch r hb hreaches hrespond => ?_
  · refine mapLatch t id (fun _ => latch) fun hnot _ => ?_
    obtain ⟨hidle, rfl⟩ := hforced b hb hreaches hnot
    exact (hidle.respond_forced hrespond).1
  · by_cases hswitch : t.engine.IsSwitch id
    · have hcell : (t.targetOf b).cell = .command .toggleDisable := by
        obtain ⟨b', hb', hcell⟩ := hswitch
        obtain rfl : b = b' := Option.some.inj (hb.symm.trans hb')
        exact hcell
      obtain ⟨hfirst, hecho⟩ := firstStep_switch hb hcell pulse forced latch (some r)
      rw [hecho]
      refine hfirst.trans (settle_switch ?_ _ _ _ _)
      exact (Engine.isSwitch_congr hfirst.layout id).mpr hswitch
    · obtain ⟨hidle, rfl⟩ := hforced b hb hreaches hswitch
      obtain ⟨hlatch, hanswer⟩ := hidle.respond_forced hrespond
      obtain ⟨hwas, hnow, hemits⟩ := hanswer r rfl
      obtain ⟨hfirst, hecho⟩ := firstStep_idle t id b pulse true latch hwas hnow hemits
      rw [hfirst, hecho]
      exact (mapLatch t id _ fun _ _ => hlatch).trans (settle_idle _ id _ _ _ hnow)

/-! ## §3 Sources, timers and forced releases -/

/-- **A source that moves is not noticed** while the mappings are off, whatever it reaches. -/
theorem feed (room : Nat) (t : Turn) (c : Control) (pulse : Pulse) (ht : t.engine.Dormant)
    (hoff : t.engine.disabled = true) : Unnoticed t (Turn.feed room t c pulse).1 := by
  refine feed_rel (R := fun t t' => t.engine.Dormant → t.engine.disabled = true → Unnoticed t t')
    (fun t _ _ => .refl t) (fun h h' ht hoff => ?_) (fun t c user down _ _ => mark t c user down)
    (fun room _ t id pulse forced ht hoff => ?_) room t c pulse ht hoff
  · have hfirst := h ht hoff
    exact hfirst.trans (h' (hfirst.dormant ht) (hfirst.disabled.trans hoff))
  · by_cases hid : t.engine.IsSwitch id
    · exact runBinding _ pulse (.inl hid)
    · exact runBinding _ pulse (.inr ⟨ht.latches id hid, .inr hoff⟩)

/-- **A timer that goes off is not noticed**: only switches have one. -/
theorem tick {use : TimerUse} (ht : t.engine.Dormant)
    (htimer : (t.engine.latch use.binding).timer.isSome = true) : Unnoticed t (t.tick use) := by
  have hid : t.engine.IsSwitch use.binding := by
    by_contra hnot
    rw [(ht.latches _ hnot).timer] at htimer
    contradiction
  obtain ⟨b, hb, hcell⟩ := hid
  have hlapse := lapse ⟨b, hb, hcell⟩
  have hafter := (Engine.isSwitch_congr hlapse.layout use.binding).mpr ⟨b, hb, hcell⟩
  unfold Turn.tick
  dsimp only
  rw [hb]
  refine hlapse.trans ?_
  generalize (t.mapEngine fun e => e.lapse use) = t' at hafter ⊢
  -- A switch is a command, and commands neither blink nor move nor repeat.
  cases use.kind with
  | turbo =>
    have hcommand : (t.engine.descriptor b.mapping.target).isCommand = true := by
      simp [Descriptor.isCommand, hcell]
    simp only [blink, hcommand, if_true, relay]
    exact mapLatch t' _ _ fun hnot => absurd hafter hnot
  | release => exact runBinding listen _ (.inl hafter)
  | repeating =>
    simp only [goOn, hcell]
    split <;> exact .refl t'
  | rotate =>
    simp only [turnStick, hcell]
    cases t'.engine.bindings[use.binding]? <;> exact .refl t'
  | keyRepeatDelay | keyRepeat =>
    simp only [repeatKey, hcell]
    split <;> exact .refl t'

theorem forceRelease (t : Turn) (id : Nat) (ht : t.engine.Dormant) :
    Unnoticed t (Engine.forceRelease t id) := by
  have hreleased : Unnoticed t
      (if (t.engine.latch id).isLatched then t.release listen id else t) := by
    split
    · by_cases hid : t.engine.IsSwitch id
      · exact runBinding listen _ (.inl hid)
      · exact runBinding listen _ (.inr ⟨ht.latches id hid, .inl rfl⟩)
    · exact .refl t
  exact hreleased.trans (stopTimer _ id)

theorem forceReleases (t : Turn) (ids : List Nat) (ht : t.engine.Dormant) :
    Unnoticed t (ids.foldl Engine.forceRelease t) :=
  List.foldlRecOn (motive := Unnoticed t) ids _ (.refl t) fun t' ht' id _ =>
    ht'.trans (forceRelease t' id (ht'.dormant ht))

end Unnoticed

/-- A turn that has gathered nothing but requests commits nothing else. -/
theorem commit_of_gathered {t : Turn} (h : (t.changed, t.effects, t.moved) = ([], #[], false)) :
    t.commit = { t.engine with queue := t.engine.queue ++ t.requests } := by
  obtain ⟨hchanged, heffects, hmoved⟩ : t.changed = [] ∧ t.effects = #[] ∧ t.moved = false := by
    simpa using h
  simp [commit, hchanged, heffects, hmoved, tellHost]

end Turn

namespace Engine

/-! ## §4 Between two turns -/

variable {e e' : Engine}

/-- Nobody can tell the two engines apart from outside: the pads are the same, with their versions,
and no reader and no host has heard of anything. -/
structure Unseen (e e' : Engine) : Prop where
  pads : e'.pads = e.pads
  snapshots : e'.journal.snapshots = e.journal.snapshots
  events : e'.journal.events = e.journal.events

theorem Unseen.refl (e : Engine) : Unseen e e := ⟨rfl, rfl, rfl⟩

/-- Nobody sees the clock. -/
theorem Unseen.pass (e : Engine) (clock : Clock) : Unseen e { e with clock } := ⟨rfl, rfl, rfl⟩

theorem Unseen.trans {e'' : Engine} (h : Unseen e e') (h' : Unseen e' e'') : Unseen e e'' :=
  ⟨h'.pads.trans h.pads, h'.snapshots.trans h.snapshots, h'.events.trans h.events⟩

/-- Nothing goes on except for the bindings that switch, and nothing else is requested. -/
structure Asleep (e : Engine) : Prop where
  dormant : Dormant e
  queue : ∀ r ∈ e.queue, r.command = .toggleDisable

namespace Dormant

/-- In the same layout all depends on what is latched, what is pressed and what the pads hold. -/
theorem congr (he : Dormant e) (hlayout : e'.layout = e.layout)
    (hlatch : ∀ id, (e.latch id).Idle → (e'.latch id).Idle) (houtputs : e'.outputs = e.outputs)
    (hpads : ∀ user : User, user < e'.userCount → (e'.pads.pad user).AtRest) : Dormant e' where
  latches id hid := hlatch id (he.latches id (mt (isSwitch_congr hlayout id).mpr hid))
  outputs := houtputs ▸ he.outputs
  pads := hpads

theorem chore (h : Chore e e') (he : Dormant e) : Dormant e' := by
  have hlayout := h.layout
  cases h with
  | note | enable | advance | activate => exact he.congr hlayout (fun _ hidle => hidle) rfl he.pads
  | label user pad hcells =>
    refine he.congr hlayout (fun _ hidle => hidle) rfl fun other hother => ?_
    by_cases hsame : user.val = other.val
    · obtain rfl := Fin.ext hsame
      simpa [PadBank.pad, PadBank.set] using (he.pads user hother).congr hcells
    · simpa [PadBank.pad, PadBank.set, hsame] using he.pads other hother
  | remember id user =>
    refine he.congr hlayout (fun i hidle => ?_) rfl he.pads
    rw [latch_mapLatch]
    split
    · exact ⟨hidle.active, hidle.rawDown, hidle.timer⟩
    · exact hidle

end Dormant

/-- When everything has been released the engine is dormant. -/
theorem Neutral.dormant (he : Neutral e) : Dormant e := ⟨fun id _ => he.latches id, he.outputs, he.pads⟩

theorem Deeds.timersKnown (h : Deeds e e') (he : TimersKnown e) : TimersKnown e' := by
  induction h with
  | refl => exact he
  | tail _ hdeed ih =>
    exact hdeed.keeps_stable (timersKnown_stable fun _ => True) (fun _ _ he => he) ih

namespace Asleep

/-- A turn that is not noticed leaves the engine asleep, and nobody sees it. -/
theorem inTurn (he : Asleep e) (time lastTime : Nat) {t : Turn}
    (h : Turn.Unnoticed { engine := { e with lastTime }, time } t) :
    Asleep t.commit ∧ Unseen e t.commit ∧ t.commit.disabled = e.disabled := by
  obtain ⟨made, hmade, hall⟩ := h.requests
  have hnoted : Dormant { e with lastTime } := he.dormant.congr rfl (fun _ h => h) rfl he.dormant.pads
  have hdormant := h.dormant hnoted
  obtain ⟨hpads, -, hsnapshots, hevents, hqueue, hdisabled⟩ :
      t.engine.pads = e.pads ∧ t.engine.outputs = e.outputs ∧
      t.engine.journal.snapshots = e.journal.snapshots ∧
      t.engine.journal.events = e.journal.events ∧ t.engine.queue = e.queue ∧
      t.engine.disabled = e.disabled := by
    simpa [outside] using h.outside
  rw [Turn.commit_of_gathered h.gathered]
  refine ⟨⟨hdormant.congr rfl (fun _ h => h) rfl hdormant.pads, fun r hr => ?_⟩,
    ⟨hpads, hsnapshots, hevents⟩, hdisabled⟩
  rw [show ({ t.engine with queue := t.engine.queue ++ t.requests } : Engine).queue =
    t.engine.queue ++ t.requests from rfl, hqueue, hmade] at hr
  rcases List.mem_append.mp hr with hold | hnew
  · exact he.queue r hold
  · exact hall r (by simpa using hnew)

/-- **Releasing everything** finds nothing to release but switches. -/
theorem forceReleaseAll (he : Asleep e) (time : Nat) :
    Asleep (e.forceReleaseAll time) ∧ Unseen e (e.forceReleaseAll time) := by
  have hreleased := Turn.Unnoticed.forceReleases { engine := e, time } (List.range e.bindings.size)
    he.dormant
  have hdormant := hreleased.dormant he.dormant
  obtain ⟨hasleep, hunseen, -⟩ := he.inTurn time e.lastTime hreleased
  unfold Engine.forceReleaseAll Engine.inTurn
  dsimp only
  rw [Turn.updatePads_atRest fun user huser =>
    hdormant.pads user (by simpa [targetUsers] using huser)]
  exact ⟨hasleep, hunseen⟩

/-- **Switching back and forth** is not noticed. -/
theorem obey (he : Asleep e) {r : Request} (hr : r.command = .toggleDisable) (time : Nat) :
    Asleep (e.obey r time) ∧ Unseen e (e.obey r time) := by
  unfold Engine.obey
  rw [hr]
  dsimp only
  split
  · exact ⟨⟨he.dormant.chore (.enable e), he.queue⟩, rfl, rfl, rfl⟩
  · obtain ⟨hasleep, hunseen⟩ := he.forceReleaseAll time
    refine ⟨⟨?_, hasleep.queue⟩, hunseen.pads, hunseen.snapshots, hunseen.events⟩
    exact hasleep.dormant.congr rfl (fun _ h => h) rfl hasleep.dormant.pads

theorem obeyAll (time bound : Nat) (he : Asleep e) :
    Asleep (obeyAll time bound e) ∧ Unseen e (obeyAll time bound e) := by
  induction bound generalizing e with
  | zero => exact ⟨he, .refl e⟩
  | succ bound ih =>
    unfold Engine.obeyAll
    split
    · exact ⟨he, .refl e⟩
    · rename_i r rest hqueue
      have htaken : Asleep { e with queue := rest } :=
        ⟨he.dormant.congr rfl (fun _ h => h) rfl he.dormant.pads,
          fun q hq => he.queue q (hqueue ▸ List.mem_cons_of_mem r hq)⟩
      have hr : r.command = .toggleDisable := he.queue r (hqueue ▸ List.mem_cons_self)
      obtain ⟨hobeyed, hseen⟩ := htaken.obey hr time
      obtain ⟨hasleep, hunseen⟩ := ih hobeyed
      have htake : Unseen e { e with queue := rest } := ⟨rfl, rfl, rfl⟩
      exact ⟨hasleep, htake.trans (hseen.trans hunseen)⟩

/-! ## §5 Operations -/

theorem drainQueue (he : Asleep e) (time : Nat) :
    Asleep (e.drainQueue time) ∧ Unseen e (e.drainQueue time) := he.obeyAll time _

/-- A turn that is not noticed, and what is requested in it. -/
theorem afterTurn (he : Asleep e) (time lastTime : Nat) {t : Turn}
    (h : Turn.Unnoticed { engine := { e with lastTime }, time } t) :
    Asleep (t.commit.drainQueue time) ∧ Unseen e (t.commit.drainQueue time) := by
  obtain ⟨hcommitted, hseen, -⟩ := he.inTurn time lastTime h
  obtain ⟨hasleep, hunseen⟩ := hcommitted.drainQueue time
  exact ⟨hasleep, hseen.trans hunseen⟩

theorem accept (he : Asleep e) (hoff : e.disabled = true) (c : Control) (pulse : Pulse) (time : Nat) :
    Unseen e (e.accept c pulse time).1 := by
  have hnoted : Dormant { e with lastTime := time } :=
    he.dormant.congr rfl (fun _ h => h) rfl he.dormant.pads
  exact (he.afterTurn time time (.feed (cascadeRoom + 1)
    { engine := { e with lastTime := time }, time } c pulse hnoted hoff)).2

theorem onTimer (he : Asleep e) (hknown : TimersKnown e) (token : TimerToken) (time : Nat) :
    Asleep (e.onTimer token time) ∧ Unseen e (e.onTimer token time) := by
  unfold Engine.onTimer
  cases huse : e.timerUse? token with
  | none => exact ⟨he, .refl e⟩
  | some use =>
    have hnoted : Dormant { e with lastTime := time } :=
      he.dormant.congr rfl (fun _ h => h) rfl he.dormant.pads
    refine he.afterTurn time time (.tick (t := { engine := { e with lastTime := time }, time }) hnoted ?_)
    show (e.latch use.binding).timer.isSome = true
    rw [hknown use (List.mem_of_find?_eq_some huse)]
    rfl

theorem runDue (limit : Nanoseconds) (bound : Nat) (he : Asleep e) (hknown : TimersKnown e) :
    Unseen e (runDue limit bound e) := by
  induction bound generalizing e with
  | zero => exact .refl e
  | succ bound ih =>
    unfold Engine.runDue
    split
    · exact .refl e
    · rename_i token due clock _
      have hpassed : Asleep { e with clock } :=
        ⟨he.dormant.congr rfl (fun _ h => h) rfl he.dormant.pads, he.queue⟩
      obtain ⟨hasleep, hseen⟩ := hpassed.onTimer hknown token (due.toMillis % twoTo 64)
      have hstill : TimersKnown (({ e with clock } : Engine).onTimer token (due.toMillis % twoTo 64)) :=
        (deeds_onTimer _ token _).timersKnown hknown
      exact (Unseen.pass e clock).trans (hseen.trans (ih hasleep hstill))

/-- **No call is seen from outside** while the mappings are off, unless it brings another
configuration. -/
theorem after (he : Asleep e) (hoff : e.disabled = true) (hknown : TimersKnown e) {call : Call}
    (hcall : ∀ config, call ≠ .reload config) : Unseen e (e.after call) := by
  cases call with
  | input source user down strength time =>
    show Unseen e (e.processInput source user down strength time).1
    rcases e.processInput_cases source user down strength time with ⟨pulse, -, hfed⟩ | hnot
    · rw [hfed]
      exact he.accept hoff source pulse time
    · rw [hnot]
      exact .refl e
  | motion source user magnitude time =>
    show Unseen e (e.processRelative source user magnitude time).1
    rcases e.processRelative_cases source user magnitude time with ⟨pulse, -, hfed⟩ | hnot
    · rw [hfed]
      exact he.accept hoff source pulse time
    · rw [hnot]
      exact .refl e
  | runUntil ms =>
    exact (he.runDue _ _ hknown).trans (.pass _ _)
  | releaseAll time =>
    obtain ⟨hreleased, hseen⟩ := he.forceReleaseAll time
    exact hseen.trans (hreleased.drainQueue time).2
  | reload config => exact absurd rfl (hcall config)

end Asleep

/-! ## §6 Between any two operations -/

/-- Whatever releasing everything relies on is kept by every deed. -/
theorem Deed.releasable (h : Deed e e') (he : Releasable e) : Releasable e' where
  mirrored := h.keeps_stable (mirrored_stable fun _ => True) (fun _ clock he => he.clock clock)
    he.mirrored
  rests := he.rests.deed h he.known
  known := h.keeps_stable (timersKnown_stable fun _ => True) (fun _ _ he => he) he.known
  adds id b' hb' hadd := by
    obtain ⟨b, hb, hmapping, -⟩ := binding_congr h.layout.symm hb'
    rw [← hmapping] at hadd ⊢
    rw [descriptor_congr h.layout]
    exact he.adds id b hb hadd

/-- An installation establishes it anew. -/
theorem Releasable.install (he : Releasable e) {config : Config} (hconfig : config.IsCompiled)
    (time : Nat) : Releasable (e.cancelTimers.install config time) where
  mirrored := (mirrored_stable fun _ => True).install e time trivial he.mirrored
  rests := .ofInstall _ config time
  known := .ofInstall _ config time
  adds id b hb hadd := by
    rw [install_descriptor]
    exact hconfig.adds (List.mem_of_getElem? (install_binding hb).1) hadd

theorem disabled_commit (t : Turn) : t.commit.disabled = t.engine.disabled := by
  obtain ⟨pads, queue, remainder, snapshots, events, hcommit, -⟩ := t.commit_frame
  rw [hcommit]

/-- **Whenever the mappings are off, nothing goes on.** -/
theorem Deed.dormant (h : Deed e e') (he : Releasable e) (hdormant : e.disabled = true → Dormant e)
    (hoff : e'.disabled = true) : Dormant e' := by
  have hreleased := fun time => (neutral_forceReleaseAll he time).dormant
  cases h with
  | duty h =>
    cases h with
    | errand h =>
      cases h with
      | enable => contradiction
      | remember id user => exact (hdormant hoff).chore (.remember e id user)
      | take | forward | activate | pass =>
        have hbefore := hdormant hoff
        exact hbefore.congr rfl (fun _ h => h) rfl hbefore.pads
    | switchOff time => exact (hreleased time).congr rfl (fun _ h => h) rfl (hreleased time).pads
    | connect user time =>
      rw [inTurn, disabled_commit, Turn.engine_updatePad] at hoff
      refine Turn.commit_keeps Dormant.chore _ ?_
      rw [Turn.engine_updatePad]
      exact (hdormant hoff).chore (.label user _ ⟨rfl, rfl, rfl⟩)
  | feed c pulse time =>
    -- The mappings were off before, so the source has not been noticed.
    rw [disabled_commit, (Turn.steps_feed _ _ c pulse).gates.2] at hoff
    have hbefore := hdormant hoff
    have hnoted : Dormant { e with lastTime := time } :=
      hbefore.congr rfl (fun _ h => h) rfl hbefore.pads
    have hfed := Turn.Unnoticed.feed (cascadeRoom + 1) { engine := { e with lastTime := time }, time }
      c pulse hnoted hoff
    exact Turn.commit_keeps Dormant.chore _ (hfed.dormant hnoted)
  | @expire token use huse time =>
    rw [disabled_commit, (Turn.steps_tick _ use).gates.2] at hoff
    have hbefore := hdormant hoff
    have hnoted : Dormant { e with lastTime := time } :=
      hbefore.congr rfl (fun _ h => h) rfl hbefore.pads
    have htimer : (e.latch use.binding).timer.isSome = true := by
      rw [he.known use (List.mem_of_find?_eq_some huse)]
      rfl
    have hticked : Turn.Unnoticed { engine := { e with lastTime := time }, time }
        (Turn.tick { engine := { e with lastTime := time }, time } use) := .tick hnoted htimer
    exact Turn.commit_keeps Dormant.chore _ (hticked.dormant hnoted)
  | release time => exact hreleased time

theorem Operated.dormant (he : Operated Config.IsCompiled e) (hoff : e.disabled = true) :
    Dormant e := by
  have hboth : Releasable e ∧ (e.disabled = true → Dormant e) := by
    refine Operated.of_deeds (P := fun e => Releasable e ∧ (e.disabled = true → Dormant e))
      (fun hconfig => ?_) (fun h he => ⟨h.releasable he.1, h.dormant he.1 he.2⟩)
      (fun hconfig _ hfreed => ?_) he
    · refine ⟨(Operated.start hconfig).releasable, fun hoff => ?_⟩
      rw [ofConfig, install_disabled] at hoff
      contradiction
    · refine ⟨hfreed.1.install hconfig _, fun hoff => ?_⟩
      rw [install_disabled] at hoff
      contradiction
  exact hboth.2 hoff

/-- **While the mappings are off**, no mapping is in effect or has a timer but those that switch, no
output is pressed and nothing contributes to a pad.  No source and no timer changes that, nor do they
change a pad or its version, and neither a reader nor the host hears of anything; that includes the
event that switches the mappings on again. -/
theorem switched_off (he : Operated Config.IsCompiled e) (hoff : e.disabled = true) :
    (∀ (id : Nat) (b : Binding), e.bindings[id]? = some b →
      (e.descriptor b.mapping.target).cell ≠ .command .toggleDisable →
      b.latch.active = false ∧ b.latch.rawDown = false ∧ b.latch.timer = none) ∧
    (∀ (c : Control) (cell : ButtonCell), e.outputs[c]? = some cell → cell.pressed = false) ∧
    (∀ user : User, user < e.userCount → (e.pads.pad user).Neutral) ∧
    (∀ call : Call, (∀ config, call ≠ .reload config) → Unseen e (e.after call)) ∧
    ∀ token time, Unseen e (e.onTimer token time) := by
  have hdormant := he.dormant hoff
  have hasleep : Asleep e := ⟨hdormant, by simp [he.queue_nil]⟩
  refine ⟨fun id b hb hcell => ?_, hdormant.outputs, fun user huser => (hdormant.pads user huser).neutral,
    fun call hcall => hasleep.after hoff he.timersKnown hcall,
    fun token time => (hasleep.onTimer he.timersKnown token time).2⟩
  have hidle := hdormant.latches id (by
    rintro ⟨b', hb', hcell'⟩
    obtain rfl : b = b' := Option.some.inj (hb.symm.trans hb')
    exact hcell hcell')
  rw [latch_of_getElem? hb] at hidle
  exact ⟨hidle.active, hidle.rawDown, hidle.timer⟩

/-- The key A makes a button blink, and F12 switches the mappings. -/
def switchedConfig : ConfigFile :=
  { mappings :=
      [{ source := "A", target := "PadA", options := ["turbo"] },
        { source := "F12", target := "ToggleDisable" }] }

/-- The engine after F12 has been tapped while A was held. -/
def switched : Engine :=
  (((ofConfig switchedConfig.compile).after (.input ⟨0x41⟩ 0 true 1 0)).after
    (.input ⟨0x7B⟩ 0 true 1 1)).after (.input ⟨0x7B⟩ 0 false 0 2)

/-- The button has stopped blinking, and another press of A is not seen. -/
theorem switched_off_switched : Operated Config.IsCompiled switched ∧ switched.disabled = true ∧
    (∃ b, switched.bindings[0]? = some b ∧ b.latch.active = false ∧ b.latch.timer = none) ∧
    Unseen switched (switched.after (.input ⟨0x41⟩ 0 true 1 3)) := by
  have hreachable : Reachable Config.IsCompiled switched :=
    (((Reachable.compiled _).input ..).input ..).input ..
  have hoff : switched.disabled = true := by decide +kernel
  obtain ⟨hbindings, -, -, hcalls, -⟩ := switched_off hreachable.operated hoff
  have hcell : (switched.bindings[0]?.map fun b =>
      (switched.descriptor b.mapping.target).cell) = some (.pad (.button 0)) := by
    decide +kernel
  obtain ⟨b, hb, hbutton⟩ := Option.map_eq_some_iff.mp hcell
  obtain ⟨hactive, -, htimer⟩ := hbindings 0 b hb (by simp [hbutton])
  exact ⟨hreachable.operated, hoff, ⟨b, hb, hactive, htimer⟩, hcalls _ (by simp)⟩

end Engine

end VirtualPad
