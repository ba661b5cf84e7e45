import VirtualPad.Proofs.Fittings
import VirtualPad.Proofs.Requests
import VirtualPad.Proofs.RestingPads

/-!
# Releasing everything

After everything is released nothing goes on any more: no binding is latched, no timer runs, no output
is pressed and the pads are at rest.  The requests that the release has led to are carried out after
it, and they do not change that.  So releasing once more finds nothing to do, and nobody notices.
-/

namespace VirtualPad

/-- Releasing pads at rest cannot be seen. -/
theorem Turn.updatePads_atRest {t : Turn} {users : List User}
    (hrest : ∀ user ∈ users, (t.engine.pads.pad user).AtRest) :
    t.updatePads users Pad.releaseAll = t := by
  induction users with
  | nil => rfl
  | cons user rest ih =>
    have hpad := (hrest user List.mem_cons_self).releaseAll
    have hsame : t.engine.pads.set user (t.engine.pads.pad user) = t.engine.pads := by
      simp [PadBank.set, PadBank.pad]
    have hfirst : t.updatePad user Pad.releaseAll = t := by
      unfold Turn.updatePad Turn.mapEngine
      rw [hpad]
      simp [hsame]
    have hsplit : t.updatePads (user :: rest) Pad.releaseAll =
        (t.updatePad user Pad.releaseAll).updatePads rest Pad.releaseAll := rfl
    rw [hsplit, hfirst]
    exact ih fun user huser => hrest user (List.mem_cons_of_mem _ huser)

namespace Engine

/-- Nothing goes on. -/
structure Neutral (e : Engine) : Prop where
  latches (id : Nat) : (e.latch id).Idle
  users (id : Nat) : (e.latch id).applied = []
  timers : e.timers = []
  outputs (c : Control) (cell : ButtonCell) : e.outputs[c]? = some cell → cell.pressed = false
  pads (user : User) : user < e.userCount → (e.pads.pad user).AtRest

namespace Neutral

variable {e e' : Engine}

/-! ## §1 What keeps an engine neutral -/

/-- Only the pads may differ, and they are at rest. -/
theorem congr (he : Neutral e)
    (hlatch : ∀ id, (e'.latch id).holding = (e.latch id).holding ∧
      (e'.latch id).rawDown = (e.latch id).rawDown)
    (htimers : e'.timers = e.timers) (houtputs : e'.outputs = e.outputs)
    (hpads : ∀ user : User, user < e'.userCount → (e'.pads.pad user).AtRest) : Neutral e' := by
  constructor
  · intro id
    obtain ⟨hholding, hdown⟩ := hlatch id
    obtain ⟨hactive, -, htimer⟩ : _ ∧ _ ∧ _ := by simpa [Latch.holding] using hholding
    exact ⟨hactive.trans (he.latches id).active, hdown.trans (he.latches id).rawDown,
      htimer.trans (he.latches id).timer⟩
  · intro id
    obtain ⟨-, husers, -⟩ : _ ∧ _ ∧ _ := by simpa [Latch.holding] using (hlatch id).1
    exact husers.trans (he.users id)
  · exact htimers.trans he.timers
  · rw [houtputs]
    exact he.outputs
  · exact hpads

theorem chore (h : Chore e e') (he : Neutral e) : Neutral e' := by
  cases h with
  | note | enable | advance | activate =>
    exact he.congr (fun _ => ⟨rfl, rfl⟩) rfl rfl he.pads
  | label user pad hcells =>
    refine he.congr (fun _ => ⟨rfl, rfl⟩) rfl rfl fun other hother => ?_
    by_cases hsame : user.val = other.val
    · obtain rfl := Fin.ext hsame
      simpa [PadBank.pad, PadBank.set] using (he.pads user hother).congr hcells
    · simpa [PadBank.pad, PadBank.set, hsame] using he.pads other hother
  | remember id user =>
    exact he.congr (fun i => ⟨latch_mapLatch_congr Latch.holding rfl i,
      latch_mapLatch_congr Latch.rawDown rfl i⟩) rfl rfl he.pads

/-- A neutral engine has nothing to release. -/
theorem forceRelease {t : Turn} (ht : Neutral t.engine) (id : Nat) :
    Engine.forceRelease t id = t := by
  have hidle := ht.latches id
  have hfree : (t.engine.latch id).isLatched = false := by
    simp [Latch.isLatched, hidle.active, hidle.rawDown, hidle.timer]
  unfold Engine.forceRelease Turn.mapEngine
  simp only [hfree, Bool.false_eq_true, if_false, stopTimer, hidle.timer]

/-- **Releasing everything in a neutral engine does nothing.** -/
theorem forceReleaseAll (he : Neutral e) (time : Nat) : e.forceReleaseAll time = e := by
  -- One release after another leaves the turn as it began, so nothing is committed either.
  have hfold : ∀ (ids : List Nat) (t : Turn), t.engine = e → ids.foldl Engine.forceRelease t = t := by
    intro ids
    induction ids with
    | nil => exact fun _ _ => rfl
    | cons id rest ih =>
      intro t ht
      rw [List.foldl_cons, forceRelease (ht ▸ he)]
      exact ih t ht
  unfold Engine.forceReleaseAll inTurn
  dsimp only
  rw [hfold _ _ rfl, Turn.updatePads_atRest fun user huser =>
    he.pads user (by simpa [targetUsers] using huser)]
  simp [Turn.commit, Turn.tellHost]

theorem errand (h : Errand e e') (he : Neutral e) : Neutral e' := by
  cases h with
  | take | forward | enable | activate | pass =>
    exact he.congr (fun _ => ⟨rfl, rfl⟩) rfl rfl he.pads
  | remember id user => exact he.chore (.remember e id user)

theorem duty (h : Duty e e') (he : Neutral e) : Neutral e' := by
  cases h with
  | errand h => exact he.errand h
  | switchOff time =>
    rw [he.forceReleaseAll time]
    exact he.congr (fun _ => ⟨rfl, rfl⟩) rfl rfl he.pads
  | connect user time =>
    refine Turn.commit_keeps chore _ ?_
    rw [Turn.engine_updatePad]
    exact he.chore (.label user _ ⟨rfl, rfl, rfl⟩)

/-- **Carrying out requests leaves a neutral engine neutral.** -/
theorem duties (h : Duties e e') (he : Neutral e) : Neutral e' := by
  induction h with
  | refl => exact he
  | tail _ hduty ih => exact ih.duty hduty

/-- **Releasing everything again changes nothing**, unless requests wait. -/
theorem releaseAll (he : Neutral e) (hqueue : e.queue = []) (time : Nat) : e.releaseAll time = e := by
  unfold Engine.releaseAll
  rw [he.forceReleaseAll, drainQueue_of_nil hqueue]

end Neutral

/-! ## §2 Releasing everything makes an engine neutral -/

/-- What releasing everything relies on. -/
structure Releasable (e : Engine) : Prop where
  mirrored : Mirrored e
  rests : RestsWithin (fun _ => False) e
  known : TimersKnown e
  adds (id : Nat) (b : Binding) : e.bindings[id]? = some b → b.mapping.options.add = true →
    MappingTable.buildsUp (e.descriptor b.mapping.target) = true

theorem Operated.releasable {e : Engine} (he : Operated Config.IsCompiled e) : Releasable e where
  mirrored := he.mirrored
  rests := he.rests
  known := he.timersKnown
  adds _ _ hb hadd := adds_of_operated he hb hadd

variable {e : Engine}

/-- The bindings after all have been released by force, in order. -/
theorem idle_released (he : ActiveWithin (fun _ => True) e) (time id : Nat) :
    (((List.range e.bindings.size).foldl forceRelease { engine := e, time }).engine.latch id).Idle := by
  refine Turn.idle_forceReleases (t := { engine := e, time }) (List.range e.bindings.size) he ?_
  by_cases hin : id < e.bindings.size
  · exact .inl (List.mem_range.mpr hin)
  · right
    show (e.latch id).Idle
    rw [latch_of_le (Nat.not_lt.mp hin)]
    exact ⟨rfl, rfl, rfl⟩

/-- Outputs do not build up, so nothing adds to them. -/
theorem plain_of_output {b : Binding} {kind : OutputKind}
    (hadds : b.mapping.options.add = true →
      MappingTable.buildsUp (e.descriptor b.mapping.target) = true)
    (hkind : (e.descriptor b.mapping.target).cell = .output kind) :
    b.mapping.options.add = false := by
  rw [← Bool.not_eq_true]
  intro hadd
  have hbuilds := hadds hadd
  unfold MappingTable.buildsUp at hbuilds
  rw [hkind] at hbuilds
  contradiction

/-- **An output is pressed just if some binding to it is on.** -/
theorem Mirrors.outputs_pressed (he : Mirrors e)
    (hadds : ∀ (id : Nat) (b : Binding), e.bindings[id]? = some b → b.mapping.options.add = true →
      MappingTable.buildsUp (e.descriptor b.mapping.target) = true) {c : Control}
    {cell : ButtonCell} (hcell : e.outputs[c]? = some cell) :
    cell.pressed = true ↔ ∃ (id : Nat) (b : Binding) (kind : OutputKind),
      e.bindings[id]? = some b ∧ b.slot.isSome = true ∧ b.mapping.target = c ∧
      (e.descriptor c).cell = .output kind ∧ b.IsOn := by
  have hlive : ∀ slot, (e.held (.output c) slot).isSome = (cell.held slot).isSome := by
    intro slot
    simp [held, view, hcell]
  rw [ButtonCell.pressed_iff]
  constructor
  · rintro ⟨slot, hslot⟩
    rw [← hlive] at hslot
    obtain ⟨id, b, hb, hown, hdrives⟩ := he.owned _ slot (Option.isSome_iff_ne_none.mp hslot)
    -- The slot is live, so its owner contributes; and to an output that means to be on.
    have hdriven := hdrives
    obtain ⟨⟨kind, hkind⟩, rfl⟩ := hdriven
    have hplain := plain_of_output (hadds id b hb) hkind
    have hon := (he.shows id b hb hplain _ slot hown hdrives).mp hslot
    exact ⟨id, b, kind, hb, by rw [hown]; rfl, rfl, hkind, (contributes_output hkind).mp hon⟩
  · rintro ⟨id, b, kind, hb, hown, rfl, hkind, hon⟩
    obtain ⟨slot, hslot⟩ := Option.isSome_iff_exists.mp hown
    have hplain := plain_of_output (hadds id b hb) hkind
    have hdrives : e.Drives b.mapping (.output b.mapping.target) := ⟨⟨kind, hkind⟩, rfl⟩
    refine ⟨slot, ?_⟩
    rw [← hlive]
    exact (he.shows id b hb hplain _ slot hslot hdrives).mpr ((contributes_output hkind).mpr hon)

/-- A pad that is released is at rest, also among others. -/
theorem atRest_change (b : PadBank) (users : List User) {user : User}
    (huser : user ∈ users ∨ (b.pad user).AtRest) :
    ((b.change users Pad.releaseAll).pad user).AtRest := by
  induction users generalizing b with
  | nil => exact huser.resolve_left List.not_mem_nil
  | cons first rest ih =>
    refine ih (b.set first (Pad.releaseAll (b.pad first)).1) ?_
    by_cases hsame : first.val = user.val
    · obtain rfl := Fin.ext hsame
      right
      simpa [PadBank.pad, PadBank.set] using Pad.atRest_releaseAll (b.pad first)
    · rcases huser with hmem | hrest
      · rcases List.mem_cons.mp hmem with rfl | hrest
        · exact absurd rfl hsame
        · exact .inl hrest
      · right
        simpa [PadBank.pad, PadBank.set, hsame] using hrest

/-- **Releasing everything makes an engine neutral.** -/
theorem neutral_forceReleaseAll (he : Releasable e) (time : Nat) :
    Neutral (e.forceReleaseAll time) := by
  refine Turn.commit_keeps Neutral.chore _ ?_
  dsimp only
  rw [Turn.engine_updatePads]
  -- What is known once all bindings have been released, before the pads are emptied.
  have hidle := idle_released he.mirrored.settled time
  have hrests := he.rests.forceReleases (t := { engine := e, time }) (List.range e.bindings.size)
  have hknown := forceRelease_keeps TimersKnown.move (timersKnown_stable fun _ => True).feed
    { engine := e, time } (List.range e.bindings.size) he.known
  have hmirrored := forceRelease_keeps Mirrored.move Mirrored.feed { engine := e, time }
    (List.range e.bindings.size) he.mirrored
  have hlayout : ((List.range e.bindings.size).foldl forceRelease
      { engine := e, time }).engine.layout = e.layout :=
    (Turn.steps_forceReleases { engine := e, time } (List.range e.bindings.size)).layout
  generalize (List.range e.bindings.size).foldl forceRelease { engine := e, time } = t
    at hidle hrests hknown hmirrored hlayout ⊢
  constructor
  · exact hidle
  · exact fun id => hrests.users id (fun h => h) (hidle id).active
  · -- A timer in the table is the timer of its binding, and no binding has one.
    refine List.eq_nil_iff_forall_not_mem.mpr fun use huse => ?_
    have htimer := hknown use huse
    rw [(hidle _).timer] at htimer
    contradiction
  · -- An output is pressed only by a binding in effect.
    intro c cell hcell
    rw [← Bool.not_eq_true, hmirrored.mirrors.outputs_pressed (fun id b hb hadd => ?_) hcell]
    · rintro ⟨id, b, kind, hb, -, -, -, hactive, -⟩
      rw [← latch_of_getElem? hb, (hidle id).active] at hactive
      contradiction
    · obtain ⟨b', hb', hmapping, -⟩ := binding_congr hlayout.symm hb
      rw [← hmapping, descriptor_congr hlayout]
      exact he.adds id b' hb' (hmapping ▸ hadd)
  · intro user huser
    have hcount : user.val < t.engine.userCount := by
      rw [userCount, ← PadBank.count_change t.engine.pads (t.engine.targetUsers .everyone)
        Pad.releaseAll]
      exact huser
    have hmem : user ∈ t.engine.targetUsers .everyone :=
      List.mem_filter.mpr ⟨List.mem_finRange user, decide_eq_true hcount⟩
    exact atRest_change _ _ (.inl hmem)

/-- Also when the requests that the release has led to have been carried out. -/
theorem neutral_releaseAll (he : Releasable e) (time : Nat) : Neutral (e.releaseAll time) :=
  (neutral_forceReleaseAll he time).duties (duties_drainQueue _ time)

/-- Then there is no timer left to cancel. -/
theorem freed_eq (he : Releasable e) : e.freed = e.releaseAll e.lastTime := by
  unfold freed cancelTimers
  rw [(neutral_releaseAll he e.lastTime).timers]
  rfl

/-! ## §3 Between any two operations -/

/-- Everything has been released. -/
structure Released (e : Engine) : Prop where
  /-- No binding is latched, and none has users. -/
  latches (id : Nat) (b : Binding) : e.bindings[id]? = some b → b.latch.active = false ∧
    b.latch.rawDown = false ∧ b.latch.timer = none ∧ b.latch.applied = []
  timers : e.timers = []
  outputs (c : Control) (cell : ButtonCell) : e.outputs[c]? = some cell → cell.pressed = false
  pads (user : User) : user < e.userCount → (e.pads.pad user).Neutral

theorem Neutral.released (he : Neutral e) : Released e where
  latches id b hb := by
    have hidle := he.latches id
    have husers := he.users id
    rw [latch_of_getElem? hb] at hidle husers
    exact ⟨hidle.active, hidle.rawDown, hidle.timer, husers⟩
  timers := he.timers
  outputs := he.outputs
  pads user huser := (he.pads user huser).neutral

/-- The clock has armed no timer that is not in the table. -/
theorem TimersAgree.isArmed (he : TimersAgree e) (htimers : e.timers = []) (token : TimerToken) :
    e.clock.isArmed token = false := by
  rw [← Bool.not_eq_true, Clock.isArmed_iff]
  rintro ⟨once, harms⟩
  obtain ⟨use, huse, -⟩ := (he.armed token once).mp harms
  rw [htimers] at huse
  contradiction

/-- **Releasing everything returns everything to neutral**, and keeps who owns which slot and the
shapes of the sticks.  A second release is not noticed: the engine stays as it is, with all that the
host has been told and with the versions of the pads.  The clock has no timer armed any more, if all
that went off before went off by the clock. -/
theorem everything_released (he : Operated Config.IsCompiled e) (time : Nat) :
    Released (e.releaseAll time) ∧ SameFittings e (e.releaseAll time) ∧
      (∀ later, (e.releaseAll time).releaseAll later = e.releaseAll time) ∧
      (Reachable Config.IsCompiled e → ∀ token, (e.releaseAll time).clock.isArmed token = false) := by
  have hneutral := neutral_releaseAll he.releasable time
  refine ⟨hneutral.released, (deeds_releaseAll e time).sameFittings, fun later => ?_, fun hclocked => ?_⟩
  · exact hneutral.releaseAll (queue_releaseAll he.measured time) later
  · have hrelease : (Call.releaseAll time).Admitted Config.IsCompiled := trivial
    exact (hclocked.call hrelease).timersAgree.isArmed hneutral.timers

/-- The key A holds a key and turns a stick. -/
def turningConfig : ConfigFile :=
  { mappings :=
      [{ source := "A", target := "B" }, { source := "A", target := "LStickRotateCW" }] }

/-- The engine while A is held. -/
def turning : Engine := (ofConfig turningConfig.compile).after (.input ⟨0x41⟩ 0 true 1 0)

/-- A key that is held and a stick that is turning are released. -/
theorem turning_released : Reachable Config.IsCompiled turning ∧
    (turning.latch 0).isLatched = true ∧ (turning.latch 1).timer.isSome = true ∧
    Released (turning.releaseAll 5) ∧ SameFittings turning (turning.releaseAll 5) ∧
      (∀ later, (turning.releaseAll 5).releaseAll later = turning.releaseAll 5) ∧
      ∀ token, (turning.releaseAll 5).clock.isArmed token = false := by
  have hreachable : Reachable Config.IsCompiled turning := (Reachable.compiled _).input ..
  have hstate : ((turning.latch 0).isLatched, (turning.latch 1).timer.isSome) = (true, true) := by
    decide +kernel
  obtain ⟨hheld, hturns⟩ := Prod.mk.inj hstate
  obtain ⟨hreleased, hfittings, hagain, hclock⟩ := everything_released hreachable.operated 5
  exact ⟨hreachable, hheld, hturns, hreleased, hfittings, hagain, hclock hreachable⟩

end Engine

end VirtualPad
