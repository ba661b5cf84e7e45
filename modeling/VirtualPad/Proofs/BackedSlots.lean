import VirtualPad.Proofs.CellsMirror
import VirtualPad.Proofs.Rests

/-!
# What is built up is backed

What a binding that adds has built up may be cleared by another one, so its slot may hold less than
the binding contributes.  It never holds more: whatever a slot of a binding holds, added or not, the
binding is in effect, lit if it blinks, and written to the user whose pad it is.  So the end of a
binding empties its slots, and nothing stays behind on any pad.

Building up goes on with a timer.  It would leave something behind if it went on for a binding that
has ended, and that takes more than the moves say: a timer goes off between two turns, and by then a
binding that has ended has no users left.
-/

namespace VirtualPad

namespace Engine

/-! ## §1 The invariant -/

/-- The binding backs what its slots hold: it contributes there. -/
def Backs (e : Engine) (b : Binding) : Prop :=
  ∀ spot slot, b.slot = some slot → e.Drives b.mapping spot →
    (e.held spot slot).isSome = true → e.Contributes b spot

/-- **What the slots hold is backed**, also where bindings add. -/
structure Backed (e : Engine) : Prop extends Mirrored e where
  backs (id : Nat) (b : Binding) : e.bindings[id]? = some b → e.Backs b

namespace Backed

variable {e e' : Engine} {t : Turn} {id : Nat} {b : Binding}

/-- In the same layout it is enough that the slots hold no more than before. -/
theorem congr (he : Backed e) (hmirrored : Mirrored e') (hlayout : e'.layout = e.layout)
    (hheld : ∀ spot slot, (e'.held spot slot).isSome = true → (e.held spot slot).isSome = true)
    (hstake : ∀ i, (e'.latch i).stake = (e.latch i).stake) : Backed e' := by
  refine ⟨hmirrored, fun i c' hc' spot slot hown hdrives hlive => ?_⟩
  obtain ⟨c, hc, hmapping, hslot⟩ := binding_congr hlayout.symm hc'
  have hsame := hstake i
  rw [latch_of_getElem? hc, latch_of_getElem? hc'] at hsame
  rw [contributes_congr hlayout hmapping.symm hsame]
  rw [← hmapping, drives_congr hlayout] at hdrives
  exact he.backs i c hc spot slot (hslot.trans hown) hdrives (hheld spot slot hlive)

theorem of_untimed (he : Backed e) (hmirrored : Mirrored e') (h : e'.untimed = e.untimed) :
    Backed e' := by
  refine he.congr hmirrored (layout_of_untimed h) (fun spot slot hlive => ?_) (stake_of_untimed h)
  rwa [held_of_untimed h] at hlive

/-- A step of one binding keeps the invariant, if that binding backs its slots. -/
theorem alone (he : Backed e) (hmirrored : Mirrored e') {b' : Binding}
    (hb : e.bindings[id]? = some b) (h : Alone e e' id b) (hb' : e'.bindings[id]? = some b')
    (hbacks : e'.Backs b') : Backed e' := by
  refine ⟨hmirrored, fun i c hc => ?_⟩
  by_cases hi : i = id
  · subst hi
    obtain rfl : c = b' := Option.some.inj (hc.symm.trans hb')
    exact hbacks
  · -- No other binding has lent its slot to this one.
    rw [h.others i hi] at hc
    intro spot slot hown hdrives hlive
    rw [drives_congr h.layout] at hdrives
    have hnot : ¬ (b.slot = some slot ∧ e.Drives b.mapping spot) := fun hmine =>
      hi (he.mirrors.apart i id c b spot slot hc hb hown hmine.1 hdrives hmine.2)
    rcases h.elsewhere spot slot hnot with hsame | ⟨-, hnone⟩
    · rw [hsame] at hlive
      rw [contributes_congr h.layout rfl rfl]
      exact he.backs i c hc spot slot hown hdrives hlive
    · rw [hnone] at hlive
      contradiction

theorem acts (he : Backed e) (hmirrored : Mirrored e') {b' : Binding}
    (hb : e.bindings[id]? = some b) (h : Acts e e' id b b') : Backed e' := by
  refine he.alone hmirrored hb h.alone h.after fun spot slot hown hdrives hlive => ?_
  rw [h.slot] at hown
  rw [h.mapping, drives_congr h.alone.layout] at hdrives
  rcases h.seen spot slot hown hdrives with hseen | ⟨hsame, hkept | ⟨-, hnone⟩⟩
  · exact hseen.mp hlive
  · rw [hsame]
    rw [hkept] at hlive
    exact he.backs id b hb spot slot hown hdrives hlive
  · rw [hnone] at hlive
    contradiction

/-! ## §2 One binding -/

theorem firstStep (ht : Backed t.engine) {pulse : Pulse} {forced : Bool} {latch : Latch}
    {response : Option Response} (hb : t.engine.bindings[id]? = some b)
    (hreaches : t.Reaches b pulse forced)
    (hrespond : b.latch.respond b.mapping (t.sourceOf b) (t.targetOf b) pulse.down pulse.strength
      forced = (latch, response)) :
    Backed (t.firstStep id b pulse forced latch response).engine := by
  have hmirrored := ht.toMirrored.move (.firstStep hb hreaches hrespond)
  cases response with
  | none =>
    refine ht.congr hmirrored (layout_mapLatch _ id _) (fun _ _ hlive => hlive)
      (latch_mapLatch_congr Latch.stake ?_)
    rw [latch_of_getElem? hb]
    exact Latch.respond_none hrespond
  | some r =>
    obtain ⟨b', hacts⟩ := ht.mirrors.toSlotsOwned.act hb hrespond
    exact ht.acts hmirrored hb hacts

/-- Settling leaves the slots alone; a binding lets go of its users when it has ended. -/
theorem settle (ht : Backed t.engine) {r : Response} (hb : t.engine.bindings[id]? = some b)
    (hended : (t.targetOf b).padCell?.isSome → r.now = false → b.latch.active = false) :
    Backed (t.settle id b.mapping (t.sourceOf b) (t.targetOf b) r).engine := by
  have hplan : Turn.Move t _ := .plan r.was r.now hb
  have hplanned := ht.of_untimed (ht.toMirrored.move hplan) (untimed_followPlan _ _ _)
  have hlatch := stake_of_untimed (untimed_followPlan t.engine id
    (b.mapping.timerPlan (t.sourceOf b) (t.targetOf b) t.engine.settings r.was r.now)) id
  obtain ⟨b', hb', hmapping, -⟩ := binding_congr hplan.layout hb
  have htarget := Turn.targetOf_congr hplan.layout hmapping
  unfold Turn.settle
  dsimp only
  split
  · exact hplanned
  · rename_i hnow
    have hactive : b'.latch.active = b.latch.active := by
      rw [← latch_of_getElem? hb', ← latch_of_getElem? hb]
      exact congrArg Prod.fst hlatch
    generalize (t.mapEngine fun e => e.followPlan id _) = planned at hplanned hb' htarget ⊢
    have hpad : (planned.targetOf b').padCell?.isSome → b'.latch.active = false := by
      rw [htarget, hactive]
      exact fun hcell => hended hcell (by simpa using hnow)
    have hafter : (planned.engine.mapLatch id fun l => { l with applied := [] }).bindings[id]? =
        some { b' with latch := { b'.latch with applied := [] } } := by
      rw [getElem?_mapLatch, if_pos rfl, hb']
      rfl
    have halone := Alone.mapLatch planned.engine id b' fun l => { l with applied := [] }
    refine hplanned.alone (hplanned.toMirrored.move (.letGo hb' hpad)) hb' halone hafter
      fun spot slot hown hdrives hlive => ?_
    have hbefore := hplanned.backs id b' hb' spot slot hown hdrives hlive
    cases spot with
    | output control => exact hbefore
    | pad user place =>
      -- On a pad the slot of what has ended is empty.
      obtain ⟨⟨cell, hcell, -⟩, -⟩ := hdrives
      have htargetCell : (planned.targetOf b').cell = .pad cell := hcell
      have hup := hpad (by simp [Descriptor.padCell?, htargetCell])
      exact absurd (hup.symm.trans hbefore.1) (by decide)

/-- **Running a binding** keeps what its slots hold backed. -/
theorem runBinding {room : Nat}
    (hbelow : ∀ t c pulse, Backed t.engine → Backed (Turn.feed room t c pulse).1.engine)
    (t : Turn) (id : Nat) (pulse : Pulse) (forced : Bool) (ht : Backed t.engine) :
    Backed (t.runBinding (Turn.feed room) id pulse forced).1.engine := by
  refine Turn.runBinding_cases (P := fun t' => Backed t'.engine) (fun _ => ht)
    (fun b latch hb hreaches hrespond => ht.firstStep hb hreaches hrespond)
    fun b latch r hb hreaches hrespond => ?_
  have hfirst := ht.firstStep hb hreaches hrespond
  have hlayout := (Turn.Move.firstStep hb hreaches hrespond).layout
  have hactive := Turn.active_firstStep hb hrespond
  have hecho : ∀ echo, t.firstEcho id b pulse forced latch (some r) = some echo →
      (t.targetOf b).cell = .output .var := fun echo h => (Turn.perform_echo _ h).1
  generalize t.firstStep id b pulse forced latch (some r) = acted at hfirst hlayout hactive ⊢
  generalize t.firstEcho id b pulse forced latch (some r) = echo at hecho ⊢
  have hrelayed : Backed (Turn.relay (Turn.feed room) b.mapping.target acted echo).engine := by
    cases echo with
    | none => exact hfirst
    | some echo => exact hbelow acted _ echo hfirst
  have hsame : (Turn.relay (Turn.feed room) b.mapping.target acted echo).engine.layout =
      t.engine.layout := by
    cases echo with
    | none => exact hlayout
    | some echo => exact (Turn.feed_layout room acted _ echo).trans hlayout
  obtain ⟨b', hb', hmapping, -⟩ := binding_congr hsame hb
  have htarget := Turn.targetOf_congr hsame hmapping
  rw [← htarget, ← Turn.sourceOf_congr hsame hmapping]
  nth_rewrite 2 [← hmapping]
  refine hrelayed.settle hb' fun hcell hnow => ?_
  -- What is written to a pad echoes nothing, so the binding is as its first step has left it.
  cases echo with
  | none =>
    rw [← latch_of_getElem? hb']
    exact hactive.trans hnow
  | some echo =>
    rw [htarget] at hcell
    simp [Descriptor.padCell?, hecho echo rfl] at hcell

/-- **A source that moves** keeps what the slots hold backed, however far the cascade goes. -/
theorem feed (room : Nat) (t : Turn) (c : Control) (pulse : Pulse) (ht : Backed t.engine) :
    Backed (Turn.feed room t c pulse).1.engine :=
  Turn.feed_rel (R := fun t t' => Backed t.engine → Backed t'.engine) (fun _ ht => ht)
    (fun h h' ht => h' (h ht))
    (fun _ c user down ht => ht.congr
      ⟨ht.mirrors.mark c user down, ht.settled.mark c user down⟩ (layout_setBoard _ c user down)
      (fun _ _ hlive => hlive) fun _ => rfl)
    (fun _ hbelow t id pulse forced => runBinding hbelow t id pulse forced) room t c pulse ht

/-! ## §3 Ticks -/

/-- Going on builds up something that is backed, as long as what has ended has no users. -/
theorem goOn (ht : Backed t.engine) (hb : t.engine.bindings[id]? = some b)
    (hturbo : b.mapping.options.turbo = false)
    (hidle : b.latch.active = false → b.latch.applied = []) :
    Backed (t.goOn id (t.targetOf b)).engine := by
  have halone := Turn.goOn_alone t hb (ht.mirrors.keeping id b hb)
  obtain ⟨pads, hengine, -⟩ := Turn.goOn_frame t id (t.targetOf b)
  have hheld := Turn.held_goOn t hb
  have hmirrored := ht.toMirrored.move (.goOn hb)
  generalize t.goOn id (t.targetOf b) = gone at halone hengine hheld hmirrored ⊢
  have hafter : gone.engine.bindings[id]? = some b := by
    rw [hengine]
    exact hb
  -- Its own slot is all that is written, and only as long as it is in effect.
  refine ht.alone hmirrored hb halone hafter fun spot slot hown hdrives hlive => ?_
  rw [drives_congr halone.layout] at hdrives
  rw [contributes_congr halone.layout rfl rfl]
  have hkept := ht.backs id b hb spot slot hown hdrives
  cases spot with
  | output control =>
    rw [hengine] at hlive
    exact hkept hlive
  | pad user place =>
    rcases hheld (.pad user place) slot with hsame | ⟨-, -, -, htouches⟩
    · exact hkept (hsame ▸ hlive)
    · refine ⟨?_, fun h => absurd (hturbo.symm.trans h) (by decide), htouches⟩
      rw [← Bool.not_eq_false]
      intro hup
      have huser := htouches.2
      rw [hidle hup] at huser
      exact absurd huser List.not_mem_nil

/-- **A timer that goes off** keeps what the slots hold backed. -/
theorem tick (ht : Backed t.engine) (hrests : RestsWithin (fun _ => False) t.engine) {use : TimerUse}
    (huse : use ∈ t.engine.timers) : Backed (t.tick use).engine := by
  -- To let a timer lapse gives no slot away, and what blinks or goes on keeps its timer.
  have hlapsed : Backed (t.mapEngine fun e => e.lapse use).engine :=
    ht.of_untimed ⟨ht.mirrors.lapse huse, ht.settled.of_untimed (untimed_lapse _ use)⟩
      (untimed_lapse _ use)
  have hlayout := layout_of_untimed (untimed_lapse t.engine use)
  have hkeeps : use.kind = .turbo ∨ use.kind = .repeating →
      (t.mapEngine fun e => e.lapse use) = t := by
    rintro (hkind | hkind) <;> simp [Turn.mapEngine, Engine.lapse, hkind]
  unfold Turn.tick
  dsimp only
  cases hb : t.engine.bindings[use.binding]? with
  | none => exact ht
  | some b =>
    cases hkind : use.kind with
    | turbo =>
      dsimp only
      rw [hkeeps (.inl hkind)]
      have hblink : Turn.Move t _ := .blink hb ⟨use, huse, rfl, hkind⟩
      obtain ⟨b', hacts⟩ := ht.mirrors.toSlotsOwned.blink hb ⟨use, huse, rfl, hkind⟩
      have hblinked := ht.acts (ht.toMirrored.move hblink) hb hacts
      change Backed (t.blink use.binding (t.engine.descriptor b.mapping.source)
        (t.engine.descriptor b.mapping.target)).1.engine at hblinked
      generalize t.blink use.binding (t.engine.descriptor b.mapping.source)
        (t.engine.descriptor b.mapping.target) = blinked at hblinked ⊢
      obtain ⟨blinked, echo⟩ := blinked
      cases echo with
      | none => exact hblinked
      | some echo => exact feed cascadeRoom blinked _ echo hblinked
    | release => exact runBinding (feed cascadeRoom) _ _ _ _ hlapsed
    | repeating =>
      dsimp only
      rw [hkeeps (.inr hkind)]
      -- What blinks has another timer, and what has ended has no users.
      have hturbo : b.mapping.options.turbo = false := by
        have hblinks := ht.mirrors.blinks use huse b hb
        simpa [hkind] using hblinks
      refine ht.goOn hb hturbo fun hup => ?_
      have husers := hrests.users use.binding (fun h => h)
      rw [latch_of_getElem? hb] at husers
      exact husers hup
    | rotate =>
      dsimp only
      change (t.mapEngine fun e => e.lapse use).engine.layout = _ at hlayout
      generalize (t.mapEngine fun e => e.lapse use) = lapsed at hlapsed hlayout ⊢
      obtain ⟨b', hb', hmapping, -⟩ := binding_congr hlayout hb
      have hturn : Turn.Move lapsed _ := .turnStick hb'
      rw [Turn.targetOf_congr hlayout hmapping] at hturn
      have hmirrored := hlapsed.toMirrored.move hturn
      refine hlapsed.congr hmirrored hturn.layout (fun spot slot hlive => ?_) fun i => ?_
      · rwa [Turn.held_turnStick] at hlive
      · obtain ⟨pads, hengine, -⟩ := Turn.turnStick_frame lapsed use.binding (t.targetOf b)
        change ((lapsed.turnStick use.binding (t.targetOf b)).engine.latch i).stake = _
        rw [hengine]
        rfl
    | keyRepeatDelay | keyRepeat =>
      dsimp only
      rw [Turn.engine_repeatKey]
      exact hlapsed

/-! ## §4 Between any two operations -/

theorem chore (h : Chore e e') (he : Backed e) : Backed e' := by
  refine he.congr (he.toMirrored.chore h) h.layout ?_ ?_
  · cases h with
    | note | enable | activate | advance | remember => exact fun _ _ hlive => hlive
    | label user pad hcells =>
      intro spot slot hlive
      cases spot with
      | output control => exact hlive
      | pad other place =>
        unfold held view at hlive ⊢
        dsimp only at hlive ⊢
        rwa [PadBank.view_set_sameCells e.pads hcells other place] at hlive
  · cases h with
    | note | enable | activate | advance | label => exact fun _ => rfl
    | remember id user => exact latch_mapLatch_congr Latch.stake rfl

theorem forceReleases (ids : List Nat) (ht : Backed t.engine) :
    Backed (ids.foldl Engine.forceRelease t).engine := by
  refine Turn.foldl_keeps _ (fun t id ht => ?_) t ids ht
  unfold Engine.forceRelease
  have hreleased : Backed (if (t.engine.latch id).isLatched then t.release Turn.listen id
      else t).engine := by
    split
    · exact runBinding (feed cascadeRoom) t id _ true ht
    · exact ht
  exact hreleased.of_untimed (hreleased.toMirrored.move (.stop id)) (untimed_stopTimer _ id)

theorem forceReleaseAll (he : Backed e) (time : Nat) : Backed (e.forceReleaseAll time) := by
  have hreleased := forceReleases (t := { engine := e, time }) (List.range e.bindings.size) he
  refine Turn.commit_keeps chore _ ?_
  refine hreleased.congr (he.toMirrored.emptied time _) ?_ ?_ ?_
  · rw [Turn.engine_updatePads]
    exact layout_write _ _ (PadBank.count_change _ _ _)
  · intro spot slot hlive
    rw [Turn.engine_updatePads] at hlive
    rcases held_emptied _ _ spot slot with hsame | hnone
    · exact hsame ▸ hlive
    · exact absurd (hnone ▸ hlive) (by decide)
  · rw [Turn.engine_updatePads]
    exact fun _ => rfl

theorem deed (h : Deed e e') (hrests : RestsWithin (fun _ => False) e) (he : Backed e) :
    Backed e' := by
  have hmirrored : Mirrored e' :=
    h.keeps_stable (mirrored_stable fun _ => True) (fun _ clock he => he.clock clock) he.toMirrored
  cases h with
  | duty h =>
    cases h with
    | errand h =>
      cases h with
      | take | forward | enable | activate | pass =>
        exact he.congr hmirrored rfl (fun _ _ hlive => hlive) fun _ => rfl
      | remember id user => exact he.chore (.remember e id user)
    | switchOff time =>
      exact (he.forceReleaseAll time).congr hmirrored rfl (fun _ _ hlive => hlive) fun _ => rfl
    | connect user time =>
      refine Turn.commit_keeps chore _ ?_
      rw [Turn.engine_updatePad]
      exact he.chore (.label user _ ⟨rfl, rfl, rfl⟩)
  | feed c pulse time =>
    exact Turn.commit_keeps chore _ (feed _ _ c pulse (he.chore (.note e e.queue e.remainder time
      e.journal.snapshots e.journal.events)))
  | @expire token use huse time =>
    exact Turn.commit_keeps chore _ (tick (t := { engine := _, time })
      (he.chore (.note e e.queue e.remainder time e.journal.snapshots e.journal.events))
      (hrests.congr rfl fun _ => rfl) (List.mem_of_find?_eq_some huse))
  | release time => exact he.forceReleaseAll time

theorem ofInstall (e : Engine) (config : Config) (time : Nat) :
    Backed (e.install config time) := by
  have hassigned := assigned_install e config time
  refine ⟨⟨hassigned.mirrors, ActiveWithin.ofInstall e config time⟩, ?_⟩
  intro id b _ spot slot _ _ hlive
  rw [hassigned.empty] at hlive
  contradiction

end Backed

/-- The slots are backed, and what that rests on holds as well. -/
structure WellBacked (e : Engine) : Prop where
  backed : Backed e
  rests : RestsWithin (fun _ => False) e
  known : TimersKnown e

theorem WellBacked.deed {e e' : Engine} (h : Deed e e') (he : WellBacked e) : WellBacked e' :=
  ⟨he.backed.deed h he.rests, he.rests.deed h he.known,
    h.keeps_stable (timersKnown_stable fun _ => True) (fun _ _ he => he) he.known⟩

theorem Operated.wellBacked {admits : Config → Prop} {e : Engine} (he : Operated admits e) :
    WellBacked e := by
  refine he.of_deeds (fun hconfig => ?_) (fun h he => he.deed h) fun {e _} hconfig _ hfreed => ?_
  · exact ⟨.ofInstall _ _ 0, .ofInstall _ _ 0, (Operated.start hconfig).timersKnown⟩
  · exact ⟨.ofInstall _ _ _, .ofInstall _ _ _,
      (timersKnown_stable admits).install _ e.lastTime hconfig hfreed.known⟩

/-- **Between any two operations the slots hold nothing but what their bindings contribute.** -/
theorem Operated.backed {admits : Config → Prop} {e : Engine} (he : Operated admits e) :
    Backed e := he.wellBacked.backed

end Engine

end VirtualPad
