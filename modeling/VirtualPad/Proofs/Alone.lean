import VirtualPad.Proofs.Spots

/-!
# One binding at a time

Nothing that a binding does reaches further than its own slot and its own latch, except that it may
clear what others have built up.  `Alone` says of two engines that the second came from the first in
this way.  It goes with composition, so there is one lemma for each operation and one for carrying
out a whole response, `perform_spec`, which also says what is in the slot afterwards.

A response is carried out in up to three steps: a binding that comes into effect settles on its users
(`Turn.risen`), its strength is kept (`Turn.posed`), and the target is written.  `Responds` says what
holds of the binding after each of them.
-/

namespace VirtualPad

namespace Engine

/-! ## §1 What one binding leaves alone -/

/-- The engine has gone on, but only one binding has written, into its own slot and latch.  What was
built up elsewhere may have been cleared. -/
structure Alone (e e' : Engine) (id : Nat) (b : Binding) : Prop where
  layout : e'.layout = e.layout
  active : e'.activeUser = e.activeUser
  timers : e'.timers = e.timers
  outputs (c : Control) : (e.outputs[c]?).isSome → (e'.outputs[c]?).isSome
  others (i : Nat) : i ≠ id → e'.bindings[i]? = e.bindings[i]?
  elsewhere (spot : Spot) (slot : Slot) : ¬ (b.slot = some slot ∧ e.Drives b.mapping spot) →
    e'.held spot slot = e.held spot slot ∨
      e.held spot slot = some .builtUp ∧ e'.held spot slot = none
  here (spot : Spot) (slot : Slot) : b.slot = some slot → e.Drives b.mapping spot →
    e'.held spot slot = some .builtUp →
      e.held spot slot = some .builtUp ∨ b.mapping.options.add = true

namespace Alone

variable {e e' e'' : Engine} {id : Nat} {b : Binding}

theorem trans (h : Alone e e' id b) (h' : Alone e' e'' id b) : Alone e e'' id b where
  layout := h'.layout.trans h.layout
  active := h'.active.trans h.active
  timers := h'.timers.trans h.timers
  outputs c hc := h'.outputs c (h.outputs c hc)
  others i hi := (h'.others i hi).trans (h.others i hi)
  elsewhere spot slot hnot := by
    have hfirst := h.elsewhere spot slot hnot
    have hsecond := h'.elsewhere spot slot (by rwa [drives_congr h.layout])
    rcases hsecond with hsame | ⟨hbuilt, hnone⟩
    · rw [hsame]
      exact hfirst
    · rcases hfirst with hsame | ⟨hbuilt', -⟩
      · exact .inr ⟨hsame ▸ hbuilt, hnone⟩
      · exact .inr ⟨hbuilt', hnone⟩
  here spot slot hslot hdrives hbuilt := by
    rcases h'.here spot slot hslot ((drives_congr h.layout _ _).mpr hdrives) hbuilt with hbuilt' | hadd
    · exact h.here spot slot hslot hdrives hbuilt'
    · exact .inr hadd

/-- A latch that has changed, and pads and outputs that were written to. -/
theorem of_write {change : Latch → Latch} {pads : PadBank}
    {outputs : Std.TreeMap Control ButtonCell}
    (hengine : e' = (e.mapLatch id change).write pads outputs) (hcount : pads.count = e.pads.count)
    (houtputs : ∀ c : Control, (e.outputs[c]?).isSome → (e'.outputs[c]?).isSome)
    (helsewhere : ∀ spot slot, ¬ (b.slot = some slot ∧ e.Drives b.mapping spot) →
      e'.held spot slot = e.held spot slot ∨
        e.held spot slot = some .builtUp ∧ e'.held spot slot = none)
    (hhere : ∀ spot slot, b.slot = some slot → e.Drives b.mapping spot →
      e'.held spot slot = some .builtUp →
        e.held spot slot = some .builtUp ∨ b.mapping.options.add = true) : Alone e e' id b where
  layout := by
    rw [hengine, layout_write]
    · exact layout_mapLatch e id change
    · exact hcount
  active := by rw [hengine]; rfl
  timers := by rw [hengine]; rfl
  outputs := houtputs
  others i hi := by
    rw [hengine]
    exact (getElem?_mapLatch e id change i).trans (if_neg (Ne.symm hi))
  elsewhere := helsewhere
  here := hhere

theorem mapLatch (e : Engine) (id : Nat) (b : Binding) (change : Latch → Latch) :
    Alone e (e.mapLatch id change) id b := by
  have hwrite : e.mapLatch id change = (e.mapLatch id change).write e.pads e.outputs := rfl
  exact of_write hwrite rfl (fun _ h => h) (fun _ _ _ => .inl rfl) fun _ _ _ _ h => .inl h

/-- Only the mapping and the slot of the binding matter. -/
theorem congr {b' : Binding} (h : Alone e e' id b) (hmapping : b'.mapping = b.mapping)
    (hslot : b'.slot = b.slot) : Alone e e' id b' := by
  constructor
  · exact h.layout
  · exact h.active
  · exact h.timers
  · exact h.outputs
  · exact h.others
  · rw [hmapping, hslot]
    exact h.elsewhere
  · rw [hmapping, hslot]
    exact h.here

theorem refl (e : Engine) (id : Nat) (b : Binding) : Alone e e id b := by
  have h := mapLatch e id b fun l => l
  rwa [mapLatch_id] at h

end Alone

/-- The binding keeps to its slot: its users are among those on whose pads it has one, and the output
that it drives has a cell. -/
structure Keeping (e : Engine) (b : Binding) : Prop where
  within : ∀ user ∈ b.latch.applied, user ∈ e.slotUsers b.mapping.targetUser
  present : ∀ kind, (e.descriptor b.mapping.target).cell = .output kind →
    (e.outputs[b.mapping.target]?).isSome

/-- Binding and engine can go on, as long as the users have slots. -/
theorem Keeping.congr {e e' : Engine} {b b' : Binding} (h : e.Keeping b)
    (hlayout : e'.layout = e.layout)
    (houtputs : ∀ c : Control, (e.outputs[c]?).isSome → (e'.outputs[c]?).isSome)
    (hmapping : b'.mapping = b.mapping)
    (hwithin : ∀ user ∈ b'.latch.applied, user ∈ e.slotUsers b.mapping.targetUser) :
    e'.Keeping b' := by
  constructor
  · rw [hmapping, slotUsers_congr hlayout]
    exact hwithin
  · rw [hmapping, descriptor_congr hlayout]
    exact fun kind hkind => houtputs _ (h.present kind hkind)

/-- A binding that keeps to its slot writes to spots that it drives. -/
theorem Keeping.drives {e : Engine} {b : Binding} (h : e.Keeping b) {spot : Spot}
    (htouches : e.Touches b spot) : e.Drives b.mapping spot :=
  htouches.mono h.within

end Engine

/-! ## §2 The operations of a turn -/

namespace Turn

open Engine (Alone Keeping)

variable (t : Turn) {id : Nat} {b : Binding}

theorem isSome_outputs_writeTarget (source target : Descriptor) (down : Bool) (strength : Float)
    (c : Control) (hc : (t.engine.outputs[c]?).isSome) :
    (((t.writeTarget id source target down strength).1.engine.outputs)[c]?).isSome := by
  unfold writeTarget
  split
  · exact hc
  · dsimp only
    split
    · split <;> exact hc
    · split <;> exact hc
    · rw [engine_updatePads]
      exact hc
    · rw [engine_writeOutput]
      split
      · exact hc
      · unfold Engine.write
        dsimp only
        rw [Std.TreeMap.getElem?_insert]
        split
        · rfl
        · exact hc
    · exact hc

theorem writeTarget_alone (hb : t.engine.bindings[id]? = some b) (hkeeping : t.engine.Keeping b)
    (source : Descriptor) (down : Bool) (strength : Float) :
    Alone t.engine (t.writeTarget id source (t.targetOf b) down strength).1.engine id b := by
  obtain ⟨pads, outputs, hengine, hcount⟩ := writeTarget_frame t id source (t.targetOf b) down
    strength
  have hheld := held_writeTarget t hb hkeeping.present source down strength
  rw [← t.engine.mapLatch_id id] at hengine
  refine Alone.of_write hengine hcount (isSome_outputs_writeTarget t source _ down strength) ?_ ?_
  · intro spot slot hnot
    refine .inl ((hheld spot slot).2 ?_)
    rintro ⟨hslot, htouches⟩
    exact hnot ⟨hslot, hkeeping.drives htouches⟩
  · intro spot slot hslot hdrives hbuilt
    by_cases htouches : t.engine.Touches b spot
    · -- Only a binding that adds leaves something built up.
      rw [(hheld spot slot).1 hslot htouches] at hbuilt
      right
      cases hadd : b.mapping.options.add with
      | true => rfl
      | false =>
        rw [hadd, Spot.share_false] at hbuilt
        cases down <;> simp at hbuilt
    · rw [(hheld spot slot).2 fun h => htouches h.2] at hbuilt
      exact .inl hbuilt

theorem rise_alone (m : Mapping) (target : Descriptor) (user : User) :
    Alone t.engine (t.rise id m target user).engine id b := by
  obtain ⟨pads, hengine, hcount⟩ := rise_frame t id m target user
  have hheld := held_rise t id m target user
  refine Alone.of_write hengine hcount ?_ (fun spot slot _ => hheld spot slot) ?_
  · rw [hengine]
    exact fun _ h => h
  · intro spot slot _ _ hbuilt
    rcases hheld spot slot with hsame | ⟨hbuilt', -⟩
    · exact .inl (hsame ▸ hbuilt)
    · exact .inl hbuilt'

theorem goOn_alone (hb : t.engine.bindings[id]? = some b) (hkeeping : t.engine.Keeping b) :
    Alone t.engine (t.goOn id (t.targetOf b)).engine id b := by
  obtain ⟨pads, hengine, hcount⟩ := goOn_frame t id (t.targetOf b)
  have hheld := held_goOn t hb
  have hwrite := hengine
  rw [← t.engine.mapLatch_id id] at hwrite
  refine Alone.of_write hwrite hcount ?_ ?_ ?_
  · rw [hengine]
    exact fun _ h => h
  · intro spot slot hnot
    rcases hheld spot slot with hsame | ⟨-, -, hslot, htouches⟩
    · exact .inl hsame
    · exact absurd ⟨hslot, hkeeping.drives htouches⟩ hnot
  · intro spot slot _ _ hbuilt
    rcases hheld spot slot with hsame | ⟨-, hadd, -⟩
    · exact .inl (hsame ▸ hbuilt)
    · exact .inr hadd

theorem turnStick_alone (id : Nat) (b : Binding) (target : Descriptor) :
    Alone t.engine (t.turnStick id target).engine id b := by
  obtain ⟨pads, hengine, hcount⟩ := turnStick_frame t id target
  have hheld := held_turnStick t id target
  have hwrite := hengine
  rw [← t.engine.mapLatch_id id] at hwrite
  refine Alone.of_write hwrite hcount ?_ (fun spot slot _ => .inl (hheld _ _)) ?_
  · rw [hengine]
    exact fun _ h => h
  · intro spot slot _ _ hbuilt
    exact .inl (hheld spot slot ▸ hbuilt)

/-! ## §3 Carrying out a response -/

/-- What comes first when a response is carried out: a binding that comes into effect settles on its
users. -/
def risen (id : Nat) (m : Mapping) (target : Descriptor) (user : User) (r : Response) : Turn :=
  if r.now && !r.was then t.rise id m target user else t

/-- What comes next if the target is written: the strength is kept. -/
def posed (id : Nat) (m : Mapping) (target : Descriptor) (user : User) (r : Response) : Turn :=
  if r.now then (t.risen id m target user r).mapLatch id fun l => { l with strength := r.strength }
  else t.risen id m target user r

theorem perform_of_writes {m : Mapping} {target : Descriptor} {r : Response}
    (hcommand : target.isCommand = false) (hemits : r.emits = true) (source : Descriptor)
    (user : User) (forced : Bool) :
    (t.perform id m source target user r forced).1 =
      ((t.posed id m target user r).writeTarget id source target (r.now && (!m.options.turbo ||
        ((t.posed id m target user r).engine.latch id).lit)) r.strength).1 := by
  unfold perform posed risen
  dsimp only
  split
  · rename_i hcell
    simp [Descriptor.isCommand, hcell] at hcommand
  · rw [if_pos hemits]

theorem engine_perform_of_not_writes {m : Mapping} {target : Descriptor} {r : Response}
    (h : ¬ (target.isCommand = false ∧ r.emits = true)) (source : Descriptor) (user : User)
    (forced : Bool) :
    (t.perform id m source target user r forced).1.engine = (t.risen id m target user r).engine := by
  unfold perform risen
  dsimp only
  split
  · exact engine_giveCommand _ _ _ _ _
  · rename_i hcell
    rw [if_neg]
    intro hemits
    refine h ⟨?_, hemits⟩
    unfold Descriptor.isCommand
    split
    · exact absurd ‹_› (hcell _)
    · rfl

/-- In answer to a response only the binding itself has acted.  It keeps what the pulse has made of its
latch, and its users are those that it has settled on. -/
structure Responds (t t' : Turn) (id : Nat) (b b' : Binding) (r : Response) : Prop where
  binding : t'.engine.bindings[id]? = some b'
  mapping : b'.mapping = b.mapping
  slot : b'.slot = b.slot
  core : b'.latch.core = b.latch.core
  applied : b'.latch.applied = if r.now && !r.was then t.engine.targetUsers b.mapping.targetUser
    else b.latch.applied
  alone : Alone t.engine t'.engine id b

/-- A binding that has responded keeps to its slot. -/
theorem Responds.keeping {t t' : Turn} {b' : Binding} {r : Response} (h : Responds t t' id b b' r)
    (hkeeping : t.engine.Keeping b) (hactive : t.engine.activeUser < t.engine.userCount) :
    t'.engine.Keeping b' := by
  refine hkeeping.congr h.alone.layout h.alone.outputs h.mapping ?_
  rw [h.applied]
  split
  · exact Engine.targetUsers_subset_slotUsers hactive _
  · exact hkeeping.within

theorem responds_risen (hb : t.engine.bindings[id]? = some b) (target : Descriptor) (user : User)
    (r : Response) : ∃ b', Responds t (t.risen id b.mapping target user r) id b b' r := by
  unfold risen
  by_cases hrises : (r.now && !r.was) = true
  · obtain ⟨pads, hengine, -⟩ := rise_frame t id b.mapping target user
    let latch : Latch := { b.latch with
      sourceUser := user, applied := t.engine.targetUsers b.mapping.targetUser }
    rw [if_pos hrises]
    refine ⟨{ b with latch }, ?_, rfl, rfl, rfl, (if_pos hrises).symm, rise_alone t b.mapping target user⟩
    rw [hengine]
    simp only [Engine.write, Engine.getElem?_mapLatch, if_true, hb, Option.map_some]
    rfl
  · rw [if_neg hrises]
    exact ⟨b, hb, rfl, rfl, rfl, (if_neg hrises).symm, Alone.refl _ _ _⟩

theorem responds_posed (hb : t.engine.bindings[id]? = some b) (target : Descriptor) (user : User)
    (r : Response) : ∃ b', Responds t (t.posed id b.mapping target user r) id b b' r := by
  obtain ⟨b₁, h⟩ := responds_risen t hb target user r
  unfold posed
  split
  · refine ⟨{ b₁ with latch := { b₁.latch with strength := r.strength } }, ?_, h.mapping, h.slot, h.core,
      h.applied, ?_⟩
    · rw [engine_mapLatch, Engine.getElem?_mapLatch, if_pos rfl, h.binding]
      rfl
    · rw [engine_mapLatch]
      exact h.alone.trans (Alone.mapLatch _ id b _)
  · exact ⟨b₁, h⟩

/-- Coming into effect clears at most what was built up. -/
theorem held_risen (id : Nat) (m : Mapping) (target : Descriptor) (user : User) (r : Response)
    (spot : Spot) (slot : Slot) : (t.risen id m target user r).engine.held spot slot = t.engine.held spot slot ∨
      t.engine.held spot slot = some .builtUp ∧
        (t.risen id m target user r).engine.held spot slot = none := by
  unfold risen
  split
  · exact held_rise t id m target user spot slot
  · exact .inl rfl

theorem held_posed (id : Nat) (m : Mapping) (target : Descriptor) (user : User) (r : Response)
    (spot : Spot) (slot : Slot) : (t.posed id m target user r).engine.held spot slot =
      (t.risen id m target user r).engine.held spot slot := by
  unfold posed
  split <;> rfl

/-- Writing the target leaves the binding as it is. -/
theorem writeTarget_spec (hb : t.engine.bindings[id]? = some b) (hkeeping : t.engine.Keeping b)
    (source : Descriptor) (down : Bool) (strength : Float) {t' : Turn}
    (ht' : (t.writeTarget id source (t.targetOf b) down strength).1 = t') :
    t'.engine.bindings[id]? = some b ∧ Alone t.engine t'.engine id b ∧ ∀ spot slot,
      (b.slot = some slot → t.engine.Touches b spot → t'.engine.held spot slot =
        if down then some (spot.share b.mapping.options.add) else none) ∧
      (¬ (b.slot = some slot ∧ t.engine.Touches b spot) →
        t'.engine.held spot slot = t.engine.held spot slot) := by
  subst ht'
  obtain ⟨pads, outputs, hengine, -⟩ := writeTarget_frame t id source (t.targetOf b) down strength
  refine ⟨?_, writeTarget_alone t hb hkeeping source down strength,
    held_writeTarget t hb hkeeping.present source down strength⟩
  rw [hengine]
  exact hb

/-- A command has no slots to write to. -/
theorem not_isCommand_of_touches {spot : Spot} (h : t.engine.Touches b spot) :
    (t.targetOf b).isCommand = false := by
  have hneeds : (t.targetOf b).needsSlot = true := Descriptor.Covers.needsSlot h
  unfold Descriptor.isCommand
  split
  · simp_all [Descriptor.needsSlot]
  · rfl

/-- **Carrying out a response.** Only the binding itself writes.  It keeps what the pulse has made of
its latch, and its slot holds what the response asks for at the spots that it writes to.  At the
others it holds what it held before, unless that was built up and is cleared. -/
theorem perform_spec (hb : t.engine.bindings[id]? = some b) (hkeeping : t.engine.Keeping b)
    (hactive : t.engine.activeUser < t.engine.userCount) (source : Descriptor) (user : User)
    (r : Response) (forced : Bool) {t' : Turn}
    (ht' : (t.perform id b.mapping source (t.targetOf b) user r forced).1 = t') :
    ∃ b', Responds t t' id b b' r ∧
      ∀ spot slot, b.slot = some slot →
        (r.emits = true → t.engine.Touches b' spot → t'.engine.held spot slot =
          if r.now && (!b.mapping.options.turbo || b.latch.lit) then
            some (spot.share b.mapping.options.add) else none) ∧
        (¬ (r.emits = true ∧ t.engine.Touches b' spot) →
          t'.engine.held spot slot = t.engine.held spot slot ∨
            t.engine.held spot slot = some .builtUp ∧ t'.engine.held spot slot = none) := by
  have hrisen := held_risen t id b.mapping (t.targetOf b) user r
  by_cases hwrites : (t.targetOf b).isCommand = false ∧ r.emits = true
  · -- The target is written once the binding has settled on its users.
    obtain ⟨b', h⟩ := responds_posed t hb (t.targetOf b) user r
    have hposed := held_posed t id b.mapping (t.targetOf b) user r
    rw [perform_of_writes t hwrites.1 hwrites.2] at ht'
    generalize t.posed id b.mapping (t.targetOf b) user r = posed at h hposed ht'
    have hlit : (posed.engine.latch id).lit = b.latch.lit := by
      rw [Engine.latch_of_getElem? h.binding]
      exact (congrArg Latch.lit h.core :)
    rw [hlit, ← targetOf_congr h.alone.layout h.mapping] at ht'
    obtain ⟨hb', halone, hheld⟩ := writeTarget_spec posed h.binding (h.keeping hkeeping hactive) source
      (r.now && (!b.mapping.options.turbo || b.latch.lit)) r.strength ht'
    refine ⟨b', { h with
      binding := hb', alone := h.alone.trans (halone.congr h.mapping.symm h.slot.symm) }, ?_⟩
    intro spot slot hown
    have htouches : posed.engine.Touches b' spot ↔ t.engine.Touches b' spot :=
      Engine.touches_congr h.alone.layout _ _
    constructor
    · intro _ hnow
      rw [(hheld spot slot).1 (h.slot.trans hown) (htouches.mpr hnow), h.mapping]
    · intro hnot
      rw [(hheld spot slot).2 fun hnow => hnot ⟨hwrites.2, htouches.mp hnow.2⟩, hposed]
      exact hrisen spot slot
  · -- Nothing is written, so the binding has only settled on its users.
    obtain ⟨b', h⟩ := responds_risen t hb (t.targetOf b) user r
    have hsame := (congrArg Turn.engine ht').symm.trans
      (engine_perform_of_not_writes t hwrites source user forced)
    refine ⟨b', ⟨by rw [hsame]; exact h.binding, h.mapping, h.slot, h.core, h.applied,
      by rw [hsame]; exact h.alone⟩, ?_⟩
    intro spot slot _
    rw [hsame]
    refine ⟨fun hemits htouches => absurd ⟨?_, hemits⟩ hwrites, fun _ => hrisen spot slot⟩
    rw [← targetOf_congr rfl h.mapping]
    exact not_isCommand_of_touches t htouches

/-- **Blinking.** Only the binding itself writes.  It takes the other phase, and its slot holds what goes
with that at the spots that it writes to. -/
theorem blink_spec (hb : t.engine.bindings[id]? = some b) (hkeeping : t.engine.Keeping b)
    (source : Descriptor) {t' : Turn} (ht' : (t.blink id source (t.targetOf b)).1 = t') :
    ∃ b', t'.engine.bindings[id]? = some b' ∧ b'.mapping = b.mapping ∧ b'.slot = b.slot ∧
      b'.latch.active = b.latch.active ∧ b'.latch.lit = !b.latch.lit ∧
      b'.latch.applied = b.latch.applied ∧ Alone t.engine t'.engine id b ∧
      ∀ spot slot,
        (b.slot = some slot → t.engine.Touches b spot → t'.engine.held spot slot =
          if b.latch.active && !b.latch.lit then some (spot.share b.mapping.options.add) else none) ∧
        (¬ (b.slot = some slot ∧ t.engine.Touches b spot) →
          t'.engine.held spot slot = t.engine.held spot slot) := by
  -- First the light changes, which touches no slot.
  obtain ⟨dimmed, hdimmed⟩ : ∃ dimmed, (t.mapLatch id fun l => { l with lit := !l.lit }) = dimmed :=
    ⟨_, rfl⟩
  obtain ⟨b₁, hb₁⟩ : ∃ b₁ : Binding, { b with latch := { b.latch with lit := !b.latch.lit } } = b₁ :=
    ⟨_, rfl⟩
  have halone₁ : Alone t.engine dimmed.engine id b := by
    rw [← hdimmed, engine_mapLatch]
    exact Alone.mapLatch t.engine id b _
  have hin : dimmed.engine.bindings[id]? = some b₁ := by
    rw [← hdimmed, engine_mapLatch, Engine.getElem?_mapLatch, if_pos rfl, hb, ← hb₁]
    rfl
  have hmapping : b₁.mapping = b.mapping := by rw [← hb₁]
  have hslot : b₁.slot = b.slot := by rw [← hb₁]
  have happlied : b₁.latch.applied = b.latch.applied := by rw [← hb₁]
  have hactive : b₁.latch.active = b.latch.active := by rw [← hb₁]
  have hlit : b₁.latch.lit = !b.latch.lit := by rw [← hb₁]
  have hheld₁ : ∀ spot slot, dimmed.engine.held spot slot = t.engine.held spot slot := by
    rw [← hdimmed]
    exact fun _ _ => rfl
  -- Then a command is left as it is, and anything else is written anew.
  unfold blink at ht'
  rw [hdimmed] at ht'
  dsimp only at ht'
  split at ht'
  · rename_i hcommand
    subst ht'
    refine ⟨b₁, hin, hmapping, hslot, hactive, hlit, happlied, halone₁,
      fun spot slot => ⟨fun _ htouches => ?_, fun _ => hheld₁ spot slot⟩⟩
    rw [not_isCommand_of_touches t htouches] at hcommand
    contradiction
  · have hkeeping₁ : dimmed.engine.Keeping b₁ :=
      hkeeping.congr halone₁.layout halone₁.outputs hmapping (happlied ▸ hkeeping.within)
    rw [Engine.latch_of_getElem? hin, hactive, hlit, ← targetOf_congr halone₁.layout hmapping] at ht'
    obtain ⟨hwritten, halone₂, hheld⟩ := writeTarget_spec dimmed hin hkeeping₁ source
      (b.latch.active && !b.latch.lit) b₁.latch.strength ht'
    have htouches : ∀ spot, dimmed.engine.Touches b₁ spot ↔ t.engine.Touches b spot := by
      intro spot
      unfold Engine.Touches
      rw [happlied, hmapping, Engine.descriptor_congr halone₁.layout]
    refine ⟨b₁, hwritten, hmapping, hslot, hactive, hlit, happlied,
      halone₁.trans (halone₂.congr hmapping.symm hslot.symm), fun spot slot => ?_⟩
    have hnow := hheld spot slot
    rw [hslot, hmapping, htouches, hheld₁] at hnow
    exact hnow

end Turn

end VirtualPad
