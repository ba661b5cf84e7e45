import VirtualPad.Proofs.BackedSlots

/-!
# What is built up stays

A binding that adds builds something up in its slots.  A binding with the reset option clears, when it
comes into effect, what was built up in its cell, no matter by whom.  Nothing else takes it away: where
no other binding clears, a binding that adds is seen just where it contributes, like all the others.
-/

namespace VirtualPad

namespace Turn

/-- Carrying out a response changes no slot of another binding, except that it may clear what was built
up in the cell of a binding with the reset option. -/
theorem held_perform_elsewhere (t : Turn) {id : Nat} {b : Binding}
    (hb : t.engine.bindings[id]? = some b) (hkeeping : t.engine.Keeping b)
    (hpresent : t.engine.activeUser < t.engine.userCount) (source : Descriptor) (user : User)
    (r : Response) (forced : Bool) {spot : Spot} {slot : Slot}
    (helsewhere : ¬ (b.slot = some slot ∧ t.engine.Drives b.mapping spot))
    (hspared : b.mapping.options.reset = true → spot.share true = .builtUp →
      ¬ t.engine.Drives b.mapping spot) :
    (t.perform id b.mapping source (t.targetOf b) user r forced).1.engine.held spot slot =
      t.engine.held spot slot := by
  have hrisen : (t.risen id b.mapping (t.targetOf b) user r).engine.held spot slot =
      t.engine.held spot slot := by
    unfold risen
    split
    · rcases held_rise_cases t id b.mapping (t.targetOf b) user spot slot with
        hsame | ⟨-, hreset, hshare, hcovers⟩
      · exact hsame
      · exact absurd (hcovers.mono (Engine.targetUsers_subset_slotUsers hpresent _))
          (hspared hreset hshare)
    · rfl
  by_cases hwrites : (t.targetOf b).isCommand = false ∧ r.emits = true
  · obtain ⟨b', h⟩ := responds_posed t hb (t.targetOf b) user r
    have hposed := held_posed t id b.mapping (t.targetOf b) user r spot slot
    rw [perform_of_writes t hwrites.1 hwrites.2]
    generalize t.posed id b.mapping (t.targetOf b) user r = posed at h hposed ⊢
    have hkeeping' := h.keeping hkeeping hpresent
    rw [← hrisen, ← hposed, ← targetOf_congr h.alone.layout h.mapping]
    -- What is written is written into the slot of the binding.
    refine (held_writeTarget posed h.binding hkeeping'.present _ _ _ spot slot).2 ?_
    rintro ⟨hslot, htouches⟩
    have hdrives := hkeeping'.drives htouches
    rw [h.mapping, Engine.drives_congr h.alone.layout] at hdrives
    exact helsewhere ⟨h.slot.symm.trans hslot, hdrives⟩
  · rw [engine_perform_of_not_writes t hwrites]
    exact hrisen

end Turn

namespace Engine

/-! ## §1 The invariant -/

/-- Another binding with the reset option drives the spot, so its presses clear what was built up
there. -/
def ClearedByOther (e : Engine) (id : Nat) (spot : Spot) : Prop :=
  ∃ other b, other ≠ id ∧ e.bindings[other]? = some b ∧ b.mapping.options.reset = true ∧
    e.Drives b.mapping spot

/-- No other binding clears what the binding contributes to the spot: it is not built up, or the others
there do not have the reset option. -/
def Secure (e : Engine) (id : Nat) (b : Binding) (spot : Spot) : Prop :=
  spot.share b.mapping.options.add = .builtUp → ¬ e.ClearedByOther id spot

variable {e e' : Engine} {id : Nat} {b : Binding} {spot : Spot}

theorem clearedByOther_congr (hlayout : e'.layout = e.layout) (id : Nat) (spot : Spot) :
    e'.ClearedByOther id spot ↔ e.ClearedByOther id spot := by
  refine exists_congr fun other => ?_
  simp only [drives_congr hlayout]
  constructor
  · rintro ⟨b', hne, hb', hreset, hdrives⟩
    obtain ⟨b, hb, hmapping, -⟩ := binding_congr hlayout.symm hb'
    rw [← hmapping] at hreset hdrives
    exact ⟨b, hne, hb, hreset, hdrives⟩
  · rintro ⟨b, hne, hb, hreset, hdrives⟩
    obtain ⟨b', hb', hmapping, -⟩ := binding_congr hlayout hb
    rw [← hmapping] at hreset hdrives
    exact ⟨b', hne, hb', hreset, hdrives⟩

/-- **What is built up stays**: a binding that adds is seen where it contributes, unless another one may
clear it. -/
structure Unspoilt (e : Engine) : Prop extends Mirrored e where
  seen (id : Nat) (b : Binding) (spot : Spot) (slot : Slot) : e.bindings[id]? = some b →
    b.mapping.options.add = true → b.slot = some slot → e.Drives b.mapping spot →
    e.Secure id b spot → e.Contributes b spot → (e.held spot slot).isSome = true

namespace Unspoilt

/-- If the slots hold no less than before, no binding may contribute that has not done so before. -/
theorem congr (he : Unspoilt e) (hmirrored : Mirrored e') (hlayout : e'.layout = e.layout)
    (hheld : ∀ spot slot, (e.held spot slot).isSome = true → (e'.held spot slot).isSome = true)
    (hless : ∀ (i : Nat) (c c' : Binding) spot, e.bindings[i]? = some c → e'.bindings[i]? = some c' →
      e'.Contributes c' spot → e.Contributes c spot) : Unspoilt e' := by
  refine ⟨hmirrored, fun i c' spot slot hc' hadd hown hdrives hsecure hcontributes => ?_⟩
  obtain ⟨c, hc, hmapping, hslot⟩ := binding_congr hlayout.symm hc'
  unfold Secure at hsecure
  rw [clearedByOther_congr hlayout, ← hmapping] at hsecure
  rw [← hmapping] at hadd hdrives
  exact hheld spot slot (he.seen i c spot slot hc hadd (hslot.trans hown)
    ((drives_congr hlayout _ _).mp hdrives) hsecure (hless i c c' spot hc hc' hcontributes))

theorem of_stake (he : Unspoilt e) (hmirrored : Mirrored e') (hlayout : e'.layout = e.layout)
    (hheld : ∀ spot slot, e'.held spot slot = e.held spot slot)
    (hstake : ∀ i, (e'.latch i).stake = (e.latch i).stake) : Unspoilt e' := by
  refine he.congr hmirrored hlayout (fun spot slot hlive => by rwa [hheld])
    fun i c c' spot hc hc' hcontributes => ?_
  obtain ⟨c'', hc'', hmapping, -⟩ := binding_congr hlayout hc
  obtain rfl := Option.some.inj (hc'.symm.trans hc'')
  have hsame := hstake i
  rw [latch_of_getElem? hc, latch_of_getElem? hc'] at hsame
  exact (contributes_congr hlayout hmapping hsame spot).mp hcontributes

theorem of_untimed (he : Unspoilt e) (hmirrored : Mirrored e') (h : e'.untimed = e.untimed) :
    Unspoilt e' :=
  he.of_stake hmirrored (layout_of_untimed h) (held_of_untimed h) (stake_of_untimed h)

/-- A step of one binding keeps the invariant, if it is seen where it contributes and clears nothing but
what it may clear. -/
theorem alone (he : Unspoilt e) (hmirrored : Mirrored e') {b' : Binding}
    (hb : e.bindings[id]? = some b) (h : Alone e e' id b) (hb' : e'.bindings[id]? = some b')
    (helsewhere : ∀ spot slot, ¬ (b.slot = some slot ∧ e.Drives b.mapping spot) →
      (b.mapping.options.reset = true → spot.share true = .builtUp → ¬ e.Drives b.mapping spot) →
      e'.held spot slot = e.held spot slot)
    (hseen : ∀ spot slot, b.slot = some slot → e.Drives b.mapping spot → e'.Contributes b' spot →
      (e'.held spot slot).isSome = true) : Unspoilt e' := by
  refine ⟨hmirrored, fun i c spot slot hc hadd hown hdrives hsecure hcontributes => ?_⟩
  obtain ⟨b₁, hb₁, hmapping, hslot⟩ := binding_congr h.layout hb
  obtain rfl := Option.some.inj (hb'.symm.trans hb₁)
  rw [drives_congr h.layout] at hdrives
  by_cases hi : i = id
  · subst hi
    obtain rfl := Option.some.inj (hb'.symm.trans hc)
    rw [hmapping] at hdrives
    exact hseen _ _ (hslot.symm.trans hown) hdrives hcontributes
  · rw [h.others i hi] at hc
    unfold Secure at hsecure
    rw [clearedByOther_congr h.layout, hadd] at hsecure
    have hnot : ¬ (b.slot = some slot ∧ e.Drives b.mapping spot) := fun hmine =>
      hi (he.mirrors.apart i id c b spot slot hc hb hown hmine.1 hdrives hmine.2)
    rw [helsewhere spot slot hnot fun hreset hshare hdrives' =>
      hsecure hshare ⟨id, b, Ne.symm hi, hb, hreset, hdrives'⟩]
    refine he.seen i c spot slot hc hadd hown hdrives ?_
      ((contributes_congr h.layout rfl rfl spot).mp hcontributes)
    unfold Secure
    rwa [hadd]

/-! ## §2 Moves -/

/-- A binding that has answered a pulse is seen where it contributes. -/
theorem act {t : Turn} (ht : Unspoilt t.engine) {pulse : Pulse} {forced : Bool} {latch : Latch}
    {r : Response} (hb : t.engine.bindings[id]? = some b) (hreaches : t.Reaches b pulse forced)
    (hrespond : b.latch.respond b.mapping (t.sourceOf b) (t.targetOf b) pulse.down pulse.strength
      forced = (latch, some r)) :
    Unspoilt (t.firstStep id b pulse forced latch (some r)).engine := by
  have hmirrored := ht.toMirrored.move (.firstStep hb hreaches hrespond)
  have hkeeping := ht.mirrors.keeping id b hb
  obtain ⟨b', hb', hmapping, -, hactive', hlit', -, halone, hheld⟩ :=
    hkeeping.firstStep ht.mirrors.present hb hrespond rfl
  refine ht.alone hmirrored hb halone hb' (fun spot slot hnot hspared => ?_)
    fun spot slot hown _ hcontributes => ?_
  · have hb₀ : (t.mapLatch id fun _ => latch).engine.bindings[id]? = some { b with latch } := by
      rw [Turn.engine_mapLatch, getElem?_mapLatch, if_pos rfl, hb]
      rfl
    have hlayout : (t.mapLatch id fun _ => latch).engine.layout = t.engine.layout :=
      layout_mapLatch t.engine id _
    exact Turn.held_perform_elsewhere (t.mapLatch id fun _ => latch) hb₀
      (hkeeping.mapLatch (Latch.respond_applied hrespond)) ht.mirrors.present _ _ r forced
      (fun h => hnot ⟨h.1, (drives_congr hlayout _ _).mp h.2⟩)
      fun hreset hshare h => hspared hreset hshare ((drives_congr hlayout _ _).mp h)
  · obtain ⟨hactive, hlit, htouches⟩ := hcontributes
    rw [hactive'] at hactive
    rw [hmapping, hlit'] at hlit
    -- What comes into effect is written.
    have hemits : r.emits = true := by
      rw [← Bool.not_eq_false]
      intro hsilent
      exact absurd ((Latch.respond_silent hrespond hsilent).1.symm.trans hactive) Bool.false_ne_true
    have hshines : (r.now && (!b.mapping.options.turbo || latch.lit)) = true := by
      cases hturbo : b.mapping.options.turbo with
      | false => simpa using hactive
      | true => simp [hactive, hlit hturbo]
    rw [(hheld spot slot hown).1 hemits htouches, if_pos hshines]
    rfl

theorem blink {t : Turn} (ht : Unspoilt t.engine) (hb : t.engine.bindings[id]? = some b)
    (huse : ∃ use ∈ t.engine.timers, use.binding = id ∧ use.kind = .turbo) :
    Unspoilt (t.blink id (t.sourceOf b) (t.targetOf b)).1.engine := by
  have hmirrored := ht.toMirrored.move (.blink hb huse)
  have hkeeping := ht.mirrors.keeping id b hb
  obtain ⟨b', hb', hmapping, -, hactive', hlit', happlied', halone, hheld⟩ :=
    Turn.blink_spec t hb hkeeping (t.sourceOf b) rfl
  refine ht.alone hmirrored hb halone hb' (fun spot slot hnot _ => ?_)
    fun spot slot hown _ hcontributes => ?_
  · exact (hheld spot slot).2 fun h => hnot ⟨h.1, hkeeping.drives h.2⟩
  · obtain ⟨use, hmem, rfl, hkind⟩ := huse
    have hturbo := (ht.mirrors.blinks use hmem b hb).mp hkind
    obtain ⟨hactive, hlit, htouches⟩ := hcontributes
    rw [hactive'] at hactive
    rw [hmapping, hlit'] at hlit
    unfold Touches at htouches
    rw [hmapping, happlied', descriptor_congr halone.layout] at htouches
    rw [(hheld spot slot).1 hown htouches, hactive, hlit hturbo]
    rfl

theorem goOn {t : Turn} (ht : Unspoilt t.engine) (hb : t.engine.bindings[id]? = some b) :
    Unspoilt (t.goOn id (t.targetOf b)).engine := by
  have hlayout := (Turn.Move.goOn hb).layout
  obtain ⟨pads, hengine, -⟩ := Turn.goOn_frame t id (t.targetOf b)
  have hheld := Turn.held_goOn t hb
  refine ht.congr (ht.toMirrored.move (.goOn hb)) hlayout (fun spot slot hlive => ?_)
    fun i c c' spot hc hc' hcontributes => ?_
  · rcases hheld spot slot with hsame | ⟨hbuilt, -⟩
    · rwa [hsame]
    · rw [hbuilt]
      rfl
  · rw [hengine] at hc'
    obtain rfl := Option.some.inj (hc.symm.trans hc')
    exact (contributes_congr hlayout rfl rfl spot).mp hcontributes

/-- **The moves** spoil nothing. -/
theorem move {t t' : Turn} (h : Turn.Move t t') (ht : Unspoilt t.engine) : Unspoilt t'.engine := by
  have hmirrored := ht.toMirrored.move h
  cases h with
  | @swallow id b pulse forced latch hb hreaches hrespond =>
    refine ht.of_stake hmirrored (layout_mapLatch _ id _) (fun _ _ => rfl)
      (latch_mapLatch_congr Latch.stake ?_)
    rw [latch_of_getElem? hb]
    exact Latch.respond_none hrespond
  | act hb hreaches hrespond => exact ht.act hb hreaches hrespond
  | plan was now hb => exact ht.of_untimed hmirrored (untimed_followPlan _ _ _)
  | stop id => exact ht.of_untimed hmirrored (untimed_stopTimer _ id)
  | @letGo id b hb hpad =>
    -- Without users a binding contributes to fewer spots.
    have hlayout := layout_mapLatch t.engine id fun l => { l with applied := [] }
    refine ht.congr hmirrored hlayout (fun _ _ hlive => hlive) fun i c c' spot hc hc' hcontributes => ?_
    rw [Turn.engine_mapLatch, getElem?_mapLatch, hc] at hc'
    obtain ⟨hactive, hlit, htouches⟩ := hcontributes
    replace htouches := (touches_congr hlayout c' spot).mp htouches
    split at hc'
    all_goals obtain rfl := Option.some.inj hc'
    · exact ⟨hactive, hlit, htouches.mono fun _ h => absurd h List.not_mem_nil⟩
    · exact ⟨hactive, hlit, htouches⟩
  | blink hb huse => exact ht.blink hb huse
  | goOn hb => exact ht.goOn hb
  | @turnStick id b hb =>
    obtain ⟨pads, hengine, -⟩ := Turn.turnStick_frame t id (t.targetOf b)
    refine ht.of_stake hmirrored (Turn.Move.turnStick hb).layout (Turn.held_turnStick t id _) fun i => ?_
    rw [hengine]
    rfl

/-! ## §3 At every reachable engine -/

/-- What has ended does not contribute. -/
theorem of_none (hmirrored : Mirrored e) (hnone : ∀ id, (e.latch id).active = false) : Unspoilt e := by
  refine ⟨hmirrored, fun id b spot slot hb _ _ _ _ hcontributes => ?_⟩
  have hup := hnone id
  rw [latch_of_getElem? hb] at hup
  exact absurd (hup.symm.trans hcontributes.1) Bool.false_ne_true

theorem chore (h : Chore e e') (he : Unspoilt e) : Unspoilt e' := by
  refine he.of_stake (he.toMirrored.chore h) h.layout ?_ ?_
  · cases h with
    | note | enable | activate | advance | remember => exact fun _ _ => rfl
    | label user pad hcells =>
      intro spot slot
      cases spot with
      | output control => rfl
      | pad other place =>
        unfold held view
        dsimp only
        rw [PadBank.view_set_sameCells e.pads hcells other place]
  · cases h with
    | note | enable | activate | advance | label => exact fun _ => rfl
    | remember id user => exact latch_mapLatch_congr Latch.stake rfl

end Unspoilt

/-- **Nothing an engine does spoils what was built up**, apart from what may clear it. -/
theorem unspoilt_stable (admits : Config → Prop) : Stable admits Unspoilt where
  move := Unspoilt.move
  feed room := Turn.feed_keeps Unspoilt.move (fun {_} {c} _ user down _ ht =>
    ht.of_stake ⟨ht.mirrors.mark c user down, ht.settled.mark c user down⟩
      (layout_setBoard _ c user down) (fun _ _ => rfl) fun _ => rfl) room
  chore := Unspoilt.chore
  force e time he := by
    have hnone := ActiveWithin.forceReleaseAll e time he.settled
    obtain ⟨hforced, hswitched⟩ := (mirrored_stable admits).force e time he.toMirrored
    have hup : ∀ id, ((e.forceReleaseAll time).latch id).active = false := fun id =>
      Bool.eq_false_iff.mpr (hnone.within id)
    exact ⟨.of_none hforced hup, .of_none hswitched hup⟩
  lapse {_ _ _ _ clock use _} hdue huse hb he := by
    refine he.of_stake ((mirrored_stable admits).lapse hdue huse hb he.toMirrored) ?_ ?_ ?_
    · exact (layout_of_untimed (untimed_lapse _ use)).trans rfl
    · exact fun spot slot => (held_of_untimed (untimed_lapse _ use) spot slot).trans rfl
    · exact fun i => (stake_of_untimed (untimed_lapse _ use) i).trans rfl
  stray hdue huse he :=
    he.of_stake ((mirrored_stable admits).stray hdue huse he.toMirrored) rfl (fun _ _ => rfl) fun _ => rfl
  install e config time hconfig he := by
    refine .of_none ((mirrored_stable admits).install e time hconfig he.toMirrored) fun id => ?_
    rw [install_latch]

theorem Operated.unspoilt {admits : Config → Prop} (he : Operated admits e) : Unspoilt e :=
  (unspoilt_stable admits).operated
    (fun _ clock he => he.of_stake (he.toMirrored.clock clock) rfl (fun _ _ => rfl) fun _ => rfl)
    (fun {config} _ => .of_none ⟨(assigned_install _ _ 0).mirrors, ActiveWithin.ofInstall _ _ 0⟩
      fun id => congrArg Latch.active (install_latch _ config 0 id)) he

/-- **Where nothing clears it, a binding is seen just where it contributes**, whether it adds or not. -/
theorem Unspoilt.shows (he : Unspoilt e) (hbacks : e.Backs b) (hb : e.bindings[id]? = some b)
    {slot : Slot} (hown : b.slot = some slot) (hdrives : e.Drives b.mapping spot)
    (hsecure : e.Secure id b spot) :
    (e.held spot slot).isSome = true ↔ e.Contributes b spot := by
  refine ⟨hbacks spot slot hown hdrives, fun hcontributes => ?_⟩
  cases hadd : b.mapping.options.add with
  | false => exact (he.mirrors.shows id b hb hadd spot slot hown hdrives).mpr hcontributes
  | true => exact he.seen id b spot slot hb hadd hown hdrives hsecure hcontributes

end Engine

end VirtualPad
