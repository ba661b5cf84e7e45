import VirtualPad.Proofs.CellsMirror
import VirtualPad.Proofs.Fittings

/-!
# Who owns which slot

Mappings are served in the order of declaration, and each claims the lowest slot that no mapping
before it has claimed in any of the pools that it shares with them.  A mapping that finds all of them
claimed is left without.  The masks of the pools say no more and no less than who has claimed what.

None of this changes until the next configuration is installed, since no deed changes the owners of
slots.  And a mapping that is left without a slot is inert: it accepts no pulse, so it never comes
into effect and keeps no event from the system.
-/

namespace VirtualPad

namespace Mask

/-- All places below the lowest free one are taken. -/
theorem has_of_lt_lowestFree {m : Mask} {place lower : Fin maskWidth}
    (h : m.lowestFree? = some place) (hlower : lower < place) : m.has lower = true := by
  obtain ⟨-, i, hi, hplace, hbefore⟩ := List.find?_eq_some_iff_getElem.mp h
  rw [List.getElem_finRange] at hplace
  have hindex : lower.val < i := by
    rw [← hplace] at hlower
    exact hlower
  simpa using hbefore lower.val hindex

/-- There is no free place just if all are taken. -/
theorem lowestFree_eq_none {m : Mask} :
    m.lowestFree? = Option.none ↔ ∀ place : Fin maskWidth, m.has place = true := by
  unfold lowestFree?
  rw [List.find?_eq_none]
  constructor
  · intro h place
    simpa using h place (List.mem_finRange place)
  · intro h place _
    simp [h place]

end Mask

namespace Engine

variable {e e' : Engine}

/-! ## §1 The order of claims -/

/-- A mapping declared before has claimed the slot, in a pool that `m` claims as well. -/
def ClaimedBefore (e : Engine) (id : Nat) (m : Mapping) (slot : Slot) : Prop :=
  ∃ (earlier : Nat) (b : Binding) (spot : Spot), earlier < id ∧ e.bindings[earlier]? = some b ∧
    b.slot = some slot ∧ e.Drives b.mapping spot ∧ e.Drives m spot

/-- The slots of all mappings are those that the order of declaration gives them. -/
structure Allotted (e : Engine) : Prop where
  lowest (id : Nat) (b : Binding) (slot lower : Slot) : e.bindings[id]? = some b →
    b.slot = some slot → lower < slot → e.ClaimedBefore id b.mapping lower
  full (id : Nat) (b : Binding) (slot : Slot) : e.bindings[id]? = some b →
    (e.descriptor b.mapping.target).needsSlot = true → b.slot = none →
    e.ClaimedBefore id b.mapping slot
  masks (spot : Spot) (slot : Slot) : e.Taken spot slot ↔ ∃ (id : Nat) (b : Binding),
    e.bindings[id]? = some b ∧ b.slot = some slot ∧ e.Drives b.mapping spot

/-- Those that have been served before stay where they are. -/
theorem getElem?_bind_of_some {m : Mapping} {id : Nat} {b : Binding}
    (hb : e.bindings[id]? = some b) : (e.bind m).bindings[id]? = some b := by
  have hin : id < e.bindings.size := (Array.getElem?_eq_some_iff.mp hb).1
  rw [bindings_bind, Array.getElem?_push, if_neg (Nat.ne_of_lt hin)]
  exact hb

/-- What needs no slot claims none. -/
theorem needsSlot_of_claimSlot {m : Mapping} {slot : Slot} (h : (e.claimSlot m).2 = some slot) :
    (e.descriptor m.target).needsSlot = true := by
  unfold claimSlot at h
  split at h
  · simp [Descriptor.needsSlot, *]
  · simp [Descriptor.needsSlot, *]
  · contradiction

/-- A mapping claims the lowest place that is free in the union of its pools. -/
theorem claimSlot_union {m : Mapping} (hneeds : (e.descriptor m.target).needsSlot = true) :
    ∃ mask : Mask, (e.claimSlot m).2 = mask.lowestFree? ∧
      ∀ slot : Slot, mask.has slot = true → ∃ spot, e.Drives m spot ∧ e.Taken spot slot := by
  unfold claimSlot
  cases hcell : (e.descriptor m.target).cell with
  | pad cell =>
    refine ⟨e.pads.owned (e.slotUsers m.targetUser) cell, ?_, fun slot hslot => ?_⟩
    · dsimp only
      split <;> exact Eq.symm ‹_›
    · obtain ⟨user, huser, place, hplace, htaken⟩ := (PadBank.has_owned _ _ _ _).mp hslot
      exact ⟨.pad user place, ⟨⟨cell, hcell, hplace⟩, huser⟩, htaken⟩
  | output kind =>
    refine ⟨((e.outputs[m.target]?).getD {}).owned, ?_, fun slot hslot => ?_⟩
    · dsimp only
      split <;> exact Eq.symm ‹_›
    · exact ⟨.output m.target, ⟨⟨kind, hcell⟩, rfl⟩, hslot⟩
  | _ => simp [Descriptor.needsSlot, hcell] at hneeds

/-- Mappings that are served later make no difference to what was claimed before. -/
theorem ClaimedBefore.bind {id : Nat} {m' : Mapping} {slot : Slot} (m : Mapping)
    (h : e.ClaimedBefore id m' slot) : (e.bind m).ClaimedBefore id m' slot := by
  obtain ⟨earlier, b, spot, hearlier, hb, hslot, hdrives, hshared⟩ := h
  exact ⟨earlier, b, spot, hearlier, getElem?_bind_of_some hb, hslot, drives_bind.mpr hdrives,
    drives_bind.mpr hshared⟩

theorem ClaimedBefore.congr (hlayout : e'.layout = e.layout) {id : Nat} {m : Mapping} {slot : Slot}
    (h : e.ClaimedBefore id m slot) : e'.ClaimedBefore id m slot := by
  obtain ⟨earlier, b, spot, hearlier, hb, hslot, hdrives, hshared⟩ := h
  obtain ⟨b', hb', hmapping, hsame⟩ := binding_congr hlayout hb
  refine ⟨earlier, b', spot, hearlier, hb', hsame.trans hslot, ?_, (drives_congr hlayout _ _).mpr
    hshared⟩
  rw [hmapping]
  exact (drives_congr hlayout _ _).mpr hdrives

/-- What is taken in a pool of a mapping that is served next has been claimed before. -/
theorem Allotted.claimedBefore (he : Allotted e) {m : Mapping} {spot : Spot} {slot : Slot}
    (hdrives : e.Drives m spot) (htaken : e.Taken spot slot) :
    e.ClaimedBefore e.bindings.size m slot := by
  obtain ⟨id, b, hb, hslot, hshared⟩ := (he.masks spot slot).mp htaken
  exact ⟨id, b, spot, (Array.getElem?_eq_some_iff.mp hb).1, hb, hslot, hshared, hdrives⟩

/-- **Serving a mapping** gives it the lowest slot that was not claimed before. -/
theorem Allotted.bind (he : Allotted e) (m : Mapping) : Allotted (e.bind m) := by
  constructor
  · intro id b slot lower hb hslot hlower
    rcases getElem?_bind hb with hold | ⟨rfl, rfl⟩
    · exact (he.lowest id b slot lower hold hslot hlower).bind m
    · obtain ⟨mask, hclaimed, htaken⟩ := claimSlot_union (needsSlot_of_claimSlot hslot)
      -- A lower slot was taken in some pool, so an earlier mapping has claimed it.
      obtain ⟨spot, hdrives, htaken⟩ :=
        htaken lower (Mask.has_of_lt_lowestFree (hclaimed.symm.trans hslot) hlower)
      exact (he.claimedBefore hdrives htaken).bind m
  · intro id b slot hb hneeds hslot
    rw [descriptor_bind] at hneeds
    rcases getElem?_bind hb with hold | ⟨rfl, rfl⟩
    · exact (he.full id b slot hold hneeds hslot).bind m
    · obtain ⟨mask, hclaimed, htaken⟩ := claimSlot_union hneeds
      obtain ⟨spot, hdrives, htaken⟩ :=
        htaken slot (Mask.lowestFree_eq_none.mp (hclaimed.symm.trans hslot) slot)
      exact (he.claimedBefore hdrives htaken).bind m
  · intro spot slot
    rw [taken_bind, he.masks]
    -- What is taken now was taken before, or is what the last mapping has claimed.
    constructor
    · rintro (⟨id, b, hb, hslot, hdrives⟩ | ⟨hdrives, hclaimed⟩)
      · exact ⟨id, b, getElem?_bind_of_some hb, hslot, drives_bind.mpr hdrives⟩
      · refine ⟨e.bindings.size, { mapping := m, slot := (e.claimSlot m).2 }, ?_, hclaimed,
          drives_bind.mpr hdrives⟩
        rw [bindings_bind, Array.getElem?_push_size]
    · rintro ⟨id, b, hb, hslot, hdrives⟩
      rw [drives_bind] at hdrives
      rcases getElem?_bind hb with hold | ⟨-, rfl⟩
      · exact .inl ⟨id, b, hold, hslot, hdrives⟩
      · exact .inr ⟨hdrives, hslot⟩

/-- Before the first mapping is served no slot is taken. -/
theorem Vacant.allotted (he : Vacant e) : Allotted e := by
  have hnone : ∀ id : Nat, e.bindings[id]? = none := by
    rw [he.unbound]
    exact fun _ => rfl
  refine ⟨by simp [hnone], by simp [hnone], fun spot slot => ?_⟩
  unfold Taken
  rw [he.view]
  simp [hnone]

theorem allotted_install (e : Engine) (config : Config) (time : Nat) :
    Allotted (e.install config time) :=
  install_keeps Vacant.allotted (fun m he => he.bind m) e config time

/-- Between two installations nothing changes about it. -/
theorem Allotted.congr (he : Allotted e) (hlayout : e'.layout = e.layout)
    (hfittings : SameFittings e e') : Allotted e' := by
  have hback : ∀ {id : Nat} {b' : Binding}, e'.bindings[id]? = some b' →
      ∃ b, e.bindings[id]? = some b ∧ b.mapping = b'.mapping ∧ b.slot = b'.slot :=
    fun hb' => binding_congr hlayout.symm hb'
  constructor
  · intro id b' slot lower hb' hslot hlower
    obtain ⟨b, hb, hmapping, hsame⟩ := hback hb'
    rw [← hmapping]
    exact (he.lowest id b slot lower hb (hsame.trans hslot) hlower).congr hlayout
  · intro id b' slot hb' hneeds hslot
    obtain ⟨b, hb, hmapping, hsame⟩ := hback hb'
    rw [← hmapping, descriptor_congr hlayout] at hneeds
    rw [← hmapping]
    exact (he.full id b slot hb hneeds (hsame.trans hslot)).congr hlayout
  · intro spot slot
    unfold Taken
    rw [hfittings.owned]
    refine (he.masks spot slot).trans ⟨?_, ?_⟩
    · rintro ⟨id, b, hb, hslot, hdrives⟩
      obtain ⟨b', hb', hmapping, hsame⟩ := binding_congr hlayout hb
      exact ⟨id, b', hb', hsame.trans hslot, by rwa [hmapping, drives_congr hlayout]⟩
    · rintro ⟨id, b', hb', hslot, hdrives⟩
      obtain ⟨b, hb, hmapping, hsame⟩ := hback hb'
      rw [← hmapping, drives_congr hlayout] at hdrives
      exact ⟨id, b, hb, hsame.trans hslot, hdrives⟩

/-- **Between two operations the slots are those that the order of declaration gives.** -/
theorem Operated.allotted {admits : Config → Prop} (he : Operated admits e) : Allotted e :=
  Operated.of_deeds (fun _ => allotted_install _ _ 0)
    (fun hdeed he => he.congr hdeed.layout hdeed.sameFittings)
    (fun _ _ _ => allotted_install _ _ _) he

/-! ## §2 Mappings without a slot -/

/-- The binding has a slot, if it needs one. -/
def Equipped (e : Engine) (id : Nat) : Prop :=
  ∀ b, e.bindings[id]? = some b → (e.descriptor b.mapping.target).needsSlot = true →
    b.slot.isSome = true

theorem Equipped.congr (hlayout : e'.layout = e.layout) {id : Nat} (h : e.Equipped id) :
    e'.Equipped id := by
  intro b' hb' hneeds
  obtain ⟨b, hb, hmapping, hslot⟩ := binding_congr hlayout.symm hb'
  rw [← hmapping, descriptor_congr hlayout] at hneeds
  rw [← hslot]
  exact h b hb hneeds

end Engine

namespace Turn

/-- A binding accepts pulses only if it has the slot that it needs. -/
theorem equipped_of_accepts {t : Turn} {b : Binding} {source target : Descriptor} {pulse : Pulse}
    (h : t.accepts b source target pulse = true) (hneeds : target.needsSlot = true) :
    b.slot.isSome = true :=
  (accepts_iff.mp h).2.2.1 hneeds

/-- What needs a slot and has none is not run by any pulse. -/
theorem runBinding_unequipped {t : Turn} {id : Nat} {b : Binding}
    (hb : t.engine.bindings[id]? = some b)
    (hneeds : (t.engine.descriptor b.mapping.target).needsSlot = true) (hslot : b.slot = none)
    (onVar : Listener) (pulse : Pulse) : t.runBinding onVar id pulse false = (t, false) := by
  unfold runBinding
  rw [hb]
  dsimp only
  rw [if_pos]
  simp only [Bool.not_false, Bool.true_and, Bool.not_eq_true']
  rw [← Bool.not_eq_true]
  intro haccepts
  simpa [hslot] using equipped_of_accepts haccepts hneeds

end Turn

namespace Engine

variable {e e' : Engine}

/-- Only bindings that are equipped are in effect. -/
def OnlyEquipped (e : Engine) : Prop := ActiveWithin e.Equipped e

namespace OnlyEquipped

theorem congr (he : OnlyEquipped e) (hlayout : e'.layout = e.layout)
    (hbits : ∀ i, (e'.latch i).bits = (e.latch i).bits) : OnlyEquipped e' :=
  (ActiveWithin.congr he hlayout hbits).mono fun _ h => h.congr hlayout

theorem move {t t' : Turn} (h : Turn.Move t t') (ht : OnlyEquipped t.engine) :
    OnlyEquipped t'.engine := by
  obtain ⟨-, hquiet | ⟨id, b, pulse, forced, hanswered⟩⟩ := h.bits
  · exact ht.congr h.layout hquiet.bits
  · refine ActiveWithin.answered ht h.layout hanswered
      (fun i _ hactive => (ht.within i hactive).congr h.layout) fun latch response hrespond hactive => ?_
    obtain ⟨hb, hreaches, -⟩ := hanswered
    refine Equipped.congr h.layout ?_
    rcases ((ht.steady id b hb).respond hrespond).2 hactive with hbefore | ⟨-, hfree⟩
    · exact ht.within id (by rw [latch_of_getElem? hb, hbefore])
    · -- It has accepted a press.
      intro b' hb' hneeds
      obtain rfl : b = b' := Option.some.inj (hb.symm.trans hb')
      rcases hreaches with hforced | haccepts
      · rw [hfree] at hforced
        contradiction
      · exact Turn.equipped_of_accepts haccepts hneeds

theorem stable (admits : Config → Prop) : Stable admits OnlyEquipped where
  move := move
  feed room := Turn.feed_keeps move
    (fun user down _ ht => ht.congr (layout_setBoard _ _ user down) fun _ => rfl) room
  chore h he := (ActiveWithin.chore h he).mono fun _ hid => hid.congr h.layout
  force e time he := by
    have hnone := ActiveWithin.forceReleaseAll e time he
    have hforced : OnlyEquipped (e.forceReleaseAll time) := hnone.mono fun _ => False.elim
    exact ⟨hforced, hforced.congr rfl fun _ => rfl⟩
  lapse {e _ _ _ clock use _} _ _ _ he := by
    have huntimed := untimed_lapse { e with clock } use
    have hstays : OnlyEquipped { e with clock } := he.congr rfl fun _ => rfl
    exact (ActiveWithin.of_untimed hstays huntimed).mono fun _ hid =>
      hid.congr (layout_of_untimed huntimed)
  stray _ _ he := he.congr rfl fun _ => rfl
  install e _ time _ _ := ActiveWithin.ofInstall e.cancelTimers _ time

end OnlyEquipped

/-! ## §3 Events that are kept from the system -/

/-- An event of a control gets to a binding: through the chain of the control, or through a pair that
it is a part of. -/
inductive Hears (e : Engine) : Control → Nat → Prop
  | chain {c : Control} {id : Nat} (h : e.board.Lists Line.chain c id) : Hears e c id
  | pair {c pair : Control} {id : Nat} (h : e.board.Lists Line.pairs c pair)
      (hrest : Hears e pair id) : Hears e c id

theorem Hears.congr (hlayout : e'.layout = e.layout) {c : Control} {id : Nat} (h : e.Hears c id) :
    e'.Hears c id := by
  induction h with
  | chain h => exact .chain ((lists_congr Wiring.chain (fun _ => rfl) hlayout _ _).mpr h)
  | pair h _ ih => exact .pair ((lists_congr Wiring.pairs (fun _ => rfl) hlayout _ _).mpr h) ih

/-- Some binding keeps events of the control from the system: it hears of them, it does not forward
them, and it has the slot that it needs. -/
def IsKept (e : Engine) (c : Control) : Prop :=
  ∃ (id : Nat) (b : Binding), e.Hears c id ∧ e.bindings[id]? = some b ∧
    b.mapping.options.forward = false ∧
    ((e.descriptor b.mapping.target).needsSlot = true → b.slot.isSome = true)

theorem IsKept.congr (hlayout : e'.layout = e.layout) {c : Control} (h : e.IsKept c) :
    e'.IsKept c := by
  obtain ⟨id, b, hhears, hb, hforward, hequipped⟩ := h
  obtain ⟨b', hb', hmapping, hslot⟩ := binding_congr hlayout hb
  rw [← hmapping] at hforward hequipped
  rw [← descriptor_congr hlayout, ← hslot] at hequipped
  exact ⟨id, b', hhears.congr hlayout, hb', hforward, hequipped⟩

end Engine

namespace Turn

/-- A binding that keeps an event from the system has accepted it. -/
theorem kept_runBinding {onVar : Listener} {t : Turn} {id : Nat} {pulse : Pulse} {forced : Bool}
    (h : (t.runBinding onVar id pulse forced).2 = true) : ∃ b, t.engine.bindings[id]? = some b ∧
      t.accepts b (t.sourceOf b) (t.targetOf b) pulse = true ∧
      b.mapping.options.forward = false := by
  unfold runBinding at h
  cases hb : t.engine.bindings[id]? with
  | none =>
    rw [hb] at h
    contradiction
  | some b =>
    rw [hb] at h
    dsimp only at h
    split at h
    · contradiction
    · rename_i haccepts
      simp only [Bool.and_eq_true, Bool.not_eq_true'] at h haccepts
      refine ⟨b, rfl, ?_, h.2⟩
      simpa [h.1, sourceOf, targetOf] using haccepts

/-- What a pair keeps from the system, it keeps when it moves. -/
theorem kept_followPair {onPair : Listener} {pulse : Pulse} {t : Turn} {pair : Control}
    (h : (followPair onPair pulse t pair).2 = true) : ∃ moved, (onPair t pair moved).2 = true := by
  unfold followPair at h
  split at h
  · contradiction
  · split at h
    · exact ⟨_, h⟩
    · contradiction

/-- One of the items of a sweep has said yes, if any has. -/
theorem sweep_answer {α : Type} {run : Turn → α → Turn × Bool} {P : Turn → Prop} {answer : Prop}
    {items : List α} (hrun : ∀ t, P t → ∀ item ∈ items, P (run t item).1)
    (hanswer : ∀ t, P t → ∀ item ∈ items, (run t item).2 = true → answer) {t : Turn} (ht : P t)
    (h : (sweep run t items).2 = true) : answer := by
  have hfold := List.foldlRecOn (motive := fun acc : Turn × Bool => P acc.1 ∧ (acc.2 = true → answer))
    items (fun acc item => ((run acc.1 item).1, acc.2 || (run acc.1 item).2)) (b := (t, false))
    ⟨ht, by simp⟩ fun acc hacc item hitem => ⟨hrun _ hacc.1 item hitem, fun hany => ?_⟩
  · exact hfold.2 h
  · rcases Bool.or_eq_true_iff.mp hany with hbefore | hthis
    · exact hacc.2 hbefore
    · exact hanswer _ hacc.1 item hitem hthis

/-- **What a source keeps from the system, some binding with a slot keeps.** -/
theorem kept_feed (room : Nat) (t : Turn) (c : Control) (pulse : Pulse)
    (h : (feed room t c pulse).2 = true) : t.engine.IsKept c := by
  -- Of what a binding feeds, the answer is dropped; so the cascade goes on through pairs only.
  induction room generalizing t c pulse with
  | zero => exact absurd h Bool.false_ne_true
  | succ room ih =>
    unfold feed at h
    cases hline : t.engine.board.line? c with
    | none =>
      simp only [hline] at h
      contradiction
    | some line =>
      simp only [hline] at h
      -- All along the layout stays.
      have hbelow : Keeps (fun e => e.layout = t.engine.layout) (feed room) :=
        ⟨feed_layout room, fun t c pulse ht => (feed_layout room t c pulse).trans ht⟩
      have hrun : ∀ (t' : Turn) id pulse, t'.engine.layout = t.engine.layout →
          (t'.runBinding (feed room) id pulse false).1.engine.layout = t.engine.layout :=
        fun t' id pulse ht' =>
          runBinding_keeps (fun h ht => h.layout.trans ht) hbelow t' id pulse false ht'
      have hmarked : (t.mark c (t.stateUser c pulse.user) pulse.down).engine.layout =
        t.engine.layout := Engine.layout_setBoard _ c _ _
      rcases Bool.or_eq_true_iff.mp h with hkept | hkept
      · refine sweep_answer (P := fun t' => t'.engine.layout = t.engine.layout)
          (fun t' ht' id _ => hrun t' id _ ht') (fun t' ht' id hid hthis => ?_) hmarked hkept
        obtain ⟨b, hb, haccepts, hforward⟩ := kept_runBinding hthis
        have hhears : t.engine.Hears c id := .chain ⟨line, hline, hid⟩
        exact Engine.IsKept.congr ht'.symm
          ⟨id, b, hhears.congr ht', hb, hforward, equipped_of_accepts haccepts⟩
      · have hchain := foldl_keeps (P := fun e => e.layout = t.engine.layout)
          (fun t' id => (t'.runBinding (feed room) id
            { pulse with user := t.stateUser c pulse.user } false).1)
          (fun t' id ht' => hrun t' id _ ht') _ line.chain hmarked
        rw [← sweep_fst] at hchain
        refine sweep_answer (P := fun t' => t'.engine.layout = t.engine.layout)
          (fun t' ht' pair _ => followPair_keeps hbelow _ t' pair ht')
          (fun t' ht' pair hpair hthis => ?_) hchain hkept
        obtain ⟨moved, hfed⟩ := kept_followPair hthis
        obtain ⟨id, b, hhears, hb, hrest⟩ := (ih t' pair moved hfed).congr ht'.symm
        exact ⟨id, b, .pair ⟨line, hline, hpair⟩ hhears, hb, hrest⟩

end Turn

namespace Engine

variable {e : Engine}

theorem kept_accept {c : Control} {pulse : Pulse} {time : Nat}
    (h : (e.accept c pulse time).2 = true) : e.IsKept c := by
  have hfed : (Turn.feed (cascadeRoom + 1) { engine := { e with lastTime := time }, time } c
    pulse).2 = true := h
  have hlayout : e.layout = ({ e with lastTime := time } : Engine).layout := rfl
  exact (Turn.kept_feed _ _ c pulse hfed).congr hlayout

/-! ## §4 Between any two operations -/

/-- What can be said of the slots of all mappings. -/
structure SlotsAllotted (e : Engine) : Prop where
  /-- Two mappings that share a pool or an output never have the same slot. -/
  apart (id id' : Nat) (b b' : Binding) (spot : Spot) (slot : Slot) :
    e.bindings[id]? = some b → e.bindings[id']? = some b' → id ≠ id' → e.Drives b.mapping spot →
    e.Drives b'.mapping spot → b.slot = some slot → b'.slot ≠ some slot
  /-- A slot is the lowest one that no mapping before has claimed in any of the pools. -/
  lowest (id : Nat) (b : Binding) (slot : Slot) : e.bindings[id]? = some b → b.slot = some slot →
    ¬ e.ClaimedBefore id b.mapping slot ∧ ∀ lower < slot, e.ClaimedBefore id b.mapping lower
  /-- A mapping is left without just if all have been claimed. -/
  exhausted (id : Nat) (b : Binding) : e.bindings[id]? = some b →
    (e.descriptor b.mapping.target).needsSlot = true →
    (b.slot = none ↔ ∀ slot, e.ClaimedBefore id b.mapping slot)
  /-- The slots that are taken in a pool are those of the mappings that claim it. -/
  masks (spot : Spot) (slot : Slot) : e.Taken spot slot ↔ ∃ (id : Nat) (b : Binding),
    e.bindings[id]? = some b ∧ b.slot = some slot ∧ e.Drives b.mapping spot
  /-- What is left without a slot is not in effect. -/
  inactive (id : Nat) (b : Binding) : e.bindings[id]? = some b →
    (e.descriptor b.mapping.target).needsSlot = true → b.slot = none → b.latch.active = false
  /-- No pulse runs it, nor does it keep one from the system. -/
  inert (id : Nat) (b : Binding) : e.bindings[id]? = some b →
    (e.descriptor b.mapping.target).needsSlot = true → b.slot = none →
    ∀ (t : Turn) (onVar : Listener) (pulse : Pulse), t.engine.layout = e.layout →
      t.runBinding onVar id pulse false = (t, false)
  /-- An input that is kept from the system is kept by a binding that has the slot it needs. -/
  kept (c : Control) (user : Nat) (down : Bool) (strength : Float) (time : Nat) :
    (e.processInput c user down strength time).2 = true → e.IsKept c
  keptMotion (c : Control) (user : Nat) (magnitude : Float) (time : Nat) :
    (e.processRelative c user magnitude time).2 = true → e.IsKept c

/-- No slot is claimed twice. -/
theorem Mirrors.not_claimedBefore (he : Mirrors e) {id : Nat} {b : Binding} {slot : Slot}
    (hb : e.bindings[id]? = some b) (hslot : b.slot = some slot) :
    ¬ e.ClaimedBefore id b.mapping slot := by
  -- The one before would share a pool with this one, and have the same slot.
  rintro ⟨earlier, b', spot, hearlier, hb', hslot', hdrives', hdrives⟩
  exact Nat.ne_of_lt hearlier
    (he.apart earlier id b' b spot slot hb' hb hslot' hslot hdrives' hdrives)

/-- **The slots are allotted in the order of declaration**, and stay so until another configuration
is installed. -/
theorem slots_allotted (he : Operated Config.IsCompiled e) : SlotsAllotted e ∧
    (∀ call, (∀ config, call ≠ .reload config) →
      (e.after call).layout = e.layout ∧ SameFittings e (e.after call)) ∧
    ∀ token time, (e.onTimer token time).layout = e.layout ∧
      SameFittings e (e.onTimer token time) := by
  have hallotted := he.allotted
  have hmirrors := he.mirrored.mirrors
  have hequipped : OnlyEquipped e :=
    (OnlyEquipped.stable Config.IsCompiled).operated (fun _ _ he => he.congr rfl fun _ => rfl)
      (fun _ => ActiveWithin.ofInstall _ _ 0) he
  -- Everything but a new configuration leaves the fittings alone.
  have hstays : ∀ e', Deeds e e' → e'.layout = e.layout ∧ SameFittings e e' :=
    fun _ hdeeds => ⟨hdeeds.layout, hdeeds.sameFittings⟩
  refine ⟨?_, fun call hcall => hstays _ (deeds_after e hcall),
    fun token time => hstays _ (deeds_onTimer e token time)⟩
  constructor
  · intro id id' b b' spot slot hb hb' hne hdrives hdrives' hslot hslot'
    exact hne (hmirrors.apart id id' b b' spot slot hb hb' hslot hslot' hdrives hdrives')
  · exact fun id b slot hb hslot => ⟨hmirrors.not_claimedBefore hb hslot,
      fun lower hlower => hallotted.lowest id b slot lower hb hslot hlower⟩
  · intro id b hb hneeds
    constructor
    · exact fun hslot slot => hallotted.full id b slot hb hneeds hslot
    · intro hall
      rw [Option.eq_none_iff_forall_ne_some]
      exact fun slot hslot => hmirrors.not_claimedBefore hb hslot (hall slot)
  · exact hallotted.masks
  · intro id b hb hneeds hslot
    rw [← Bool.not_eq_true, ← latch_of_getElem? hb]
    intro hactive
    have hsome := hequipped.within id hactive b hb hneeds
    rw [hslot] at hsome
    contradiction
  · intro id b hb hneeds hslot t onVar pulse hlayout
    obtain ⟨b', hb', hmapping, hsame⟩ := binding_congr hlayout hb
    refine Turn.runBinding_unequipped hb' ?_ (hsame.trans hslot) onVar pulse
    rw [hmapping, descriptor_congr hlayout]
    exact hneeds
  · intro c user down strength time hkept
    unfold processInput at hkept
    split at hkept
    · exact kept_accept hkept
    · contradiction
  · intro c user magnitude time hkept
    unfold processRelative at hkept
    split at hkept
    · split at hkept
      · exact kept_accept hkept
      · contradiction
    · contradiction

/-- A diagonal between its two directions, and more mappings to one button than it has slots. -/
def crowdedConfig : ConfigFile :=
  { general := { users := some 2 }
    mappings :=
      [{ source := "C", target := "LStickLeft" }, { source := "D", target := "LStickUpLeft" },
        { source := "E", target := "LStickUp" }, { source := "A", target := "PadA@2" }] ++
      List.replicate 31 { source := "A", target := "PadA" } ++
      [{ source := "F", target := "PadA" }, { source := "B", target := "PadA@1" }] }

/-- The engine while F is held, to no effect. -/
def crowded : Engine := (ofConfig crowdedConfig.compile).after (.input ⟨0x46⟩ 0 true 1 0)

/-- The diagonal shares no slot with either direction.  The last mapping but one finds none free, as
it is to press the button for both users; the last one does for the first user. -/
theorem slots_allotted_crowded : Reachable Config.IsCompiled crowded ∧
    crowded.bindings.toList.map Binding.slot =
      [some 0, some 1, some 0, some 0] ++ (List.finRange 32).tail.map some ++ [none, some 0] ∧
    SlotsAllotted crowded := by
  have hreachable : Reachable Config.IsCompiled crowded := (Reachable.compiled _).input ..
  have hslots : crowded.bindings.toList.map Binding.slot =
      [some 0, some 1, some 0, some 0] ++ (List.finRange 32).tail.map some ++ [none, some 0] := by
    decide +kernel
  exact ⟨hreachable, hslots, (slots_allotted hreachable.operated).1⟩

end Engine

end VirtualPad
