import VirtualPad.Proofs.Alone
import VirtualPad.Proofs.Controls
import VirtualPad.Proofs.Latches
import VirtualPad.Proofs.Stability
import VirtualPad.Proofs.Timers

/-!
# The cells mirror the bindings

Every binding has a slot of its own in each spot that it drives, and what the slot holds there says
whether the binding contributes: it is in effect, its users include that of the spot and, if it
blinks, it is lit.  Nothing is ever forgotten in a slot: not by a release under another active user,
not by a blink, not by a cascade that comes back to the binding, and not by one binding that clears
what others have built up.

The reason is that a binding writes into its own slot only, and that no two bindings share one.  So
a step of one binding has to be looked at for that binding alone; `Mirrors.alone` does the rest.
-/

namespace VirtualPad

/-- The part of a latch that says whether the binding contributes, and for whom. -/
def Latch.stake (l : Latch) : Bool × Bool × List User := (l.active, l.lit, l.applied)

namespace Latch

variable {l latch : Latch} {m : Mapping} {source target : Descriptor} {down forced : Bool}
  {strength : Float}

/-- A pulse leaves the users of a latch alone. -/
theorem respond_applied {response : Option Response}
    (h : l.respond m source target down strength forced = (latch, response)) :
    latch.applied = l.applied := by
  obtain ⟨_, _, _, _, rfl⟩ := respond_frame h
  rfl

/-- A pulse that is swallowed changes nothing about what the binding contributes. -/
theorem respond_none (h : l.respond m source target down strength forced = (latch, none)) :
    latch.stake = l.stake := by
  unfold respond at h
  dsimp only at h
  split at h
  · simp at h
  · split at h
    · obtain ⟨rfl, -⟩ := Prod.mk.inj h
      rfl
    · split at h
      · obtain ⟨rfl, -⟩ := Prod.mk.inj h
        rfl
      · simp at h

/-- Nothing is written only at the end of a motion, or when a blinking binding ends while it is
dark. -/
theorem respond_silent {r : Response}
    (h : l.respond m source target down strength forced = (latch, some r))
    (hemits : r.emits = false) :
    r.now = false ∧ (target.flags.relative = true ∨ m.options.turbo = true ∧ l.lit = false) := by
  unfold respond at h
  dsimp only at h
  split at h
  · rename_i hmotion
    obtain ⟨-, hr⟩ := Prod.mk.inj h
    obtain rfl := Option.some.inj hr
    simp only [Bool.and_eq_true] at hmotion
    exact ⟨rfl, .inl hmotion.1⟩
  · split at h
    · simp at h
    · split at h
      · simp at h
      · obtain ⟨-, hr⟩ := Prod.mk.inj h
        obtain rfl := Option.some.inj hr
        simp only [Bool.or_eq_false_iff, Bool.not_eq_false'] at hemits
        exact ⟨hemits.1.2, .inr ⟨hemits.1.1, hemits.2⟩⟩

end Latch

namespace Engine

/-! ## §1 The invariant -/

/-- The binding contributes to the spot: it is in effect there and, if it blinks, lit. -/
def Contributes (e : Engine) (b : Binding) (spot : Spot) : Prop :=
  b.latch.active = true ∧ (b.mapping.options.turbo = true → b.latch.lit = true) ∧ e.Touches b spot

/-- In its own slot a binding is seen just where it contributes. -/
def Shows (e : Engine) (b : Binding) : Prop :=
  ∀ spot slot, b.slot = some slot → e.Drives b.mapping spot →
    ((e.held spot slot).isSome = true ↔ e.Contributes b spot)

/-- Bindings with the turbo option have no other timer than one that makes them blink, and the other
bindings have none that does. -/
def Blinks (e : Engine) : Prop :=
  ∀ use ∈ e.timers, ∀ b, e.bindings[use.binding]? = some b →
    (use.kind = .turbo ↔ b.mapping.options.turbo = true)

/-- Every slot has one owner at most, and holds nothing that its owner has not put there. -/
structure SlotsOwned (e : Engine) : Prop where
  present : e.activeUser < e.userCount
  blinks : e.Blinks
  keeping (id : Nat) (b : Binding) : e.bindings[id]? = some b → e.Keeping b
  apart (id id' : Nat) (b b' : Binding) (spot : Spot) (slot : Slot) :
    e.bindings[id]? = some b → e.bindings[id']? = some b' → b.slot = some slot →
    b'.slot = some slot → e.Drives b.mapping spot → e.Drives b'.mapping spot → id = id'
  plain (id : Nat) (b : Binding) (spot : Spot) (slot : Slot) : e.bindings[id]? = some b →
    b.mapping.options.add = false → b.slot = some slot → e.Drives b.mapping spot →
    e.held spot slot ≠ some .builtUp
  owned (spot : Spot) (slot : Slot) : e.held spot slot ≠ none →
    ∃ (id : Nat) (b : Binding), e.bindings[id]? = some b ∧ b.slot = some slot ∧
      e.Drives b.mapping spot

/-- **The cells mirror the bindings**, except for those that add. -/
structure Mirrors (e : Engine) : Prop extends SlotsOwned e where
  shows (id : Nat) (b : Binding) : e.bindings[id]? = some b → b.mapping.options.add = false →
    e.Shows b

variable {e e' : Engine}

theorem contributes_congr (hlayout : e'.layout = e.layout) {b b' : Binding}
    (hmapping : b'.mapping = b.mapping) (hstake : b'.latch.stake = b.latch.stake) (spot : Spot) :
    e'.Contributes b' spot ↔ e.Contributes b spot := by
  simp only [Latch.stake, Prod.mk.injEq] at hstake
  obtain ⟨hactive, hlit, happlied⟩ := hstake
  unfold Contributes Touches
  rw [hactive, hlit, happlied, hmapping, descriptor_congr hlayout]

theorem Shows.held_eq_none {b : Binding} (h : e.Shows b) {spot : Spot} {slot : Slot}
    (hslot : b.slot = some slot) (hdrives : e.Drives b.mapping spot)
    (hnot : ¬ e.Contributes b spot) : e.held spot slot = none := by
  rw [← Option.not_isSome_iff_eq_none]
  exact fun hlive => hnot ((h spot slot hslot hdrives).mp hlive)

/-- In the same layout the old timers are as good as they were, and only new ones count. -/
theorem Blinks.congr (he : e.Blinks) (hlayout : e'.layout = e.layout)
    (htimers : ∀ use ∈ e'.timers, use ∈ e.timers ∨ ∀ b, e.bindings[use.binding]? = some b →
      (use.kind = .turbo ↔ b.mapping.options.turbo = true)) : e'.Blinks := by
  intro use huse b' hb'
  obtain ⟨b, hb, hmapping, -⟩ := binding_congr hlayout.symm hb'
  rw [← hmapping]
  rcases htimers use huse with hold | hnew
  · exact he use hold b hb
  · exact hnew b hb

/-! ## §2 Steps that keep it -/

/-- Who has which slot is settled by the layout. -/
theorem SlotsOwned.apart_congr (he : SlotsOwned e) (hlayout : e'.layout = e.layout) (id id' : Nat)
    (b b' : Binding) (spot : Spot) (slot : Slot) (hb : e'.bindings[id]? = some b)
    (hb' : e'.bindings[id']? = some b') (hslot : b.slot = some slot) (hslot' : b'.slot = some slot)
    (hdrives : e'.Drives b.mapping spot) (hdrives' : e'.Drives b'.mapping spot) : id = id' := by
  obtain ⟨c, hc, hmapping, hsame⟩ := binding_congr hlayout.symm hb
  obtain ⟨c', hc', hmapping', hsame'⟩ := binding_congr hlayout.symm hb'
  rw [← hmapping, drives_congr hlayout] at hdrives
  rw [← hmapping', drives_congr hlayout] at hdrives'
  exact he.apart id id' c c' spot slot hc hc' (hsame.trans hslot) (hsame'.trans hslot') hdrives hdrives'

/-- So what is held where it was held before has an owner. -/
theorem SlotsOwned.owned_congr (he : SlotsOwned e) (hlayout : e'.layout = e.layout) {spot : Spot}
    {slot : Slot} (hlive : e.held spot slot ≠ none) : ∃ (id : Nat) (b : Binding),
      e'.bindings[id]? = some b ∧ b.slot = some slot ∧ e'.Drives b.mapping spot := by
  obtain ⟨id, b, hb, hslot, hdrives⟩ := he.owned spot slot hlive
  obtain ⟨b', hb', hmapping, hsame⟩ := binding_congr hlayout hb
  refine ⟨id, b', hb', hsame.trans hslot, ?_⟩
  rw [hmapping]
  exact (drives_congr hlayout _ _).mpr hdrives

/-- What one binding does is not seen in the slot of another, unless that adds. -/
theorem SlotsOwned.kept_of_alone (he : SlotsOwned e) {id : Nat} {b : Binding}
    (hb : e.bindings[id]? = some b) (h : Alone e e' id b) {i : Nat} {c : Binding} {spot : Spot}
    {slot : Slot} (hc : e.bindings[i]? = some c) (hi : i ≠ id) (hadd : c.mapping.options.add = false)
    (hslot : c.slot = some slot) (hdrives : e.Drives c.mapping spot) :
    e'.held spot slot = e.held spot slot := by
  have hnot : ¬ (b.slot = some slot ∧ e.Drives b.mapping spot) := by
    rintro ⟨hslot', hdrives'⟩
    exact hi (he.apart i id c b spot slot hc hb hslot hslot' hdrives hdrives')
  rcases h.elsewhere spot slot hnot with hsame | ⟨hbuilt, -⟩
  · exact hsame
  · exact absurd hbuilt (he.plain i c spot slot hc hadd hslot hdrives)

/-- A change that no slot sees. -/
theorem Mirrors.congr (he : Mirrors e) (hlayout : e'.layout = e.layout)
    (hpresent : e'.activeUser < e'.userCount)
    (hblinks : e'.Blinks)
    (houtputs : ∀ c : Control, (e.outputs[c]?).isSome → (e'.outputs[c]?).isSome)
    (hheld : ∀ spot slot, e'.held spot slot = e.held spot slot)
    (hstake : ∀ id, (e'.latch id).stake = (e.latch id).stake) : Mirrors e' := by
  -- Each binding there is now was there before, with the same mapping, slot and stake.
  have hback : ∀ {id : Nat} {b' : Binding}, e'.bindings[id]? = some b' → ∃ b, e.bindings[id]? = some b ∧
      b.mapping = b'.mapping ∧ b.slot = b'.slot ∧ b'.latch.stake = b.latch.stake := by
    intro id b' hb'
    obtain ⟨b, hb, hmapping, hslot⟩ := binding_congr hlayout.symm hb'
    have hsame := hstake id
    rw [latch_of_getElem? hb, latch_of_getElem? hb'] at hsame
    exact ⟨b, hb, hmapping, hslot, hsame⟩
  constructor
  · constructor
    · exact hpresent
    · exact hblinks
    · intro id b' hb'
      obtain ⟨b, hb, hmapping, -, hsame⟩ := hback hb'
      have hkeeping := he.keeping id b hb
      refine hkeeping.congr hlayout houtputs hmapping.symm ?_
      have happlied := congrArg (fun stake => stake.2.2) hsame
      dsimp only [Latch.stake] at happlied
      rw [happlied]
      exact hkeeping.within
    · exact he.apart_congr hlayout
    · intro id b' spot slot hb' hadd hslot hdrives
      obtain ⟨b, hb, hmapping, hsame, -⟩ := hback hb'
      rw [← hmapping] at hadd hdrives
      rw [hheld]
      exact he.plain id b spot slot hb hadd (hsame.trans hslot) ((drives_congr hlayout _ _).mp hdrives)
    · intro spot slot hlive
      rw [hheld] at hlive
      exact he.owned_congr hlayout hlive
  · intro id b' hb' hadd spot slot hslot hdrives
    obtain ⟨b, hb, hmapping, hsame, hstake'⟩ := hback hb'
    rw [← hmapping] at hadd hdrives
    rw [hheld, contributes_congr hlayout hmapping.symm hstake']
    exact he.shows id b hb hadd spot slot (hsame.trans hslot) ((drives_congr hlayout _ _).mp hdrives)

/-- **A step of one binding** keeps the invariant, if that binding keeps to its slot and is seen
where it contributes. -/
theorem Mirrors.alone (he : Mirrors e) {id : Nat} {b b' : Binding} (hb : e.bindings[id]? = some b)
    (h : Alone e e' id b) (hb' : e'.bindings[id]? = some b') (hmapping : b'.mapping = b.mapping)
    (hslot : b'.slot = b.slot)
    (hwithin : ∀ user ∈ b'.latch.applied, user ∈ e.slotUsers b.mapping.targetUser)
    (hshows : b.mapping.options.add = false → e'.Shows b') : Mirrors e' := by
  -- Every other binding is as it was.
  have hback : ∀ {i : Nat} {c' : Binding}, e'.bindings[i]? = some c' → ∃ c, e.bindings[i]? = some c ∧
      c'.mapping = c.mapping ∧ c'.slot = c.slot ∧ (i = id ∧ c = b ∧ c' = b' ∨ i ≠ id ∧ c' = c) := by
    intro i c' hc'
    by_cases hi : i = id
    · subst hi
      obtain rfl : c' = b' := Option.some.inj (hc'.symm.trans hb')
      exact ⟨b, hb, hmapping, hslot, .inl ⟨rfl, rfl, rfl⟩⟩
    · rw [h.others i hi] at hc'
      exact ⟨c', hc', rfl, rfl, .inr ⟨hi, rfl⟩⟩
  constructor
  · constructor
    · have hcount : e'.userCount = e.userCount := congrArg Layout.users h.layout
      rw [h.active, hcount]
      exact he.present
    · refine he.blinks.congr h.layout fun use huse => .inl ?_
      rwa [h.timers] at huse
    · intro i c' hc'
      obtain ⟨c, hc, hsame, -, ⟨rfl, rfl, rfl⟩ | ⟨-, rfl⟩⟩ := hback hc'
      · exact (he.keeping i c hc).congr h.layout h.outputs hsame hwithin
      · exact (he.keeping i c' hc).congr h.layout h.outputs rfl (he.keeping i c' hc).within
    · exact he.apart_congr h.layout
    -- Only a binding that adds builds anything up in its own slot.
    · intro i c' spot slot hc' hadd hown hdrives
      obtain ⟨c, hc, hsame, hsame', ⟨rfl, rfl, rfl⟩ | ⟨hi, rfl⟩⟩ := hback hc'
      · rw [hsame] at hadd hdrives
        rw [hsame'] at hown
        rw [drives_congr h.layout] at hdrives
        intro hbuilt
        rcases h.here spot slot hown hdrives hbuilt with hbefore | hadds
        · exact he.plain i c spot slot hc hadd hown hdrives hbefore
        · rw [hadd] at hadds
          contradiction
      · rw [drives_congr h.layout] at hdrives
        rw [he.kept_of_alone hb h hc hi hadd hown hdrives]
        exact he.plain i c' spot slot hc hadd hown hdrives
    -- What is held is the binding's own, or it was held before.
    · intro spot slot hlive
      by_cases hmine : b.slot = some slot ∧ e.Drives b.mapping spot
      · refine ⟨id, b', hb', hslot.trans hmine.1, ?_⟩
        rw [hmapping]
        exact (drives_congr h.layout _ _).mpr hmine.2
      · rcases h.elsewhere spot slot hmine with hsame | ⟨-, hnone⟩
        · rw [hsame] at hlive
          exact he.owned_congr h.layout hlive
        · exact absurd hnone hlive
  · intro i c' hc' hadd
    obtain ⟨c, hc, hsame, -, ⟨rfl, rfl, rfl⟩ | ⟨hi, rfl⟩⟩ := hback hc'
    · exact hshows (hsame ▸ hadd)
    · intro spot slot hown hdrives
      rw [drives_congr h.layout] at hdrives
      rw [he.kept_of_alone hb h hc hi hadd hown hdrives, contributes_congr h.layout rfl rfl]
      exact he.shows i c' hc hadd spot slot hown hdrives

/-! ## §3 Moves -/

/-- One binding has taken a step of its own: either it is seen in its slot just where it contributes
now, or nothing is new about that and the slot holds no more than it did. -/
structure Acts (e e' : Engine) (id : Nat) (b b' : Binding) : Prop where
  alone : Alone e e' id b
  after : e'.bindings[id]? = some b'
  mapping : b'.mapping = b.mapping
  slot : b'.slot = b.slot
  within : ∀ user ∈ b'.latch.applied, user ∈ e.slotUsers b.mapping.targetUser
  seen (spot : Spot) (own : Slot) : b.slot = some own → e.Drives b.mapping spot →
    ((e'.held spot own).isSome = true ↔ e'.Contributes b' spot) ∨
      (e'.Contributes b' spot ↔ e.Contributes b spot) ∧
        (e'.held spot own = e.held spot own ∨
          e.held spot own = some .builtUp ∧ e'.held spot own = none)

theorem Mirrors.acts (he : Mirrors e) {id : Nat} {b b' : Binding} (hb : e.bindings[id]? = some b)
    (h : Acts e e' id b b') : Mirrors e' := by
  refine he.alone hb h.alone h.after h.mapping h.slot h.within fun hadd spot own hown hdrives => ?_
  rw [h.slot] at hown
  rw [h.mapping, drives_congr h.alone.layout] at hdrives
  rcases h.seen spot own hown hdrives with hseen | ⟨hsame, hheld⟩
  · exact hseen
  · rw [hsame, ← he.shows id b hb hadd spot own hown hdrives]
    rcases hheld with hkept | ⟨hbuilt, -⟩
    · rw [hkept]
    · exact absurd hbuilt (he.plain id b spot own hb hadd hown hdrives)

/-- A pulse that changes the latch leaves the binding keeping to its slot. -/
theorem Keeping.mapLatch {t : Turn} {id : Nat} {b : Binding} (hkeeping : t.engine.Keeping b)
    {latch : Latch} (happlied : latch.applied = b.latch.applied) :
    (t.mapLatch id fun _ => latch).engine.Keeping { b with latch } := by
  refine hkeeping.congr (layout_mapLatch t.engine id _) (fun _ h => h) rfl ?_
  show ∀ user ∈ latch.applied, _
  rw [happlied]
  exact hkeeping.within

/-- **The first step of an answer.** Only the binding itself writes.  Where it writes, its slot holds
what goes with the answer. -/
theorem Keeping.firstStep {t : Turn} {id : Nat} {b : Binding} (hkeeping : t.engine.Keeping b)
    (hpresent : t.engine.activeUser < t.engine.userCount) {pulse : Pulse} {forced : Bool}
    {latch : Latch} {r : Response} (hb : t.engine.bindings[id]? = some b)
    (hrespond : b.latch.respond b.mapping (t.sourceOf b) (t.targetOf b) pulse.down pulse.strength
      forced = (latch, some r)) {t' : Turn} (ht' : t.firstStep id b pulse forced latch (some r) = t') :
    ∃ b', t'.engine.bindings[id]? = some b' ∧ b'.mapping = b.mapping ∧ b'.slot = b.slot ∧
      b'.latch.active = r.now ∧ b'.latch.lit = latch.lit ∧
      b'.latch.applied = (if r.now && !r.was then t.engine.targetUsers b.mapping.targetUser
        else b.latch.applied) ∧
      Alone t.engine t'.engine id b ∧
      ∀ spot slot, b.slot = some slot →
        (r.emits = true → t'.engine.Touches b' spot → t'.engine.held spot slot =
          if r.now && (!b.mapping.options.turbo || latch.lit) then
            some (spot.share b.mapping.options.add) else none) ∧
        (¬ (r.emits = true ∧ t'.engine.Touches b' spot) →
          t'.engine.held spot slot = t.engine.held spot slot ∨
            t.engine.held spot slot = some .builtUp ∧ t'.engine.held spot slot = none) := by
  have happlied := Latch.respond_applied hrespond
  have hb₀ : (t.mapLatch id fun _ => latch).engine.bindings[id]? = some { b with latch } := by
    rw [Turn.engine_mapLatch, getElem?_mapLatch, if_pos rfl, hb]
    rfl
  have halone₀ : Alone t.engine (t.mapLatch id fun _ => latch).engine id b := by
    rw [Turn.engine_mapLatch]
    exact Alone.mapLatch t.engine id b _
  obtain ⟨b', ⟨hb', hmapping, hslot, hcore, happlied', halone⟩, hheld⟩ := Turn.perform_spec
    (t.mapLatch id fun _ => latch) hb₀ (hkeeping.mapLatch happlied) hpresent (t.sourceOf b) pulse.user
    r forced ht'
  refine ⟨b', hb', hmapping, hslot, (congrArg Latch.active hcore).trans
    (Latch.respond_some hrespond).2.symm, (congrArg Latch.lit hcore :), ?_,
    halone₀.trans (halone.congr rfl rfl), fun spot slot hown => ?_⟩
  · rw [happlied']
    dsimp only
    rw [happlied]
    rfl
  · rw [touches_congr halone.layout]
    exact hheld spot slot hown

/-- After its response a binding is seen where it contributes. -/
theorem SlotsOwned.act {t : Turn} (ht : SlotsOwned t.engine) {id : Nat} {b : Binding} {pulse : Pulse}
    {forced : Bool} {latch : Latch} {r : Response} (hb : t.engine.bindings[id]? = some b)
    (hrespond : b.latch.respond b.mapping (t.sourceOf b) (t.targetOf b) pulse.down pulse.strength
      forced = (latch, some r)) :
    ∃ b', Acts t.engine (t.firstStep id b pulse forced latch (some r)).engine id b b' := by
  have hkeeping := ht.keeping id b hb
  obtain ⟨b', hb', hmapping, hslot, hactive', hlit', happlied', halone, hheld⟩ :=
    hkeeping.firstStep ht.present hb hrespond rfl
  refine ⟨b', halone, hb', hmapping, hslot, ?_, ?_⟩
  · rw [happlied']
    split
    · exact targetUsers_subset_slotUsers ht.present _
    · exact hkeeping.within
  · intro spot slot hown hdrives
    obtain ⟨hwritten, hkept⟩ := hheld spot slot hown
    generalize (t.firstStep id b pulse forced latch (some r)).engine = e' at hb' halone hwritten hkept ⊢
    have hcontributes : e'.Contributes b' spot ↔ r.now = true ∧
        (b.mapping.options.turbo = true → latch.lit = true) ∧ e'.Touches b' spot := by
      unfold Contributes
      rw [hactive', hlit', hmapping]
    rw [hcontributes]
    by_cases hwrites : r.emits = true ∧ e'.Touches b' spot
    · -- The slot is written, as the response asks.
      left
      rw [hwritten hwrites.1 hwrites.2]
      cases r.now <;> cases b.mapping.options.turbo <;> cases latch.lit <;> simp [hwrites.2]
    · -- The slot is not written.  The binding has not contributed before and does not now.
      refine .inr ⟨?_, hkept hwrites⟩
      have hidle : ¬ t.engine.Contributes b spot ∧ (r.now = true → ¬ e'.Touches b' spot) := by
        cases hemits : r.emits with
        | false =>
          obtain ⟨hnow', hrelative | ⟨hturbo, hdark⟩⟩ := Latch.respond_silent hrespond hemits
          · have hstill := Vocabulary.relative_of_needsSlot _ (Descriptor.Covers.needsSlot hdrives)
            rw [show (t.engine.vocabulary.descriptor b.mapping.target).flags.relative = true from
              hrelative] at hstill
            contradiction
          · refine ⟨fun hbefore => ?_, fun h => ?_⟩
            · rw [hbefore.2.1 hturbo] at hdark
              contradiction
            · rw [hnow'] at h
              contradiction
        | true =>
          have huntouched : ¬ e'.Touches b' spot := fun h => hwrites ⟨hemits, h⟩
          refine ⟨?_, fun _ => huntouched⟩
          rintro ⟨hactive, -, htouched⟩
          -- It was in effect already, so its users are the ones it had.
          rw [(Latch.respond_some hrespond).1, hactive, Bool.not_true, Bool.and_false,
            if_neg (by simp)] at happlied'
          refine huntouched ?_
          unfold Touches at htouched ⊢
          rw [happlied', hmapping, descriptor_congr halone.layout]
          exact htouched
      exact ⟨fun h => absurd h.2.2 (hidle.2 h.1), fun h => absurd h hidle.1⟩

/-- What blinks is seen where it contributes. -/
theorem SlotsOwned.blink {t : Turn} (ht : SlotsOwned t.engine) {id : Nat} {b : Binding}
    (hb : t.engine.bindings[id]? = some b)
    (huse : ∃ use ∈ t.engine.timers, use.binding = id ∧ use.kind = .turbo) :
    ∃ b', Acts t.engine (t.blink id (t.sourceOf b) (t.targetOf b)).1.engine id b b' := by
  obtain ⟨use, hmem, rfl, hkind⟩ := huse
  have hturbo := (ht.blinks use hmem b hb).mp hkind
  have hkeeping := ht.keeping use.binding b hb
  obtain ⟨b', hin, hmapping, hslot, hactive, hlit, happlied, halone, hheld⟩ :=
    Turn.blink_spec t hb hkeeping (t.sourceOf b) rfl
  refine ⟨b', halone, hin, hmapping, hslot, happlied ▸ hkeeping.within, fun spot slot hown hdrives => ?_⟩
  obtain ⟨hwritten, hkept⟩ := hheld spot slot
  have htouches : (t.blink use.binding (t.sourceOf b) (t.targetOf b)).1.engine.Touches b' spot ↔
      t.engine.Touches b spot := by
    unfold Touches
    rw [happlied, hmapping, descriptor_congr halone.layout]
  -- It contributes where it is lit now and writes to.
  unfold Contributes
  rw [htouches, hmapping, hactive, hlit]
  by_cases htouched : t.engine.Touches b spot
  · left
    rw [hwritten hown htouched]
    cases b.latch.active <;> cases b.latch.lit <;> simp [hturbo, htouched]
  · refine .inr ⟨⟨fun h => absurd h.2.2 htouched, fun h => absurd h.2.2 htouched⟩, .inl ?_⟩
    exact hkept fun h => htouched h.2

/-! ## §4 Timers -/

/-- What becomes of timers is nothing to the slots. -/
theorem held_of_untimed (h : e'.untimed = e.untimed) (spot : Spot) (slot : Slot) :
    e'.held spot slot = e.held spot slot := by
  have hpads : e'.pads = e.pads := by
    have hsame := congrArg Engine.pads h
    exact hsame
  have houtputs : e'.outputs = e.outputs := by
    have hsame := congrArg Engine.outputs h
    exact hsame
  cases spot <;> simp only [held, view, hpads, houtputs]

theorem stake_of_untimed (h : e'.untimed = e.untimed) (id : Nat) :
    (e'.latch id).stake = (e.latch id).stake := by
  have hsame := congrArg Latch.stake (latch_of_untimed h id)
  exact hsame

theorem Mirrors.of_untimed (he : Mirrors e) (h : e'.untimed = e.untimed) (hblinks : e'.Blinks) :
    Mirrors e' := by
  have hpads : e'.pads = e.pads := by
    have hsame := congrArg Engine.pads h
    exact hsame
  have houtputs : e'.outputs = e.outputs := by
    have hsame := congrArg Engine.outputs h
    exact hsame
  have huser : e'.activeUser = e.activeUser := by
    have hsame := congrArg Engine.activeUser h
    exact hsame
  refine he.congr (layout_of_untimed h) ?_ hblinks ?_ (held_of_untimed h) (stake_of_untimed h)
  · unfold userCount
    rw [hpads, huser]
    exact he.present
  · rw [houtputs]
    exact fun _ hc => hc

theorem Blinks.stopTimer (he : e.Blinks) (id : Nat) : (e.stopTimer id).Blinks := by
  refine he.congr (layout_of_untimed (untimed_stopTimer e id)) fun use huse => .inl ?_
  unfold Engine.stopTimer at huse
  split at huse
  · exact huse
  · exact List.mem_of_mem_filter huse

theorem Blinks.startTimer (he : e.Blinks) {id : Nat} {kind : TimerKind}
    (hkind : ∀ b, e.bindings[id]? = some b → (kind = .turbo ↔ b.mapping.options.turbo = true))
    (request : TimerToken → TimerRequest) : (e.startTimer id kind request).Blinks := by
  have hstop := he.stopTimer id
  have hlayout := layout_of_untimed (untimed_stopTimer e id)
  refine hstop.congr ((layout_of_untimed (untimed_startTimer e id kind request)).trans hlayout.symm)
    fun use huse => ?_
  rcases List.mem_cons.mp huse with rfl | hold
  · right
    intro b hb
    obtain ⟨b', hb', hmapping, -⟩ := binding_congr hlayout.symm hb
    rw [← hmapping]
    exact hkind b' hb'
  · exact .inl hold

theorem Mirrors.followPlan (he : Mirrors e) {id : Nat} {plan : TimerPlan}
    (hplan : plan = .stop ∨ ∃ b, e.bindings[id]? = some b ∧ b.mapping.Plans plan) :
    Mirrors (e.followPlan id plan) := by
  refine he.of_untimed (untimed_followPlan e id plan) ?_
  rcases hplan with rfl | ⟨b, hb, hplans⟩
  · exact he.blinks.stopTimer id
  · have hblinks := hplans.blinks
    cases plan with
    | keep => exact he.blinks
    | stop => exact he.blinks.stopTimer id
    | once delay kind | repeating period kind =>
      refine he.blinks.startTimer (fun b' hb' => ?_) _
      obtain rfl : b = b' := Option.some.inj (hb.symm.trans hb')
      exact hblinks

/-- A binding to a pad that is not in effect may let go of its users. -/
theorem Mirrors.letGo (he : Mirrors e) {id : Nat} {b : Binding} (hb : e.bindings[id]? = some b)
    (hpad : (e.descriptor b.mapping.target).padCell?.isSome → b.latch.active = false) :
    Mirrors (e.mapLatch id fun l => { l with applied := [] }) := by
  have hb' : (e.mapLatch id fun l => { l with applied := [] }).bindings[id]? =
      some { b with latch := { b.latch with applied := [] } } := by
    rw [getElem?_mapLatch, if_pos rfl, hb]
    rfl
  refine he.alone hb (Alone.mapLatch e id b _) hb' rfl rfl (fun user huser => ?_) ?_
  · exact absurd huser List.not_mem_nil
  · intro hadd spot slot hown hdrives
    refine (he.shows id b hb hadd spot slot hown hdrives).trans ?_
    cases spot with
    | output control => exact Iff.rfl
    | pad user place =>
      -- It contributes nothing, with its users or without them.
      obtain ⟨⟨cell, hcell, -⟩, -⟩ := hdrives
      have hinactive : b.latch.active = false :=
        hpad (Option.isSome_iff_exists.mpr ⟨cell, Descriptor.padCell?_eq_some_iff.mpr hcell⟩)
      constructor
      · rintro ⟨hactive, -⟩
        rw [hinactive] at hactive
        contradiction
      · rintro ⟨hactive, -⟩
        rw [show b.latch.active = true from hactive] at hinactive
        contradiction

/-- Going on builds up nothing but for a binding that adds. -/
theorem Mirrors.goOn {t : Turn} (ht : Mirrors t.engine) {id : Nat} {b : Binding}
    (hb : t.engine.bindings[id]? = some b) : Mirrors (t.goOn id (t.targetOf b)).engine := by
  have halone := Turn.goOn_alone t hb (ht.keeping id b hb)
  obtain ⟨pads, hengine, -⟩ := Turn.goOn_frame t id (t.targetOf b)
  have hb' : (t.goOn id (t.targetOf b)).engine.bindings[id]? = some b := by
    rw [hengine]
    exact hb
  refine ht.alone hb halone hb' rfl rfl (ht.keeping id b hb).within ?_
  intro hadd spot slot hown hdrives
  rw [drives_congr halone.layout] at hdrives
  rw [contributes_congr halone.layout rfl rfl]
  rcases Turn.held_goOn t hb spot slot with hsame | ⟨-, hadds, -⟩
  · rw [hsame]
    exact ht.shows id b hb hadd spot slot hown hdrives
  · rw [hadd] at hadds
    contradiction

/-- Turning a stick is seen in no slot. -/
theorem Mirrors.turnStick {t : Turn} (ht : Mirrors t.engine) {id : Nat} {b : Binding} :
    Mirrors (t.turnStick id (t.targetOf b)).engine := by
  obtain ⟨pads, hengine, hcount⟩ := Turn.turnStick_frame t id (t.targetOf b)
  have hlayout := (Turn.turnStick_alone t id b (t.targetOf b)).layout
  refine ht.congr hlayout ?_ (ht.blinks.congr hlayout ?_) ?_ (Turn.held_turnStick t id _) ?_
  · rw [hengine]
    show t.engine.activeUser.val < pads.count
    rw [hcount]
    exact ht.present
  · rw [hengine]
    exact fun _ huse => .inl huse
  · rw [hengine]
    exact fun _ hc => hc
  · rw [hengine]
    exact fun _ => rfl

/-- **Every move keeps the mirror.** -/
theorem Mirrors.move {t t' : Turn} (h : Turn.Move t t') (ht : Mirrors t.engine) :
    Mirrors t'.engine := by
  cases h with
  | @swallow id b pulse forced latch hb hreaches hrespond =>
    have hlayout := layout_mapLatch t.engine id fun _ => latch
    refine ht.congr hlayout ht.present (ht.blinks.congr hlayout fun _ huse => .inl huse)
      (fun _ h => h) (fun _ _ => rfl) (latch_mapLatch_congr Latch.stake ?_)
    rw [latch_of_getElem? hb]
    exact Latch.respond_none hrespond
  | @act id b pulse forced latch r hb hreaches hrespond =>
    obtain ⟨b', hacts⟩ := ht.toSlotsOwned.act hb hrespond
    exact ht.acts hb hacts
  | @plan id b was now hb => exact ht.followPlan (.inr ⟨b, hb, _, _, _, was, now, rfl⟩)
  | letGo hb hpad =>
    rw [Turn.engine_mapLatch]
    exact ht.letGo hb hpad
  | @blink id b hb huse =>
    obtain ⟨b', hacts⟩ := ht.toSlotsOwned.blink hb huse
    exact ht.acts hb hacts
  | goOn hb => exact ht.goOn hb
  | turnStick hb => exact ht.turnStick
  | stop id =>
    have hstop : Mirrors (t.engine.followPlan id .stop) := ht.followPlan (.inl rfl)
    exact hstop

end Engine

end VirtualPad
