import Mathlib.Data.List.Basic
import VirtualPad.Proofs.Moves

/-!
# When a binding comes into effect

A binding comes into effect in one way only: by a press that it accepts.  A release never does it,
not even with the toggle option, because the state that presses switch goes with the state of the
binding.  And a forced release always ends it.
-/

namespace VirtualPad

/-! ## §1 One latch -/

namespace Latch

/-- With the toggle option, the state that presses switch is whether the binding is in effect.
Motion is the exception: it is over with every release. -/
def Steady (l : Latch) (m : Mapping) (target : Descriptor) : Prop :=
  m.options.toggle = true → target.flags.relative = false → l.toggled = l.active

variable {l latch : Latch} {m : Mapping} {source target : Descriptor} {down forced : Bool}
  {strength : Float} {response : Option Response}

/-- A pulse keeps a latch steady, and brings a binding into effect by a press only. -/
theorem Steady.respond (hl : l.Steady m target)
    (h : l.respond m source target down strength forced = (latch, response)) :
    latch.Steady m target ∧
      (latch.active = true → l.active = true ∨ (down = true ∧ forced = false)) := by
  unfold Latch.respond at h
  dsimp only at h
  split at h
  · rename_i hmotion
    obtain ⟨rfl, -⟩ := Prod.mk.inj h
    refine ⟨fun _ hrelative => ?_, fun hactive => absurd hactive (by simp)⟩
    simp [hrelative] at hmotion
  · split at h
    · obtain ⟨rfl, -⟩ := Prod.mk.inj h
      exact ⟨hl, .inl⟩
    · rename_i hmotion hadd
      -- Without a toggle only a press is wanted, and with one a press has to switch it.
      have hwanted : l.wanted m down forced = true →
          l.active = true ∨ (down = true ∧ forced = false) := by
        intro hnow
        unfold Latch.wanted Latch.switched at hnow
        cases htoggle : m.options.toggle with
        | false =>
          right
          simpa [htoggle] using hnow
        | true =>
          cases forced with
          | true => simp [htoggle] at hnow
          | false =>
            cases down with
            | true => exact .inr ⟨rfl, rfl⟩
            | false =>
              left
              have hrelative : target.flags.relative = false := by simpa using hmotion
              rw [← hl htoggle hrelative]
              simpa [htoggle] using hnow
      have hswitched : m.options.toggle = true → l.switched m down forced = l.wanted m down forced := by
        intro htoggle
        simp [Latch.wanted, htoggle]
      split at h
      · rename_i hsettled
        obtain ⟨rfl, -⟩ := Prod.mk.inj h
        have hsame : l.wanted m down forced = l.active := by
          unfold Mapping.isSettled at hsettled
          simp only [Bool.and_eq_true, beq_iff_eq] at hsettled
          exact hsettled.1
        exact ⟨fun htoggle _ => (hswitched htoggle).trans hsame, .inl⟩
      · obtain ⟨rfl, -⟩ := Prod.mk.inj h
        exact ⟨fun htoggle _ => hswitched htoggle, hwanted⟩

theorem Steady.congr (hl : l.Steady m target) (h : latch.bits = l.bits) :
    latch.Steady m target := by
  simp only [bits, Prod.mk.injEq] at h
  intro htoggle hrelative
  rw [h.2.1, h.2.2]
  exact hl htoggle hrelative

theorem active_of_bits (h : latch.bits = l.bits) : latch.active = l.active :=
  congrArg (fun b : Bool × Bool × Bool => b.2.1) h

/-- A latch knows the last state of its source; nothing that is forced on it counts as a press. -/
theorem rawDown_of_respond
    (h : l.respond m source target down strength forced = (latch, response)) :
    latch.rawDown = (down && !forced) := by
  unfold Latch.respond at h
  dsimp only at h
  split at h
  · rename_i hmotion
    obtain ⟨rfl, -⟩ := Prod.mk.inj h
    simp only [Bool.and_eq_true, Bool.not_eq_true'] at hmotion
    simp [hmotion.2]
  · split at h
    · rename_i hbuilds
      obtain ⟨rfl, -⟩ := Prod.mk.inj h
      simp only [Bool.and_eq_true, Bool.not_eq_true'] at hbuilds
      simp [hbuilds.1.1.2]
    · split at h
      · obtain ⟨rfl, -⟩ := Prod.mk.inj h
        rfl
      · obtain ⟨rfl, -⟩ := Prod.mk.inj h
        rfl

/-- A binding that is not wanted has ended, unless what it has built up under conditions stays. -/
theorem ended_of_respond
    (h : l.respond m source target down strength forced = (latch, response))
    (hwanted : l.wanted m down forced = false)
    (hstays : (m.options.add && !down && !m.conditions.isEmpty && !forced) = false) :
    latch.active = false := by
  unfold Latch.respond at h
  rw [hwanted, hstays] at h
  dsimp only at h
  split at h
  · obtain ⟨rfl, -⟩ := Prod.mk.inj h
    rfl
  · rw [if_neg Bool.false_ne_true] at h
    split at h
    · rename_i hsettled
      obtain ⟨rfl, -⟩ := Prod.mk.inj h
      unfold Mapping.isSettled at hsettled
      simp only [Bool.and_eq_true, beq_iff_eq] at hsettled
      exact hsettled.1.symm
    · obtain ⟨rfl, -⟩ := Prod.mk.inj h
      rfl

/-- What is forced on a binding ends it and lets go of the source. -/
theorem respond_forced
    (h : l.respond m source target down strength true = (latch, response)) :
    latch.active = false ∧ latch.rawDown = false := by
  have hwanted : l.wanted m down true = false := by
    unfold Latch.wanted Latch.switched
    cases m.options.toggle <;> simp
  exact ⟨ended_of_respond h hwanted (by simp), (rawDown_of_respond h).trans (by simp)⟩

/-- A release ends a binding without a toggle, unless what it has built up under conditions stays. -/
theorem ended_of_release
    (h : l.respond m source target false strength forced = (latch, response))
    (htoggle : m.options.toggle = false) (hadd : m.options.add = true → m.conditions = []) :
    latch.active = false := by
  have hwanted : l.wanted m false forced = false := by
    unfold Latch.wanted
    simp [htoggle]
  refine ended_of_respond h hwanted ?_
  cases hbuilds : m.options.add with
  | false => simp
  | true => simp [hadd hbuilds]

end Latch

/-! ## §2 One move -/

namespace Turn

/-- In the second turn a binding has answered a pulse, and nothing else is new about a latch. -/
def Answered (t t' : Turn) (id : Nat) (b : Binding) (pulse : Pulse) (forced : Bool) : Prop :=
  t.engine.bindings[id]? = some b ∧ t.Reaches b pulse forced ∧
    ∃ latch response, b.latch.respond b.mapping (t.sourceOf b) (t.targetOf b) pulse.down
      pulse.strength forced = (latch, response) ∧
      ∀ i, (t'.engine.latch i).bits = if id = i then latch.bits else (t.engine.latch i).bits

/-- After that every binding is the one that has answered, or in effect as it was before. -/
theorem binding_of_answered {e e' : Engine} {id : Nat} {b : Binding} {latch : Latch}
    (hlayout : e'.layout = e.layout) (hb : e.bindings[id]? = some b)
    (hbits : ∀ i, (e'.latch i).bits = if id = i then latch.bits else (e.latch i).bits) {i : Nat}
    {c' : Binding} (hc' : e'.bindings[i]? = some c') :
    ∃ c, e.bindings[i]? = some c ∧ c.mapping = c'.mapping ∧ c.slot = c'.slot ∧
      (i = id ∧ c = b ∧ c'.latch.bits = latch.bits ∨ i ≠ id ∧ c'.latch.bits = c.latch.bits) := by
  obtain ⟨c, hc, hmapping, hslot⟩ := Engine.binding_congr hlayout.symm hc'
  have hsame := hbits i
  rw [Engine.latch_of_getElem? hc, Engine.latch_of_getElem? hc'] at hsame
  by_cases hi : id = i
  · subst hi
    rw [if_pos rfl] at hsame
    exact ⟨c, hc, hmapping, hslot, .inl ⟨rfl, Option.some.inj (hc.symm.trans hb), hsame⟩⟩
  · rw [if_neg hi] at hsame
    exact ⟨c, hc, hmapping, hslot, .inr ⟨Ne.symm hi, hsame⟩⟩

theorem answered_firstStep {t : Turn} {id : Nat} {b : Binding} {pulse : Pulse} {forced : Bool}
    {latch : Latch} {response : Option Response} (hb : t.engine.bindings[id]? = some b)
    (hreaches : t.Reaches b pulse forced)
    (hrespond : b.latch.respond b.mapping (t.sourceOf b) (t.targetOf b) pulse.down pulse.strength
      forced = (latch, response)) :
    Answered t (t.firstStep id b pulse forced latch response) id b pulse forced := by
  refine ⟨hb, hreaches, latch, response, hrespond, fun i => ?_⟩
  have hbits := congrArg Latch.bits (core_firstStep hb pulse forced latch response i)
  rw [apply_ite Latch.bits] at hbits
  exact hbits

/-- A move leaves alone what the bindings look at, and it is quiet or an answer to a pulse. -/
theorem Move.bits {t t' : Turn} (h : Move t t') : t'.engine.scene = t.engine.scene ∧
    (Quiet t t' ∨ ∃ id b pulse forced, Answered t t' id b pulse forced) := by
  have hquiet : Quiet t t' → _ ∧ (Quiet t t' ∨ ∃ id b pulse forced, Answered t t' id b pulse forced) :=
    fun h => ⟨h.scene, .inl h⟩
  cases h with
  | @swallow id b pulse forced latch hb hreaches hrespond =>
    have hanswered : Answered t (t.firstStep id b pulse forced latch none) id b pulse forced :=
      answered_firstStep hb hreaches hrespond
    exact ⟨rfl, .inr ⟨id, b, pulse, forced, hanswered⟩⟩
  | @act id b pulse forced latch r hb hreaches hrespond =>
    obtain ⟨change, pads, outputs, hengine, -⟩ := perform_frame
      (t.mapLatch id fun _ => latch) id b.mapping (t.sourceOf b) (t.targetOf b) pulse.user r forced
    have hscene := congrArg Engine.scene hengine
    have hanswered : Answered t (t.firstStep id b pulse forced latch (some r)) id b pulse forced :=
      answered_firstStep hb hreaches hrespond
    exact ⟨hscene, .inr ⟨id, b, pulse, forced, hanswered⟩⟩
  | plan was now hb => exact hquiet (quiet_of_untimed (Engine.untimed_followPlan _ _ _))
  | letGo hb hpad => exact hquiet (quiet_letGo t _)
  | blink hb huse => exact hquiet (quiet_blink t _ _ _)
  | goOn hb => exact hquiet (quiet_goOn t _ _)
  | turnStick hb => exact hquiet (quiet_turnStick t _ _)
  | stop id => exact hquiet (quiet_of_untimed (Engine.untimed_stopTimer _ _))

end Turn

end VirtualPad
