import VirtualPad.Proofs.BackedSlots
import VirtualPad.Proofs.Ticks

/-!
# Beats

A run of an engine, taken apart.  A beat is a call that leaves the clock and the configuration alone, or
a timer that goes off when it is due, or a stretch of time in which nothing is due.  Running the clock up
to a time is a series of beats, so what is said of every beat holds also in the middle of such a run.
-/

namespace VirtualPad

/-- The call neither runs the clock nor brings another configuration. -/
def Call.IsSingle : Call → Prop
  | .input _ _ _ _ _ | .motion _ _ _ _ | .releaseAll _ => True
  | .runUntil _ | .reload _ => False

theorem Call.IsSingle.admitted {admits : Config → Prop} {call : Call} (h : call.IsSingle) :
    call.Admitted admits := by
  cases call with
  | reload config => exact h.elim
  | input | motion | releaseAll | runUntil => trivial

namespace Engine

/-- One thing happens, or nothing does for a while. -/
inductive Beat : Engine → Engine → Prop
  | call {e : Engine} {call : Call} (hcall : call.IsSingle) : Beat e (e.after call)
  | tick {e : Engine} {limit due : Nanoseconds} {token : TimerToken} {clock : Clock}
      (hdue : e.clock.nextDue? limit = some (token, due, clock)) :
      Beat e (({ e with clock } : Engine).onTimer token (due.toMillis % twoTo 64))
  | pass {e : Engine} {time : Nanoseconds} (hdue : e.clock.nextDue? time = none) :
      Beat e { e with clock := e.clock.advanceTo time }

/-- One beat after another. -/
abbrev Beats : Engine → Engine → Prop := Relation.ReflTransGen Beat

variable {e e' : Engine} {limit : Nanoseconds}

namespace Beat

theorem deeds (h : Beat e e') : Deeds e e' := by
  cases h with
  | @call call hcall =>
    refine deeds_after e fun config hreload => ?_
    rw [hreload] at hcall
    exact hcall
  | @tick limit due token clock hdue =>
    exact .head (.duty (.errand (.pass e clock))) (deeds_onTimer _ token _)
  | pass hdue => exact .single (.duty (.errand (.pass e _)))

theorem layout (h : Beat e e') : e'.layout = e.layout := h.deeds.layout

/-- What is stable is kept by every beat. -/
theorem stable {admits : Config → Prop} {P : Engine → Prop} (hP : Stable admits P) (h : Beat e e')
    (he : P e) : P e' := by
  cases h with
  | call hcall => exact hP.after e _ hcall.admitted he
  | tick hdue => exact @StableAlong.expire _ _ hP.along [] _ _ _ _ _ _ hdue he
  | pass hdue => exact hP.chore (.advance e _) he

/-- A beat takes no longer than there is nothing due. -/
theorem inTime (h : Beat e e') (he : InTime e) : InTime e' := by
  cases h with
  | call hcall => exact he.after hcall.admitted
  | tick hdue => exact (he.expire hdue _).1
  | @pass time hdue =>
    have hadvanced := he.onTime.paced.chore (.advance e time)
    refine ⟨⟨hadvanced.toOrderly, fun t ht => ?_⟩, measured_timeless e _ he.measured, he.queue⟩
    exact max_le (he.onTime.ahead t ht) (Nat.le_of_lt (Clock.nextDue?_none hdue t ht))

/-- Time does not go back. -/
theorem now_le (h : Beat e e') (he : InTime e) : e.clock.now ≤ e'.clock.now := by
  cases h with
  | @call call hcall =>
    refine Nat.le_of_eq (now_after e fun ms hrun => ?_).symm
    rw [hrun] at hcall
    exact hcall
  | tick hdue =>
    rw [(he.expire hdue _).2]
    exact (he.onTime.now_nextDue hdue).2.1
  | pass hdue => exact Nat.le_max_left _ _

end Beat

namespace Beats

theorem deeds (h : Beats e e') : Deeds e e' := by
  induction h with
  | refl => exact .refl
  | tail _ hlast ih => exact ih.trans hlast.deeds

theorem stable {admits : Config → Prop} {P : Engine → Prop} (hP : Stable admits P) (h : Beats e e')
    (he : P e) : P e' := by
  induction h with
  | refl => exact he
  | tail _ hlast ih => exact hlast.stable hP ih

theorem inTime (h : Beats e e') (he : InTime e) : InTime e' := by
  induction h with
  | refl => exact he
  | tail _ hlast ih => exact hlast.inTime ih

theorem wellBacked (h : Beats e e') (he : WellBacked e) : WellBacked e' := by
  have hdeeds := h.deeds
  clear h
  induction hdeeds with
  | refl => exact he
  | tail _ hlast ih => exact ih.deed hlast

end Beats

/-- Ticks up to a time are beats. -/
theorem TicksUntil.beats {times : List Nat} {last : Engine} (h : TicksUntil limit e times last) :
    Beats e last ∧ last.clock.nextDue? limit = none := by
  induction h with
  | done hdue => exact ⟨.refl, hdue⟩
  | tick hdue _ ih => exact ⟨.head (.tick hdue) ih.1, ih.2⟩

/-- **Running the clock up to a time is a series of beats**, after which nothing is due any more and
that time has been reached. -/
theorem InTime.beats_runUntil (he : InTime e) (ms : Nat) :
    Beats e (e.runUntil ms) ∧ (∀ t ∈ (e.runUntil ms).clock.timers, Nanoseconds.ofMillis ms < t.due) ∧
      (e.runUntil ms).clock.now = max e.clock.now (Nanoseconds.ofMillis ms) := by
  obtain ⟨times, last, hticks, hrun, -⟩ := he.onTime.ticksUntil he.measured he.queue ms
  obtain ⟨-, hnone, hearly, hlate⟩ := (he.onTime.looping he.measured he.queue _).ends hticks
  obtain ⟨hbeats, hdue⟩ := hticks.beats
  rw [hrun]
  refine ⟨hbeats.tail (.pass hdue), hnone, Nat.le_antisymm (max_le hlate (Nat.le_max_right _ _)) ?_⟩
  exact max_le (Nat.le_trans hearly (Nat.le_max_left _ _)) (Nat.le_max_right _ _)

end Engine

end VirtualPad
