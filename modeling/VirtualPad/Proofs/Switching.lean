import Mathlib.Algebra.Ring.Parity
import VirtualPad.Proofs.Latches
import VirtualPad.Proofs.Runs

/-!
# Presses that switch

With the toggle option the presses of a source switch a mapping on and off.  This module follows one
latch through any sequence of signals: presses that begin or repeat, releases, and resets, by which
everything the mapping holds is released by force.

A target that is not relative is on just when an odd number of presses has begun since the last reset
(`Latch.active_heard`).  A relative target is off with every release, but the state that presses
switch outlives releases and resets there, so the mapping can come out of a reset switched the wrong
way round (`Latch.stale_reset`); `Latch.switched_heard` says for both kinds of target what a sequence
comes to.
-/

namespace VirtualPad

/-- What the latch of a mapping can be told. -/
inductive Signal where
  /-- The source is down, for the first time or once more. -/
  | press (strength : Float)
  /-- The source is up. -/
  | release (strength : Float)
  /-- Whatever the mapping holds is released by force. -/
  | reset

namespace Signal

/-! ## §1 Histories of signals -/

/-- The source is up after a history, the newest signal first.  A reset puts it up. -/
def isUp : List Signal → Bool
  | .press _ :: _ => false
  | [] | .release _ :: _ | .reset :: _ => true

/-- How many presses of a history have begun; the others repeat the one before. -/
def begun : List Signal → Nat
  | [] => 0
  | .press _ :: earlier => if isUp earlier then begun earlier + 1 else begun earlier
  | .release _ :: earlier | .reset :: earlier => begun earlier

/-- The signals of a history since its last reset. -/
def sinceReset : List Signal → List Signal
  | [] | .reset :: _ => []
  | .press strength :: earlier => .press strength :: sinceReset earlier
  | .release strength :: earlier => .release strength :: sinceReset earlier

theorem isUp_sinceReset (history : List Signal) : isUp (sinceReset history) = isUp history := by
  cases history with
  | nil => rfl
  | cons signal earlier => cases signal <;> rfl

end Signal

namespace Latch

/-- The latch after a signal. -/
def hear (l : Latch) (m : Mapping) (source target : Descriptor) : Signal → Latch
  | .press strength => (l.respond m source target true strength false).1
  | .release strength => (l.respond m source target false strength false).1
  | .reset => (l.respond m source target false 0 true).1

/-- The latch after a history of signals, the newest first. -/
def heard (m : Mapping) (source target : Descriptor) : List Signal → Latch
  | [] => {}
  | signal :: earlier => (heard m source target earlier).hear m source target signal

variable {m : Mapping} {source target : Descriptor}

/-! ## §2 One signal -/

/-- With the toggle option, a latch shows after a pulse what presses have switched it to, unless the
pulse is one that a relative target takes as the end of motion. -/
theorem active_respond_toggle {l : Latch} (source : Descriptor) (down : Bool) (htoggle : m.options.toggle = true)
    (hmotion : (target.flags.relative && !down) = false)
    (hl : down = false → l.toggled = l.active) (strength : Float) (forced : Bool) :
    (l.respond m source target down strength forced).1.active = l.switched m down forced ∧
      (l.respond m source target down strength forced).1.toggled = l.switched m down forced := by
  have hwanted : l.wanted m down forced = l.switched m down forced := by
    unfold Latch.wanted
    rw [if_pos htoggle]
  rcases hrespond : l.respond m source target down strength forced with ⟨latch, response⟩
  unfold Latch.respond at hrespond
  simp only [hmotion, Bool.false_eq_true, if_false] at hrespond
  split at hrespond
  · -- What was built up under conditions stays, and a release switches nothing.
    rename_i hbuilds
    obtain ⟨rfl, -⟩ := Prod.mk.inj hrespond
    simp only [Bool.and_eq_true, Bool.not_eq_true'] at hbuilds
    simp [Latch.switched, htoggle, hl hbuilds.1.1.2, hbuilds.1.1.2, hbuilds.2]
  · split at hrespond
    · rename_i hsettled
      obtain ⟨rfl, -⟩ := Prod.mk.inj hrespond
      unfold Mapping.isSettled at hsettled
      simp only [Bool.and_eq_true, beq_iff_eq] at hsettled
      exact ⟨hsettled.1.symm.trans hwanted, rfl⟩
    · obtain ⟨rfl, -⟩ := Prod.mk.inj hrespond
      exact ⟨hwanted, rfl⟩

/-- Whatever ends a relative target leaves alone what presses have switched. -/
theorem respond_up_relative (l : Latch) (hrelative : target.flags.relative = true)
    (strength : Float) (forced : Bool) :
    (l.respond m source target false strength forced).1 =
      { l with rawDown := false, active := false } := by
  simp [Latch.respond, hrelative]

/-- Every signal leaves the latch with the state of the source that it stands for. -/
theorem rawDown_heard (m : Mapping) (source target : Descriptor) (history : List Signal) :
    (heard m source target history).rawDown = !Signal.isUp history := by
  cases history with
  | nil => rfl
  | cons signal earlier => cases signal <;> exact rawDown_of_respond rfl

/-! ## §3 Whole histories -/

/-- **Presses that begin switch the mapping**: a target that is not relative is on just when an odd
number of them has come since the last reset. -/
theorem active_heard (source : Descriptor) (htoggle : m.options.toggle = true) (hrelative : target.flags.relative = false)
    (history : List Signal) :
    (heard m source target history).toggled = (heard m source target history).active ∧
      ((heard m source target history).active = true ↔
        Odd (Signal.begun (Signal.sinceReset history))) := by
  induction history with
  | nil => simp [heard, Signal.sinceReset, Signal.begun]
  | cons signal earlier ih =>
    obtain ⟨hsteady, hparity⟩ := ih
    have hraw := rawDown_heard m source target earlier
    have hanswer : ∀ down strength forced, _ := fun down strength forced =>
      active_respond_toggle source down htoggle (show (target.flags.relative && !down) = false by
        simp [hrelative]) (fun _ => hsteady) strength forced
    -- A press that begins turns it round, a release changes nothing, and a reset puts it out.
    cases signal with
    | press strength =>
      obtain ⟨hactive, htoggled⟩ := hanswer true strength false
      refine ⟨htoggled.trans hactive.symm, ?_⟩
      rw [heard, hear, hactive, Latch.switched, htoggle, hraw, Signal.sinceReset, Signal.begun,
        Signal.isUp_sinceReset]
      cases Signal.isUp earlier with
      | true => simpa [Nat.odd_add_one, hsteady] using hparity.not
      | false => simpa [hsteady] using hparity
    | release strength =>
      obtain ⟨hactive, htoggled⟩ := hanswer false strength false
      refine ⟨htoggled.trans hactive.symm, ?_⟩
      rw [heard, hear, hactive]
      simpa [Latch.switched, htoggle, hsteady, Signal.sinceReset, Signal.begun] using hparity
    | reset =>
      obtain ⟨hactive, htoggled⟩ := hanswer false 0 true
      refine ⟨htoggled.trans hactive.symm, ?_⟩
      rw [heard, hear, hactive]
      simp [Latch.switched, htoggle, Signal.sinceReset, Signal.begun]

/-- A relative target shows what presses have switched while its source is down, and what they have
switched outlives every reset. -/
theorem active_heard_relative (htoggle : m.options.toggle = true)
    (hrelative : target.flags.relative = true) (history : List Signal) :
    ((heard m source target history).toggled = true ↔ Odd (Signal.begun history)) ∧
      (heard m source target history).active =
        ((heard m source target history).toggled && !Signal.isUp history) := by
  induction history with
  | nil => simp [heard, Signal.begun]
  | cons signal earlier ih =>
    obtain ⟨hparity, -⟩ := ih
    have hraw := rawDown_heard m source target earlier
    cases signal with
    | press strength =>
      obtain ⟨hactive, htoggled⟩ := active_respond_toggle (l := heard m source target earlier) source
        true htoggle (show (target.flags.relative && !true) = false by simp) nofun strength false
      rw [heard, hear, hactive, htoggled, Latch.switched, htoggle, hraw, Signal.begun]
      refine ⟨?_, by simp [Signal.isUp]⟩
      cases Signal.isUp earlier with
      | true => simpa [Nat.odd_add_one] using hparity.not
      | false => simpa using hparity
    | release strength =>
      rw [heard, hear, respond_up_relative _ hrelative]
      exact ⟨hparity, by simp [Signal.isUp]⟩
    | reset =>
      rw [heard, hear, respond_up_relative _ hrelative]
      exact ⟨hparity, by simp [Signal.isUp]⟩

/-- **What a history of signals comes to** with the toggle option.  A target that is not relative is
on just when an odd number of presses has begun since the last reset; releases do not switch it, and
a reset leaves nothing behind.  A relative target is on while its source is down and an odd number of
presses has begun since the mapping was installed, resets or not. -/
theorem switched_heard (htoggle : m.options.toggle = true) (history : List Signal) :
    (target.flags.relative = false →
      ((heard m source target history).active = true ↔
        Odd (Signal.begun (Signal.sinceReset history))) ∧
      (heard m source target history).toggled = (heard m source target history).active ∧
      (∀ strength, (heard m source target (.release strength :: history)).active =
        (heard m source target history).active) ∧
      (heard m source target (.reset :: history)).active = false ∧
      (heard m source target (.reset :: history)).toggled = false) ∧
    (target.flags.relative = true →
      ((heard m source target history).toggled = true ↔ Odd (Signal.begun history)) ∧
      (heard m source target history).active =
        ((heard m source target history).toggled && !Signal.isUp history)) := by
  refine ⟨fun hrelative => ?_, fun hrelative => active_heard_relative htoggle hrelative history⟩
  obtain ⟨hsteady, hparity⟩ := active_heard source htoggle hrelative history
  refine ⟨hparity, hsteady, fun strength => ?_, ?_⟩
  · have hafter := (active_heard source htoggle hrelative
      (.release strength :: history)).2
    rw [Signal.sinceReset, Signal.begun] at hafter
    exact Bool.eq_iff_iff.mpr (hafter.trans hparity.symm)
  · obtain ⟨hsame, hafter⟩ := active_heard source htoggle hrelative (.reset :: history)
    have hoff : (heard m source target (.reset :: history)).active = false := by
      simpa [Signal.sinceReset, Signal.begun] using hafter
    exact ⟨hoff, hsame.trans hoff⟩

/-- The key A switches a button on and off. -/
def switchingFile : ConfigFile :=
  { mappings := [{ source := "A", target := "PadA", options := ["toggle"] }] }

/-- Since the reset a press has begun, was repeated and has begun anew: the button is off again. -/
theorem switched_heard_twice :
    ∃ m ∈ switchingFile.compile.mappings, m.options.toggle = true ∧
      (switchingFile.compile.vocabulary.descriptor m.target).flags.relative = false ∧
      (heard m (switchingFile.compile.vocabulary.descriptor m.source)
        (switchingFile.compile.vocabulary.descriptor m.target)
        [.press 1, .release 0, .press 1, .press 1, .reset, .press 1]).active = false := by
  have hstate : (switchingFile.compile.mappings.map fun m => (m.options.toggle,
      (switchingFile.compile.vocabulary.descriptor m.target).flags.relative)) = [(true, false)] := by
    decide +kernel
  obtain ⟨m, rest, hmappings, hm, -⟩ := List.map_eq_cons_iff.mp hstate
  obtain ⟨htoggle, hrelative⟩ := Prod.mk.inj hm
  have hparity : (heard m (switchingFile.compile.vocabulary.descriptor m.source)
      (switchingFile.compile.vocabulary.descriptor m.target)
      [.press 1, .release 0, .press 1, .press 1, .reset, .press 1]).active = true ↔ Odd 2 :=
    ((switched_heard htoggle _).1 hrelative).1
  refine ⟨m, by simp [hmappings], htoggle, hrelative, Bool.eq_false_iff.mpr fun hactive => ?_⟩
  exact absurd (hparity.mp hactive) (by decide)

/-- The key A switches motion of the pointer on and off. -/
def steeringFile : ConfigFile :=
  { mappings := [{ source := "A", target := "MouseRight", options := ["toggle"] }] }

/-- A reset that ends motion does not put back what presses have switched, so that the first press
after it does nothing. -/
theorem stale_reset :
    steeringFile.compile.diagnostics = [] ∧ ∃ m ∈ steeringFile.compile.mappings,
      m.options.toggle = true ∧
      (heard m (steeringFile.compile.vocabulary.descriptor m.source)
        (steeringFile.compile.vocabulary.descriptor m.target) [.reset, .press 1]).toggled = true ∧
      Signal.begun (Signal.sinceReset [.press 1, .reset, .press 1]) = 1 ∧
      (heard m (steeringFile.compile.vocabulary.descriptor m.source)
        (steeringFile.compile.vocabulary.descriptor m.target)
        [.press 1, .reset, .press 1]).active = false := by
  have hclean : steeringFile.compile.diagnostics.isEmpty = true := by decide +kernel
  have hstate : (steeringFile.compile.mappings.map fun m => (m.options.toggle,
      (heard m (steeringFile.compile.vocabulary.descriptor m.source)
        (steeringFile.compile.vocabulary.descriptor m.target) [.reset, .press 1]).toggled,
      (heard m (steeringFile.compile.vocabulary.descriptor m.source)
        (steeringFile.compile.vocabulary.descriptor m.target)
        [.press 1, .reset, .press 1]).active)) = [(true, true, false)] := by
    decide +kernel
  obtain ⟨m, rest, hmappings, hm, -⟩ := List.map_eq_cons_iff.mp hstate
  obtain ⟨htoggle, hrest⟩ := Prod.mk.inj hm
  obtain ⟨hstale, hoff⟩ := Prod.mk.inj hrest
  exact ⟨List.isEmpty_iff.mp hclean, m, by simp [hmappings], htoggle, hstale, rfl, hoff⟩

end Latch

end VirtualPad
