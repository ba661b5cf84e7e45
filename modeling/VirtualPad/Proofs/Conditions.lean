import Mathlib.Data.List.Basic
import VirtualPad.Mapping

/-!
# What the truth of a condition depends on

A condition reads the lines of the controls that its tests name, and the active user if a test asks
for that one.  On boards that agree about those lines it has the same truth value.
-/

namespace VirtualPad

namespace Switchboard

/-- Two boards say the same about a control. -/
def SameState (b b' : Switchboard) (c : Control) : Prop :=
  ∀ user, b.isDown? c user = b'.isDown? c user ∧ b.isToggled? c user = b'.isToggled? c user

theorem SameState.refl (b : Switchboard) (c : Control) : SameState b b c :=
  fun _ => ⟨rfl, rfl⟩

end Switchboard

section

variable {b b' : Switchboard} {active active' : Nat}

/-- What a test of a control with a line asks the line. -/
theorem Test.holdsFor_of_line {t : Test} {line : Line} (hline : b.line? t.control = some line)
    (user : Nat) : t.holdsFor b user =
      ((if t.toggle then line.isToggled user else line.isDown user) == t.desired) := by
  unfold Test.holdsFor Switchboard.isToggled? Switchboard.isDown?
  rw [hline]
  cases t.toggle <;> rfl

/-- The truth of a test, on boards that agree about its control. -/
theorem Test.holds_congr {t : Test} (hboard : b.SameState b' t.control)
    (huser : t.user = .active → active = active') : t.holds b active = t.holds b' active' := by
  have hfor : ∀ user, t.holdsFor b user = t.holdsFor b' user := by
    intro user
    unfold Test.holdsFor
    rw [(hboard user).1, (hboard user).2]
  unfold Test.holds
  cases h : t.user with
  | index user => exact hfor user
  | active =>
    rw [huser h]
    exact hfor active'
  | everyone => simp only [hfor]

namespace Condition

/-- The controls of several conditions are those of their tests. -/
theorem mem_controlsOf {conditions : List Condition} {c : Control} :
    c ∈ controlsOf conditions ↔ ∃ t ∈ testsOf conditions, t.control = c := by
  unfold controlsOf
  rw [List.mem_eraseDups, List.mem_map]

mutual

/-- The truth of a condition depends on its tests only. -/
theorem holds_congr : ∀ c : Condition, (∀ t ∈ c.tests, t.holds b active = t.holds b' active') →
    c.holds b active = c.holds b' active'
  | .test t, h => h t (by simp [tests])
  | .all parts, h => by
    unfold holds
    exact allHold_congr parts (by simpa [tests] using h)
  | .any parts, h => by
    unfold holds
    exact anyHolds_congr parts (by simpa [tests] using h)

/-- The truth of several conditions together depends on their tests only. -/
theorem allHold_congr : ∀ cs : List Condition,
    (∀ t ∈ testsOf cs, t.holds b active = t.holds b' active') →
    allHold b active cs = allHold b' active' cs
  | [], _ => by simp [allHold]
  | c :: rest, h => by
    simp only [testsOf, List.mem_append] at h
    unfold allHold
    rw [holds_congr c fun t ht => h t (.inl ht), allHold_congr rest fun t ht => h t (.inr ht)]

/-- The truth of one of several conditions depends on their tests only. -/
theorem anyHolds_congr : ∀ cs : List Condition,
    (∀ t ∈ testsOf cs, t.holds b active = t.holds b' active') →
    anyHolds b active cs = anyHolds b' active' cs
  | [], _ => by simp [anyHolds]
  | c :: rest, h => by
    simp only [testsOf, List.mem_append] at h
    unfold anyHolds
    rw [holds_congr c fun t ht => h t (.inl ht), anyHolds_congr rest fun t ht => h t (.inr ht)]

end

end Condition

/-- The conditions of a mapping hold alike on boards that agree about every control they read. -/
theorem Mapping.allows_congr {m : Mapping}
    (h : ∀ t ∈ Condition.testsOf m.conditions, b.SameState b' t.control ∧
      (t.user = .active → active = active')) : m.allows b active = m.allows b' active' :=
  Condition.allHold_congr m.conditions fun t ht => Test.holds_congr (h t ht).1 (h t ht).2

end

/-! ## §1 Moving a control -/

namespace Line

/-- Setting a line to the state it has changes nothing anybody can read. -/
theorem isDown_set_of_not_moves {l : Line} {user : Nat} {down : Bool} (hin : user < maskWidth)
    (hmoves : l.moves user down = false) (other : Nat) :
    (l.set user down).isDown other = l.isDown other ∧
      (l.set user down).isToggled other = l.isToggled other := by
  have hsame : l.isDown user = down := by
    unfold moves at hmoves
    simpa [hin] using hmoves
  constructor
  · show (l.down.put user down).has other = l.down.has other
    rw [Mask.has_put]
    split
    · rename_i h
      rw [← h.1]
      exact hsame.symm
    · rfl
  · unfold set isToggled
    dsimp only
    rw [if_neg]
    cases down <;> simp [hsame]

end Line

namespace Switchboard

/-- Moving a control leaves the state of the others as it was. -/
theorem sameState_set_of_ne (b : Switchboard) {c other : Control} (hne : c ≠ other) (user : Nat)
    (down : Bool) : (b.set c user down).SameState b other := by
  intro u
  unfold isDown? isToggled? set adjust line?
  have happart : compare c other ≠ .eq := fun h => hne (Std.LawfulEqOrd.eq_of_compare h)
  simp [Std.TreeMap.getElem?_modify, happart]

end Switchboard

end VirtualPad
