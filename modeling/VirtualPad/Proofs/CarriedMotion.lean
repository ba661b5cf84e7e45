import VirtualPad.Host
import VirtualPad.Proofs.ExactNumbers

/-!
# Motion that is carried over

The host is told of motion in whole units.  What does not make up a unit is kept back and counted with the
motion that comes next, so a slow movement arrives late but is not lost, and a reversal first takes back
what had not been told yet.

Motion is counted in four parts: two axes of the pointer and two of the wheel.  A flush does the same to
each of them.  `told_flush` and `kept_flush` say what it does to one part; over a row of flushes the units
told and the remainder add up to all that has been fed.

The main result is `MotionRemainder.motion_carried`.
-/

namespace VirtualPad

/-! ## §1 The parts of motion -/

/-- The motion of the pointer and of the wheel that is fed at once. -/
structure MotionFeed where
  pointer : Motion Rat
  wheel : Motion Rat

/-- A part of motion that is counted by itself. -/
inductive MotionPart where
  | pointerX
  | pointerY
  | wheelX
  | wheelY

namespace MotionPart

/-- How much of it is fed. -/
def fed : MotionPart → MotionFeed → Rat
  | pointerX, feed => feed.pointer.dx
  | pointerY, feed => feed.pointer.dy
  | wheelX, feed => feed.wheel.dx
  | wheelY, feed => feed.wheel.dy

/-- How much of it has been kept back. -/
def kept : MotionPart → MotionRemainder Rat → Rat
  | pointerX, r => r.pointer.dx
  | pointerY, r => r.pointer.dy
  | wheelX, r => r.wheel.dx
  | wheelY, r => r.wheel.dy

/-- How much of it the host is told by an event. -/
def told : MotionPart → HostEvent → Int
  | pointerX, .motion dx _ => dx
  | pointerY, .motion _ dy => dy
  | wheelX, .scroll dx _ => dx
  | wheelY, .scroll _ dy => dy
  | _, _ => 0

/-- How much of it the host is told by a list of events. -/
def toldBy (part : MotionPart) (events : List HostEvent) : Int := (events.map part.told).sum

/-- What has come together of it when more is fed. -/
def gathered (part : MotionPart) (r : MotionRemainder Rat) (feed : MotionFeed) : Rat :=
  part.kept r + part.fed feed

theorem toldBy_append (part : MotionPart) (events later : List HostEvent) :
    part.toldBy (events ++ later) = part.toldBy events + part.toldBy later := by
  simp [toldBy]

end MotionPart

namespace MotionRemainder

open MotionPart

/-! ## §2 One flush -/

/-- The integer part of the number is a signed number of 32 bits. -/
def FitsInt32 (q : Rat) : Prop := -2147483648 ≤ wholeUnits q ∧ wholeUnits q ≤ 2147483647

instance : DecidablePred FitsInt32 := fun _ => inferInstanceAs (Decidable (_ ∧ _))

/-- Adds motion and tells the host of the whole units. -/
def flushFeed (r : MotionRemainder Rat) (feed : MotionFeed) : MotionRemainder Rat × List HostEvent :=
  r.flush feed.pointer feed.wheel

theorem toInt32_eq {q : Rat} (h : FitsInt32 q) : Scalar.toInt32 q = wholeUnits q := by
  show saturate32 (Scalar.ratWhole q) = _
  obtain ⟨hlow, hhigh⟩ := h
  rw [Scalar.ratWhole_eq, saturate32]
  omega

variable (r : MotionRemainder Rat) (feed : MotionFeed)

/-- The remainder is what the whole units leave of each part. -/
theorem kept_flush (part : MotionPart) :
    part.kept (r.flushFeed feed).1 = part.gathered r feed - wholeUnits (part.gathered r feed) := by
  rw [← Scalar.ratWhole_eq]
  cases part <;> rfl

variable {r feed}

theorem flushFeed_events (h : ∀ part : MotionPart, FitsInt32 (part.gathered r feed)) :
    (r.flushFeed feed).2 =
      announce .motion (wholeUnits (pointerX.gathered r feed), wholeUnits (pointerY.gathered r feed)) ++
        announce .scroll (wholeUnits (wheelX.gathered r feed), wholeUnits (wheelY.gathered r feed)) := by
  rw [← toInt32_eq (h pointerX), ← toInt32_eq (h pointerY), ← toInt32_eq (h wheelX),
    ← toInt32_eq (h wheelY)]
  rfl

/-- An event without units would have told nothing. -/
theorem toldBy_announce (part : MotionPart) {event : Int → Int → HostEvent}
    (hnone : part.told (event 0 0) = 0) (units : Int × Int) :
    part.toldBy (announce event units) = part.told (event units.1 units.2) := by
  unfold announce toldBy
  split
  · simp
  · rename_i hzero
    simp only [ne_eq, not_or, not_not] at hzero
    rw [hzero.1, hzero.2, hnone]
    rfl

/-- The host is told of the whole units of each part. -/
theorem told_flush (h : ∀ part : MotionPart, FitsInt32 (part.gathered r feed)) (part : MotionPart) :
    part.toldBy (r.flushFeed feed).2 = wholeUnits (part.gathered r feed) := by
  rw [flushFeed_events h, toldBy_append, toldBy_announce part (by cases part <;> rfl),
    toldBy_announce part (by cases part <;> rfl)]
  cases part <;> simp [told]

theorem mem_announce {event : Int → Int → HostEvent} {units : Int × Int} {e : HostEvent} :
    e ∈ announce event units ↔ (units.1 ≠ 0 ∨ units.2 ≠ 0) ∧ e = event units.1 units.2 := by
  unfold announce
  split <;> simp_all

/-- In a flush the host is told by an event of this kind if and only if whole units of one of the two
parts have come together, and it is told of those. -/
structure Tells (r : MotionRemainder Rat) (feed : MotionFeed) (event : Int → Int → HostEvent)
    (x y : MotionPart) : Prop where
  told_iff : (∃ dx dy, event dx dy ∈ (r.flushFeed feed).2) ↔
    wholeUnits (x.gathered r feed) ≠ 0 ∨ wholeUnits (y.gathered r feed) ≠ 0
  told_eq : ∀ dx dy, event dx dy ∈ (r.flushFeed feed).2 →
    dx = wholeUnits (x.gathered r feed) ∧ dy = wholeUnits (y.gathered r feed)

theorem tells_of_mem {event : Int → Int → HostEvent} {x y : MotionPart}
    (h : ∀ dx dy, event dx dy ∈ (r.flushFeed feed).2 ↔
      (wholeUnits (x.gathered r feed) ≠ 0 ∨ wholeUnits (y.gathered r feed) ≠ 0) ∧
        dx = wholeUnits (x.gathered r feed) ∧ dy = wholeUnits (y.gathered r feed)) :
    r.Tells feed event x y where
  told_iff := ⟨fun ⟨dx, dy, hevent⟩ => ((h dx dy).mp hevent).1,
    fun hunits => ⟨_, _, (h _ _).mpr ⟨hunits, rfl, rfl⟩⟩⟩
  told_eq dx dy hevent := ((h dx dy).mp hevent).2

theorem tells_flush (h : ∀ part : MotionPart, FitsInt32 (part.gathered r feed)) :
    r.Tells feed .motion pointerX pointerY ∧ r.Tells feed .scroll wheelX wheelY := by
  constructor
  · apply tells_of_mem
    intro dx dy
    rw [flushFeed_events h, List.mem_append, mem_announce, mem_announce]
    simp
  · apply tells_of_mem
    intro dx dy
    rw [flushFeed_events h, List.mem_append, mem_announce, mem_announce]
    simp

/-! ## §3 A row of flushes -/

/-- What a row of flushes leaves over, and the events of all of them. -/
def flushAll (r : MotionRemainder Rat) : List MotionFeed → MotionRemainder Rat × List HostEvent
  | [] => (r, [])
  | feed :: later =>
    let (next, events) := r.flushFeed feed
    let (last, rest) := next.flushAll later
    (last, events ++ rest)

/-- The integer parts of all that comes together in a row of flushes are numbers of 32 bits. -/
def Fits : MotionRemainder Rat → List MotionFeed → Prop
  | _, [] => True
  | r, feed :: later =>
    (∀ part : MotionPart, FitsInt32 (part.gathered r feed)) ∧ Fits (r.flushFeed feed).1 later

theorem Fits.append {r : MotionRemainder Rat} {earlier later : List MotionFeed}
    (h : r.Fits (earlier ++ later)) : r.Fits earlier ∧ (r.flushAll earlier).1.Fits later := by
  induction earlier generalizing r with
  | nil => exact ⟨trivial, h⟩
  | cons feed rest ih =>
    obtain ⟨hfeed, hrest⟩ := h
    exact ⟨⟨hfeed, (ih hrest).1⟩, (ih hrest).2⟩

/-- What has been told and what is left over add up to what was left over before and what was fed. -/
theorem told_flushAll {r : MotionRemainder Rat} {feeds : List MotionFeed} (h : r.Fits feeds)
    (part : MotionPart) :
    (part.toldBy (r.flushAll feeds).2 : Rat) + part.kept (r.flushAll feeds).1 =
      part.kept r + (feeds.map part.fed).sum := by
  induction feeds generalizing r with
  | nil => simp [flushAll, toldBy]
  | cons feed later ih =>
    obtain ⟨hfeed, hlater⟩ := h
    have hrest := ih hlater
    have htold := told_flush hfeed part
    have hkept := kept_flush r feed part
    unfold gathered at htold hkept
    show (part.toldBy ((r.flushFeed feed).2 ++ ((r.flushFeed feed).1.flushAll later).2) : Rat) +
      part.kept ((r.flushFeed feed).1.flushAll later).1 = _
    rw [toldBy_append, Int.cast_add, htold, List.map_cons, List.sum_cons]
    linarith

/-- What is left over never makes up a unit. -/
theorem kept_flushAll {r : MotionRemainder Rat} {part : MotionPart} (h : |part.kept r| < 1)
    (feeds : List MotionFeed) : |part.kept (r.flushAll feeds).1| < 1 := by
  induction feeds generalizing r with
  | nil => exact h
  | cons feed later ih =>
    have hnext : |part.kept (r.flushFeed feed).1| < 1 := by
      rw [kept_flush]
      exact abs_sub_wholeUnits_lt _
    exact ih hnext

/-- **Motion is neither lost nor made up.**  After each flush of a row, what the host has been told of a part
of motion and what is left over add up to all that has been fed, and what is left over is less than a unit.
The host is told of the pointer and of the wheel just when there are whole units. -/
theorem motion_carried {feeds : List MotionFeed} (h : none.Fits feeds) :
    (∀ earlier, earlier <+: feeds → ∀ part : MotionPart,
      (part.toldBy (none.flushAll earlier).2 : Rat) + part.kept (none.flushAll earlier).1 =
          (earlier.map part.fed).sum ∧
        |part.kept (none.flushAll earlier).1| < 1) ∧
      ∀ earlier feed, earlier ++ [feed] <+: feeds →
        (none.flushAll earlier).1.Tells feed .motion pointerX pointerY ∧
          (none.flushAll earlier).1.Tells feed .scroll wheelX wheelY := by
  have hnone : ∀ part : MotionPart, part.kept none = 0 := fun part => by cases part <;> rfl
  constructor
  · rintro earlier ⟨later, rfl⟩ part
    have htold := told_flushAll h.append.1 part
    rw [hnone, zero_add] at htold
    exact ⟨htold, kept_flushAll (by rw [hnone]; simp) earlier⟩
  · rintro earlier feed ⟨later, rfl⟩
    rw [List.append_assoc] at h
    exact tells_flush h.append.2.1

/-- A pointer that goes to and fro by parts of a unit. -/
def swaying : List MotionFeed :=
  [⟨⟨3 / 5, 0⟩, .none⟩, ⟨⟨3 / 5, -5 / 2⟩, .none⟩, ⟨⟨-3 / 2, 0⟩, ⟨0, 1⟩⟩]

/-- Twice six tenths make one unit up, and the way back is told as such. -/
theorem motion_carried_swaying :
    none.Fits swaying ∧
      (none.flushAll swaying).2 = [.motion 1 (-2), .motion (-1) 0, .scroll 0 1] ∧
      (pointerX.toldBy (none.flushAll swaying).2 : Rat) + pointerX.kept (none.flushAll swaying).1 =
        (swaying.map pointerX.fed).sum ∧
      pointerX.kept (none.flushAll swaying).1 = -3 / 10 := by
  have hfits : none.Fits swaying :=
    ⟨fun part => by cases part <;> decide +kernel, fun part => by cases part <;> decide +kernel,
      fun part => by cases part <;> decide +kernel, trivial⟩
  exact ⟨hfits, by decide +kernel, ((motion_carried hfits).1 swaying (List.prefix_refl _) pointerX).1,
    by decide +kernel⟩

end MotionRemainder

end VirtualPad
