import Mathlib.Tactic.Positivity
import Mathlib.Tactic.Ring
import VirtualPad.Pad.Stick
import VirtualPad.Proofs.ExactNumbers

/-!
# Opposite sides that merge

The two sides of an axis pull against each other.  Each counts with its weight, and what comes out is
divided by the heavier weight.  So it stays between the ends whatever is pushed, and the clamp that comes
last has nothing left to do.

A further push makes its side stronger or leaves it as strong, and it makes it heavier.  It draws the value
to its own side: as long as the other side is the heavier one there is more on this side and the divisor
stays, and from then on it is the other side that counts for less.

The main result is `sides_merged`.
-/

namespace VirtualPad

/-! ## §1 One push more -/

namespace Slots

variable {κ : Type} {s : Slots κ} {replaces : κ → Bool}

/-- Filling an empty slot adds one contribution to those that are there. -/
theorem live_put_of_empty {slot : Slot} (hempty : s.held slot = none) (contribution : κ) :
    (s.put slot (some contribution)).live.Perm (contribution :: s.live) := by
  have hin : slot.val < s.contributions.toList.length := by simp
  have hrow : s.contributions.toList =
      s.contributions.toList.take slot ++ none :: s.contributions.toList.drop (slot + 1) := by
    have hnone : s.contributions.toList[slot.val] = none := by simpa [held] using hempty
    rw [← hnone, List.cons_getElem_drop_succ, List.take_append_drop]
  have hlive : s.live = (s.contributions.toList.take slot).filterMap id ++
      (s.contributions.toList.drop (slot + 1)).filterMap id :=
    (congrArg (List.filterMap id) hrow).trans (by simp)
  rw [hlive, live, put, Vector.toList_set, List.set_eq_take_append_cons_drop, if_pos hin]
  simp

/-- As long as nothing replaces, everything counts. -/
theorem effective_of_plain (h : ∀ c ∈ s.live, replaces c = false) : s.effective replaces = s.live := by
  have hnone : s.live.filter replaces = [] := by simpa using h
  rw [effective, hnone]
  rfl

end Slots

namespace StrengthCell

variable {c : StrengthCell Rat}

/-- No push that lasts replaces others. -/
def Plain (c : StrengthCell Rat) : Prop := ∀ push ∈ c.live, push.replaces = false

theorem pushes_eq_nil (h : c.live = []) : c.pushes = [] :=
  (Slots.effective_eq_nil c Push.replaces).mpr h

theorem weight_eq_zero (h : c.live = []) : c.weight = 0 := by
  rw [weight, pushes_eq_nil h, List.length_nil]

theorem value_eq_zero (h : c.live = []) : c.value = 0 := by
  rw [value, pushes_eq_nil h]
  rfl

theorem foldl_maximum_le {pushes : List (Push Rat)} {best bound : Rat} :
    pushes.foldl (fun best push => Scalar.maximum best push.strength) best ≤ bound ↔
      best ≤ bound ∧ ∀ push ∈ pushes, push.strength ≤ bound := by
  induction pushes generalizing best with
  | nil => simp
  | cons push rest ih =>
    rw [List.foldl_cons, ih, Scalar.maximum_eq, max_le_iff, List.forall_mem_cons, and_assoc]

/-- A strength is the least number that is neither below zero nor below a push. -/
theorem value_le_iff {bound : Rat} :
    c.value ≤ bound ↔ 0 ≤ bound ∧ ∀ push ∈ c.pushes, push.strength ≤ bound :=
  foldl_maximum_le

/-- There is one push more than before, and the strength has not become less. -/
structure OneMore (c c' : StrengthCell Rat) : Prop where
  weight : c'.weight = c.weight + 1
  value : c.value ≤ c'.value

theorem oneMore_put {slot : Slot} (hempty : c.held slot = none) (hplain : c.Plain) {push : Push Rat}
    (hpush : push.replaces = false) : c.OneMore (c.put slot (some push)) := by
  have hperm := Slots.live_put_of_empty hempty push
  have hbefore : c.pushes = c.live := Slots.effective_of_plain hplain
  have hafter : pushes (c.put slot (some push)) = (c.put slot (some push)).live := by
    apply Slots.effective_of_plain
    intro other hother
    rcases List.mem_cons.mp (hperm.mem_iff.mp hother) with rfl | hother
    · exact hpush
    · exact hplain other hother
  constructor
  · rw [weight, weight, hafter, hbefore, hperm.length_eq, List.length_cons]
  · obtain ⟨hzero, hbound⟩ := value_le_iff.mp (le_refl (value (c.put slot (some push))))
    refine value_le_iff.mpr ⟨hzero, fun other hother => hbound other ?_⟩
    rw [hafter, hperm.mem_iff]
    exact List.mem_cons_of_mem _ (hbefore ▸ hother)

/-- One slot more pushes, and it does not replace what the others do. -/
inductive PressedTo (c : StrengthCell Rat) : StrengthCell Rat → Prop
  | set (slot : Slot) (hempty : c.held slot = none) (strength : Rat) :
    PressedTo c (c.set slot true strength false)
  | add (slot : Slot) (hempty : c.held slot = none) (amount : Rat) :
    PressedTo c (c.add slot amount false)

theorem PressedTo.oneMore {c' : StrengthCell Rat} (h : c.PressedTo c') (hplain : c.Plain) :
    c.OneMore c' := by
  cases h with
  | set slot hempty strength => exact oneMore_put hempty hplain rfl
  | add slot hempty amount => exact oneMore_put hempty hplain rfl

end StrengthCell

/-! ## §2 Two sides in the balance -/

/-- A strength that reaches no further than one. -/
def clipped (strength : Rat) : Rat := max 0 (min 1 strength)

theorem clipped_nonneg (strength : Rat) : 0 ≤ clipped strength := le_max_left _ _

theorem clipped_le_one (strength : Rat) : clipped strength ≤ 1 :=
  max_le zero_le_one (min_le_left _ _)

theorem clipped_mono {strength stronger : Rat} (h : strength ≤ stronger) :
    clipped strength ≤ clipped stronger :=
  max_le_max le_rfl (min_le_min le_rfl h)

/-- What two strengths with their weights come to, divided by the heavier weight. -/
def balance (n : Rat) (wn : Nat) (p : Rat) (wp : Nat) : Rat :=
  (p * wp - n * wn) / (max wn wp : Nat)

theorem balance_swap (n : Rat) (wn : Nat) (p : Rat) (wp : Nat) :
    balance p wp n wn = -balance n wn p wp := by
  unfold balance
  rw [max_comm wp wn, ← neg_div, neg_sub]

theorem balance_le_one {n p : Rat} (hn : 0 ≤ n) (hp : p ≤ 1) (wn wp : Nat) : balance n wn p wp ≤ 1 := by
  have hpull : p * wp ≤ 1 * (max wn wp : Nat) :=
    mul_le_mul hp (Nat.cast_le.mpr (le_max_right wn wp)) (by positivity) zero_le_one
  have hback : 0 ≤ n * wn := by positivity
  apply div_le_one_of_le₀
  · linarith
  · positivity

theorem neg_one_le_balance {n p : Rat} (hn : n ≤ 1) (hp : 0 ≤ p) (wn wp : Nat) :
    -1 ≤ balance n wn p wp := by
  have hswapped := balance_le_one hp hn wp wn
  rw [balance_swap] at hswapped
  linarith

/-- With nothing against it a strength counts in full. -/
theorem balance_alone {p : Rat} {wp : Nat} (h : wp = 0 → p = 0) (n : Rat) : balance n 0 p wp = p := by
  unfold balance
  rw [Nat.cast_zero, mul_zero, sub_zero, Nat.max_eq_right (Nat.zero_le wp)]
  by_cases hwp : wp = 0
  · simp [hwp, h hwp]
  · exact mul_div_cancel_right₀ p (Nat.cast_ne_zero.mpr hwp)

/-- One push more never takes the value away from its side. -/
theorem balance_le_one_more {n p p' : Rat} (hn : 0 ≤ n) (hp : 0 ≤ p) (hmore : p ≤ p') (wn wp : Nat) :
    balance n wn p wp ≤ balance n wn p' (wp + 1) := by
  unfold balance
  rcases Nat.lt_or_ge wp wn with hlight | hheavy
  · -- The other side is still the heavier one, or they have become equal: the divisor stays.
    rw [max_eq_left hlight.le, max_eq_left (Nat.succ_le_of_lt hlight), Nat.cast_succ]
    have hpull : p * wp ≤ p' * (wp + 1) :=
      mul_le_mul hmore (by linarith) (by positivity) (by linarith)
    gcongr
  · -- This side is the heavier one, so its own strength counts in full and the other for less.
    have hfull : ∀ (q : Rat) (w : Nat), wn ≤ w → 0 < w →
        (q * w - n * wn) / (max wn w : Nat) = q - n * wn / w := by
      intro q w hle hpos
      have hw : (w : Rat) ≠ 0 := Nat.cast_ne_zero.mpr hpos.ne'
      rw [max_eq_right hle, sub_div, mul_div_cancel_right₀ q hw]
    rw [hfull p' (wp + 1) (by omega) (by omega)]
    rcases Nat.eq_zero_or_pos wp with rfl | hpos
    · obtain rfl : wn = 0 := by omega
      simp only [Nat.cast_zero, mul_zero, sub_zero, zero_div]
      linarith
    · rw [hfull p wp hheavy hpos]
      gcongr
      simp

/-! ## §3 The merge -/

section

variable (negative positive : StrengthCell Rat)

/-- What the two sides come to, before anything is cut off. -/
def weighed : Rat :=
  balance (clipped negative.value) negative.weight (clipped positive.value) positive.weight

theorem weighed_bounds : -1 ≤ weighed negative positive ∧ weighed negative positive ≤ 1 :=
  ⟨neg_one_le_balance (clipped_le_one _) (clipped_nonneg _) _ _,
    balance_le_one (clipped_nonneg _) (clipped_le_one _) _ _⟩

/-- The last clamp changes nothing. -/
theorem mergeSides_eq : mergeSides negative positive = weighed negative positive := by
  obtain ⟨hlow, hhigh⟩ := weighed_bounds negative positive
  have hclip : ∀ strength : Rat, Scalar.clamp strength 0 1 = clipped strength :=
    fun strength => Scalar.clamp_eq strength zero_le_one
  unfold mergeSides
  dsimp only
  split
  · rename_i hnone
    unfold weighed balance
    rw [hnone]
    exact (div_zero _).symm
  · have hclamp := Scalar.clamp_eq (weighed negative positive) (show (-1 : Rat) ≤ 1 by norm_num)
    rw [min_eq_right hhigh, max_eq_right hlow] at hclamp
    rw [hclip, hclip]
    exact hclamp

end

variable {negative positive : StrengthCell Rat}

theorem mergeSides_swap (negative positive : StrengthCell Rat) :
    mergeSides positive negative = -mergeSides negative positive := by
  rw [mergeSides_eq, mergeSides_eq]
  exact balance_swap _ _ _ _

/-- With nothing on the negative side the value is the strength of the positive one. -/
theorem mergeSides_alone (h : negative.live = []) (positive : StrengthCell Rat) :
    mergeSides negative positive = clipped positive.value := by
  rw [mergeSides_eq, weighed, StrengthCell.weight_eq_zero h]
  apply balance_alone
  intro hnone
  have hlive : positive.live = [] := by
    rw [← Slots.effective_eq_nil positive Push.replaces]
    exact List.length_eq_zero_iff.mp hnone
  rw [StrengthCell.value_eq_zero hlive]
  rfl

/-- One push more on the positive side never draws the value to the negative one. -/
theorem mergeSides_le_of_oneMore {positive' : StrengthCell Rat} (h : positive.OneMore positive')
    (negative : StrengthCell Rat) : mergeSides negative positive ≤ mergeSides negative positive' := by
  rw [mergeSides_eq, mergeSides_eq, weighed, weighed, h.weight]
  exact balance_le_one_more (clipped_nonneg _) (clipped_nonneg _) (clipped_mono h.value) _ _

/-- How two opposite sides merge into one signed value. -/
structure Merge (negative positive : StrengthCell Rat) : Prop where
  /-- The last clamp changes nothing. -/
  unclamped : mergeSides negative positive = weighed negative positive
  least : -1 ≤ mergeSides negative positive
  most : mergeSides negative positive ≤ 1
  swapped : mergeSides positive negative = -mergeSides negative positive
  centred : negative.live = [] → positive.live = [] → mergeSides negative positive = 0
  positive_alone : negative.live = [] → mergeSides negative positive = clipped positive.value
  negative_alone : positive.live = [] → mergeSides negative positive = -clipped negative.value
  positive_pressed : positive.Plain → ∀ pressed, positive.PressedTo pressed →
    mergeSides negative positive ≤ mergeSides negative pressed
  negative_pressed : negative.Plain → ∀ pressed, negative.PressedTo pressed →
    mergeSides pressed positive ≤ mergeSides negative positive

/-- **Opposite sides merge into one value.**  It lies between the ends without being cut off there, it
changes its sign with the sides, a side that is alone counts with its strength, and a further push that
replaces nothing never draws it to the other side. -/
theorem sides_merged (negative positive : StrengthCell Rat) : Merge negative positive where
  unclamped := mergeSides_eq negative positive
  least := (mergeSides_eq negative positive).symm ▸ (weighed_bounds negative positive).1
  most := (mergeSides_eq negative positive).symm ▸ (weighed_bounds negative positive).2
  swapped := mergeSides_swap negative positive
  centred hnegative hpositive := by
    rw [mergeSides_alone hnegative, StrengthCell.value_eq_zero hpositive]
    rfl
  positive_alone hnegative := mergeSides_alone hnegative positive
  negative_alone hpositive := by rw [mergeSides_swap, mergeSides_alone hpositive]
  positive_pressed hplain _ hpressed := mergeSides_le_of_oneMore (hpressed.oneMore hplain) negative
  negative_pressed hplain pressed hpressed := by
    have hmirror := mergeSides_le_of_oneMore (hpressed.oneMore hplain) positive
    rw [mergeSides_swap negative, mergeSides_swap pressed] at hmirror
    exact neg_le_neg_iff.mp hmirror

/-- One push against three leaves two thirds of the way. -/
example :
    let one : StrengthCell Rat := StrengthCell.set {} 0 true 1 false
    let three := ((StrengthCell.set {} 1 true 1 false).set 2 true 1 false).set 3 true 1 false
    mergeSides one three = 2 / 3 := by
  decide +kernel

end VirtualPad
