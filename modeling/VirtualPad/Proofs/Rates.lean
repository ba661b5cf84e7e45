import Mathlib.Order.Compare
import VirtualPad.Settings

/-!
# How short a rate can be

A mapping names the time of its blinks and holds as a floating-point number of seconds.  What the
engine makes of it is at least a millisecond, whatever the number is.  So blinks and holds are spread
over time, and only finitely many of them fit into any stretch of it.

The bound is a statement about the parts of a floating-point number: one that is not below a
thousandth has an exponent and a mantissa large enough, or it lies beyond the upper limit.
-/

namespace VirtualPad

open Float.Model (UnpackedFloat Format)
open Float.Model.UnpackedFloat (Sign unpackMantissa unpackExponent)

/-! ## §1 The parts of a number -/

theorem toNat_unpackMantissa (bits : BitVec 64) :
    (@unpackMantissa .binary64 bits).toNat = bits.toNat % twoTo 52 := by
  simp [unpackMantissa, twoTo, Nat.pow_eq]

theorem toNat_unpackExponent (bits : BitVec 64) :
    (@unpackExponent .binary64 bits).toNat = bits.toNat / twoTo 52 % twoTo 11 := by
  simp [unpackExponent, twoTo, Nat.pow_eq, Nat.shiftRight_eq_div_pow]

/-- The two ways to take a finite number apart agree, and the mantissa has its leading digit unless
the exponent is the least one. -/
theorem Binary64.ofFloat_finite {x : Float} {sign : Sign} {mantissa : Nat} {exponent : Int}
    {hpos : 0 < mantissa} (h : x.toModel.unpack = .finite sign mantissa exponent hpos) :
    (ofFloat x).mantissa = mantissa ∧ (ofFloat x).exponent = exponent ∧
      (twoTo 52 ≤ mantissa ∨ exponent = -1074) := by
  have hfraction := toNat_unpackMantissa x.toModel.toBits.toBitVec
  have hbiased := toNat_unpackExponent x.toModel.toBits.toBitVec
  unfold Float.Model.unpack UnpackedFloat.unpack at h
  unfold ofFloat
  dsimp only at h ⊢
  rw [show x.toBits.toNat = x.toModel.toBits.toBitVec.toNat from rfl, ← hfraction, ← hbiased]
  -- Of the kinds of bit patterns two are finite numbers other than zero.
  by_cases hfull : @unpackExponent .binary64 x.toModel.toBits.toBitVec = -1#11
  · rw [if_pos hfull] at h
    by_cases hempty : @unpackMantissa .binary64 x.toModel.toBits.toBitVec = 0#52
    · rw [if_pos hempty] at h
      cases h
    · rw [if_neg hempty] at h
      cases h
  rw [if_neg hfull] at h
  by_cases hzero : @unpackExponent .binary64 x.toModel.toBits.toBitVec = 0#11
  · rw [if_pos hzero] at h
    by_cases hempty : @unpackMantissa .binary64 x.toModel.toBits.toBitVec = 0#52
    · rw [dif_pos hempty] at h
      cases h
    · rw [dif_neg hempty] at h
      cases h
      have hnone : (@unpackExponent .binary64 x.toModel.toBits.toBitVec).toNat = 0 := by
        rw [hzero]
        rfl
      rw [if_pos hnone, if_pos hnone, hnone]
      exact ⟨rfl, rfl, .inr rfl⟩
  · rw [if_neg hzero] at h
    cases h
    have hsome : (@unpackExponent .binary64 x.toModel.toBits.toBitVec).toNat ≠ 0 :=
      fun hnone => hzero (BitVec.eq_of_toNat_eq hnone)
    have hlead : (1#1 ++ @unpackMantissa .binary64 x.toModel.toBits.toBitVec).toNat =
        (@unpackMantissa .binary64 x.toModel.toBits.toBitVec).toNat + twoTo 52 := by
      rw [BitVec.toNat_append, ← Nat.shiftLeft_add_eq_or_of_lt (BitVec.isLt _), Nat.add_comm]
      rfl
    rw [if_neg hsome, if_neg hsome, hlead]
    exact ⟨rfl, rfl, .inl (Nat.le_add_left _ _)⟩

/-! ## §2 A thousandth of a second -/

/-- The exponent and the mantissa are at least those of a thousandth. -/
def FromThousandth (mantissa : Nat) (exponent : Int) : Prop :=
  -62 < exponent ∨ exponent = -62 ∧ 4611686018427388 ≤ mantissa

/-- A number that is not below a thousandth is no number, is infinite, or has parts that are large
enough. -/
theorem parts_of_not_lt {x : Float} (h : ¬ x < 0.001) : x.isNaN = true ∨
    x.toModel.unpack = .infinity .positive ∨ ∃ mantissa exponent hpos,
      x.toModel.unpack = .finite .positive mantissa exponent hpos ∧
        FromThousandth mantissa exponent := by
  have hlow : (0.001 : Float).toModel.unpack =
      .finite .positive 4611686018427388 (-62) (by decide) := rfl
  have hlt : ¬ x.toModel.unpack.lt (0.001 : Float).toModel.unpack = true :=
    fun hlt => h (decide_eq_true hlt)
  have hnan : x.isNaN = x.toModel.unpack.isNaN := rfl
  rw [hlow] at hlt
  rw [hnan]
  generalize x.toModel.unpack = parts at hlt ⊢
  cases parts with
  | notANumber => exact .inl rfl
  | zero sign => exact absurd rfl hlt
  | infinity sign =>
    cases sign with
    | positive => exact .inr (.inl rfl)
    | negative => exact absurd rfl hlt
  | finite sign mantissa exponent hpos =>
    cases sign with
    | negative => exact absurd rfl hlt
    | positive =>
      refine .inr (.inr ⟨mantissa, exponent, hpos, rfl, ?_⟩)
      -- The exponents are compared first.
      change ¬ (some ((compare exponent (-62)).then (compare mantissa 4611686018427388)) ==
        some Ordering.lt) = true at hlt
      simp only [beq_iff_eq, Option.some.injEq, Ordering.then_eq_lt, Int.compare_eq_lt,
        Int.compare_eq_eq, Nat.compare_eq_lt] at hlt
      unfold FromThousandth
      omega

theorem div_le_roundDiv (num den : Nat) (tie : Tie) : num / den ≤ roundDiv num den tie := by
  unfold roundDiv
  dsimp only
  split
  · exact Nat.le_refl _
  · split
    · exact Nat.le_succ _
    · cases tie with
      | up => exact Nat.le_succ _
      | toEven => exact Nat.le_add_right _ _

/-- A number with parts that are large enough is at least a million billionths. -/
theorem perMilli_le_billionths {x : Float} {mantissa : Nat} {exponent : Int} {hpos : 0 < mantissa}
    (h : x.toModel.unpack = .finite .positive mantissa exponent hpos)
    (hlarge : FromThousandth mantissa exponent) : Nanoseconds.perMilli ≤ billionths x := by
  obtain ⟨hmantissa, hexponent, hnormal⟩ := Binary64.ofFloat_finite h
  have hlead : exponent = -62 ∨ 4503599627370496 ≤ mantissa := by
    rcases hlarge with hlarge | ⟨hequal, -⟩
    · rcases hnormal with hnormal | hleast
      · exact .inr hnormal
      · omega
    · exact .inl hequal
  have hquotient : (Binary64.ofFloat x).quotient =
      if 0 ≤ exponent then (mantissa * twoTo exponent.toNat, 1)
      else (mantissa, twoTo (-exponent).toNat) := by
    unfold Binary64.quotient
    rw [hmantissa, hexponent]
  unfold billionths
  show _ ≤ roundDiv ((Binary64.ofFloat x).quotient.1 * 1000000000) (Binary64.ofFloat x).quotient.2 _
  refine Nat.le_trans ?_ (div_le_roundDiv _ _ _)
  rw [hquotient]
  show 1000000 ≤ _
  -- With a negative exponent the mantissa has to make up for it.
  split
  · have hscale : 1 ≤ twoTo exponent.toNat := twoTo_pos _
    have hproduct := Nat.mul_le_mul_left mantissa hscale
    dsimp only
    omega
  · rename_i hwhole
    dsimp only
    rw [Nat.le_div_iff_mul_le (twoTo_pos _)]
    obtain ⟨places, hplaces⟩ : ∃ places, (-exponent).toNat = places := ⟨_, rfl⟩
    rw [hplaces]
    rcases hlarge with hlarge | ⟨hequal, hmantissa⟩
    · have hfew : twoTo places ≤ twoTo 61 := Nat.pow_le_pow_right Nat.two_pos (by omega)
      have hbound : twoTo 61 = 2305843009213693952 := rfl
      omega
    · have hsame : twoTo places = 4611686018427387904 := by
        rw [show places = 62 by omega]
        rfl
      omega

/-- **A rate is at least a millisecond**, whatever number it is given as. -/
theorem Nanoseconds.perMilli_le_ofRate (rate : Float) : perMilli ≤ ofRate rate := by
  obtain ⟨raised, hraised, hlow⟩ : ∃ raised : Float,
      raised = (if rate < 0.001 then 0.001 else rate) ∧ ¬ raised < 0.001 := by
    refine ⟨_, rfl, ?_⟩
    split
    · decide +kernel
    · assumption
  have hbounded : Scalar.clamp rate 0.001 maxRate = if maxRate < raised then maxRate else raised :=
    hraised ▸ rfl
  unfold ofRate
  dsimp only
  rw [hbounded]
  by_cases hhigh : maxRate < raised
  · rw [if_pos hhigh]
    decide +kernel
  · rw [if_neg hhigh]
    split
    · exact Nat.le_refl _
    · rename_i hnumber
      rcases parts_of_not_lt hlow with hnan | hinfinite | ⟨mantissa, exponent, hpos, hparts, hlarge⟩
      · exact absurd hnan hnumber
      · -- Infinity lies beyond the upper limit.
        refine absurd (decide_eq_true ?_) hhigh
        show maxRate.toModel.unpack.lt raised.toModel.unpack = true
        rw [hinfinite]
        rfl
      · exact perMilli_le_billionths hparts hlarge

end VirtualPad
