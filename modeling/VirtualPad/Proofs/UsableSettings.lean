import Mathlib.Order.Compare
import VirtualPad.Settings

/-!
# Settings that can be used

Settings may hold any numbers: no users, intervals without length, speeds that are infinite or no number
at all.  Each field is checked by itself.  `Mends` says what a check does to whatever value it meets: one
that can be used passes as it is, and any other is replaced by one that passes, with a single error that
names the field.  All that is said of the settings as a whole follows from that, field by field.

The default rate is checked twice, against zero and against a limit, and replaced in between.  The two
checks together are one that mends it, because the standard rate passes both of them.

The main result is `Settings.sanitize_mends`.
-/

namespace VirtualPad

/-! ## §1 Numbers that are positive -/

theorem float_lt_iff (x y : Float) : x < y ↔ x.toModel.unpack.lt y.toModel.unpack = true :=
  decide_eq_true_iff (p := x.toModel < y.toModel)

theorem float_le_iff (x y : Float) : x ≤ y ↔ x.toModel.unpack.le y.toModel.unpack = true :=
  decide_eq_true_iff (p := x.toModel ≤ y.toModel)

/-- A finite number above zero has a mantissa and an exponent. -/
theorem parts_of_positive {x : Float} (hfinite : x.isFinite = true) (hpos : 0 < x) :
    ∃ mantissa exponent h, x.toModel.unpack = .finite .positive mantissa exponent h := by
  have hnumber : x.toModel.unpack.isFinite = true := hfinite
  have hzero : (0 : Float).toModel.unpack = .zero .positive := rfl
  rw [float_lt_iff, hzero] at hpos
  generalize x.toModel.unpack = parts at hpos hnumber ⊢
  cases parts with
  | notANumber | infinity sign => cases hnumber
  | zero sign => cases hpos
  | finite sign mantissa exponent h =>
    cases sign with
    | negative => cases hpos
    | positive => exact ⟨mantissa, exponent, h, rfl⟩

/-- For a positive number, not to lie above the limit is to lie at it or below it.  Of a NaN only the
first would be true. -/
theorem le_maxRate_iff {x : Float} (hfinite : x.isFinite = true) (hpos : 0 < x) :
    x ≤ maxRate ↔ ¬ maxRate < x := by
  obtain ⟨mantissa, exponent, h, hparts⟩ := parts_of_positive hfinite hpos
  have hlimit : maxRate.toModel.unpack = .finite .positive 7916483719987200 (-41) (by decide) := rfl
  rw [float_le_iff, float_lt_iff, hparts, hlimit]
  -- The exponents are compared first, in either direction.
  show ((compare exponent (-41)).then (compare mantissa 7916483719987200)).isLE = true ↔
    ¬ (some ((compare (-41) exponent).then (compare 7916483719987200 mantissa)) ==
      some Ordering.lt) = true
  simp only [Ordering.isLE_iff_ne_gt, Ordering.then_eq_gt, beq_iff_eq, Option.some.injEq,
    Ordering.then_eq_lt, Int.compare_eq_gt, Int.compare_eq_lt, Int.compare_eq_eq, Nat.compare_eq_gt,
    Nat.compare_eq_lt]
  omega

/-! ## §2 What a check does -/

/-- The name of the field that an error is about. -/
def SettingsError.about : SettingsError → String
  | .userCount _ => "users"
  | .zeroInterval name => name
  | .notPositive name _ => name
  | .tooLarge name _ _ => name

/-- The text of an error begins with the name of the field. -/
theorem SettingsError.message_begins (error : SettingsError) :
    ∃ rest, error.message = error.about ++ " must be " ++ rest := by
  -- The words are variables here, since those that are written out would be compared letter by letter.
  have hjoin : ∀ name must middle rest words : String, must ++ middle = words →
      name ++ words ++ rest = name ++ must ++ (middle ++ rest) := by
    intro name must middle rest words hwords
    rw [← hwords]
    simp only [String.append_assoc]
  have hlast : ∀ start a b c : String, start ++ a ++ b ++ c = start ++ (a ++ b ++ c) := by
    intro start a b c
    simp only [String.append_assoc]
  cases error with
  | userCount count =>
    have hwords : "users must be between 1 and " = "users" ++ " must be " ++ "between 1 and " := by
      simp only [String.reduceAppend]
    refine ⟨"between 1 and " ++ (Nat.repr userLimit ++ ", got " ++ Nat.repr count), ?_⟩
    refine (hlast "users must be between 1 and " _ _ _).trans ?_
    exact (congrArg (· ++ _) hwords).trans String.append_assoc
  | zeroInterval name =>
    have hwords : " must be greater than zero" = " must be " ++ "greater than zero" := by
      simp only [String.reduceAppend]
    exact ⟨"greater than zero", (congrArg (name ++ ·) hwords).trans String.append_assoc.symm⟩
  | notPositive name value =>
    have hwords : " must be " ++ "a positive number, got " = " must be a positive number, got " := by
      simp only [String.reduceAppend]
    exact ⟨_, hjoin name _ _ _ _ hwords⟩
  | tooLarge name value limit =>
    have hwords : " must be " ++ "at most " = " must be at most " := by
      simp only [String.reduceAppend]
    exact ⟨_, (hlast _ _ _ _).trans (hjoin name _ _ _ _ hwords)⟩

namespace Settings

section

variable {β : Type}

/-- A value that can be used passes the check.  Any other is replaced by one that can, with one error
that names the field. -/
structure Mends (check : β → β × List SettingsError) (name : String) (Usable : β → Prop) : Prop where
  passes : ∀ value, Usable value → check value = (value, [])
  mends : ∀ value, ¬ Usable value →
    Usable (check value).1 ∧ (check value).2.map SettingsError.about = [name]

namespace Mends

variable {check : β → β × List SettingsError} {name : String} {Usable : β → Prop}

theorem usable (h : Mends check name Usable) (value : β) : Usable (check value).1 := by
  by_cases hvalue : Usable value
  · rw [h.passes value hvalue]
    exact hvalue
  · exact (h.mends value hvalue).1

/-- What a check answers passes the check. -/
theorem again (h : Mends check name Usable) (value : β) :
    check (check value).1 = ((check value).1, []) :=
  h.passes _ (h.usable value)

/-- The value is replaced just when it cannot be used: what replaces it can be. -/
theorem changes_iff (h : Mends check name Usable) (value : β) :
    (check value).1 ≠ value ↔ ¬ Usable value := by
  constructor
  · intro hchanged hvalue
    exact hchanged (congrArg Prod.fst (h.passes value hvalue))
  · intro hvalue hsame
    exact hvalue (hsame ▸ h.usable value)

theorem about_eq (h : Mends check name Usable) [DecidablePred Usable] (value : β) :
    (check value).2.map SettingsError.about = if Usable value then [] else [name] := by
  by_cases hvalue : Usable value
  · rw [if_pos hvalue, h.passes value hvalue]
    rfl
  · rw [if_neg hvalue]
    exact (h.mends value hvalue).2

end Mends

end

theorem mends_users : Mends checkUsers "users" fun count => 1 ≤ count ∧ count ≤ 8 where
  passes count h := by
    have hin : ¬ (count = 0 ∨ 8 < count) := by omega
    exact if_neg hin
  mends count h := by
    have hout : count = 0 ∨ 8 < count := by omega
    have hchecked : checkUsers count = (max 1 (min 8 count), [.userCount count]) := if_pos hout
    rw [hchecked]
    exact ⟨by dsimp only; omega, rfl⟩

theorem mends_interval (name : String) {fallback : Nanoseconds} (hfallback : 0 < fallback) :
    Mends (fun interval => checkInterval name interval fallback) name fun interval => 0 < interval where
  passes interval h := if_neg (Nat.pos_iff_ne_zero.mp h)
  mends interval h := by
    have hchecked : checkInterval name interval fallback = (fallback, [.zeroInterval name]) :=
      if_pos (Nat.eq_zero_of_not_pos h)
    rw [hchecked]
    exact ⟨hfallback, rfl⟩

/-- A finite number above zero. -/
def IsPositive (x : Float) : Prop := x.isFinite = true ∧ 0 < x

instance : DecidablePred IsPositive := fun _ => inferInstanceAs (Decidable (_ ∧ _))

theorem checkPositive_eq (name : String) (x fallback : Float) :
    checkPositive name x fallback = if IsPositive x then (x, []) else (fallback, [.notPositive name x]) := by
  unfold checkPositive IsPositive
  congr 1
  simp

theorem mends_positive (name : String) {fallback : Float} (hfallback : IsPositive fallback) :
    Mends (fun x => checkPositive name x fallback) name IsPositive where
  passes x h := by rw [checkPositive_eq, if_pos h]
  mends x h := by
    rw [checkPositive_eq, if_neg h]
    exact ⟨hfallback, rfl⟩

/-- A number against zero and against the limit, one after the other. -/
def checkRate (name : String) (x fallback : Float) : Float × List SettingsError :=
  let (rate, errors) := checkPositive name x fallback
  let (rate, limitErrors) := checkLimit name rate maxRate fallback
  (rate, errors ++ limitErrors)

/-- Two checks of one number are one check.  A number that the first one replaces passes the second. -/
theorem mends_rate (name : String) {fallback : Float} (hfallback : IsPositive fallback)
    (hlimit : fallback ≤ maxRate) :
    Mends (fun x => checkRate name x fallback) name fun x => IsPositive x ∧ x ≤ maxRate where
  passes x h := by
    have hlow := (le_maxRate_iff h.1.1 h.1.2).mp h.2
    simp only [checkRate, (mends_positive name hfallback).passes x h.1, checkLimit, if_neg hlow,
      List.append_nil]
  mends x h := by
    by_cases hx : IsPositive x
    · have hhigh : maxRate < x := by
        by_contra hlow
        exact h ⟨hx, (le_maxRate_iff hx.1 hx.2).mpr hlow⟩
      simp only [checkRate, (mends_positive name hfallback).passes x hx, checkLimit, if_pos hhigh]
      exact ⟨⟨hfallback, hlimit⟩, rfl⟩
    · have hlow := (le_maxRate_iff hfallback.1 hfallback.2).mp hlimit
      simp only [checkRate, checkPositive_eq, if_neg hx, checkLimit, if_neg hlow]
      exact ⟨⟨hfallback, hlimit⟩, rfl⟩

end Settings

/-! ## §3 The fields -/

/-- A field of the settings, in their order. -/
inductive SettingsField where
  | users
  | keyRepeatDelay
  | keyRepeatInterval
  | motionInterval
  | rotateInterval
  | mouseSpeed
  | wheelSpeed
  | defaultRate

namespace SettingsField

open Settings (IsPositive Mends)

def all : List SettingsField :=
  [users, keyRepeatDelay, keyRepeatInterval, motionInterval, rotateInterval, mouseSpeed, wheelSpeed,
    defaultRate]

/-- The name that errors call the field by. -/
def name : SettingsField → String
  | users => "users"
  | keyRepeatDelay => "key_repeat_delay_ms"
  | keyRepeatInterval => "key_repeat_interval_ms"
  | motionInterval => "motion_interval_ms"
  | rotateInterval => "rotate_interval_ms"
  | mouseSpeed => "mouse_speed"
  | wheelSpeed => "wheel_speed"
  | defaultRate => "default_rate"

/-- What the field holds. -/
def Value : SettingsField → Type
  | users => Nat
  | keyRepeatDelay | keyRepeatInterval | motionInterval | rotateInterval => Nanoseconds
  | mouseSpeed | wheelSpeed | defaultRate => Float

def value (s : Settings) : (field : SettingsField) → field.Value
  | users => s.users
  | keyRepeatDelay => s.keyRepeatDelay
  | keyRepeatInterval => s.keyRepeatInterval
  | motionInterval => s.motionInterval
  | rotateInterval => s.rotateInterval
  | mouseSpeed => s.mouseSpeed
  | wheelSpeed => s.wheelSpeed
  | defaultRate => s.defaultRate

/-- The values that the engine can work with.  It can wait for a key to repeat as long as one likes. -/
def Usable : (field : SettingsField) → field.Value → Prop
  | users => fun count : Nat => 1 ≤ count ∧ count ≤ 8
  | keyRepeatDelay => fun _ => True
  | keyRepeatInterval | motionInterval | rotateInterval => fun interval : Nat => 0 < interval
  | mouseSpeed | wheelSpeed => IsPositive
  | defaultRate => fun rate : Float => IsPositive rate ∧ rate ≤ maxRate

instance : (field : SettingsField) → DecidablePred field.Usable
  | users => fun count : Nat => inferInstanceAs (Decidable (1 ≤ count ∧ count ≤ 8))
  | keyRepeatDelay => fun _ => inferInstanceAs (Decidable True)
  | keyRepeatInterval | motionInterval | rotateInterval =>
    fun interval : Nat => inferInstanceAs (Decidable (0 < interval))
  | mouseSpeed | wheelSpeed => fun speed : Float => inferInstanceAs (Decidable (IsPositive speed))
  | defaultRate => fun rate : Float => inferInstanceAs (Decidable (IsPositive rate ∧ rate ≤ maxRate))

/-- The check of the field. -/
def check : (field : SettingsField) → field.Value → field.Value × List SettingsError
  | users => Settings.checkUsers
  | keyRepeatDelay => fun delay => (delay, [])
  | keyRepeatInterval => fun interval =>
    Settings.checkInterval "key_repeat_interval_ms" interval Settings.standard.keyRepeatInterval
  | motionInterval => fun interval =>
    Settings.checkInterval "motion_interval_ms" interval Settings.standard.motionInterval
  | rotateInterval => fun interval =>
    Settings.checkInterval "rotate_interval_ms" interval Settings.standard.rotateInterval
  | mouseSpeed => fun speed => Settings.checkPositive "mouse_speed" speed Settings.standard.mouseSpeed
  | wheelSpeed => fun speed => Settings.checkPositive "wheel_speed" speed Settings.standard.wheelSpeed
  | defaultRate => fun rate => Settings.checkRate "default_rate" rate Settings.standard.defaultRate

theorem mends_check (field : SettingsField) : Mends field.check field.name field.Usable := by
  cases field with
  | users => exact Settings.mends_users
  | keyRepeatDelay => exact ⟨fun _ _ => rfl, fun _ h => absurd trivial h⟩
  | keyRepeatInterval | motionInterval | rotateInterval => exact Settings.mends_interval _ (by decide)
  | mouseSpeed | wheelSpeed => exact Settings.mends_positive _ (by decide +kernel)
  | defaultRate =>
    have hpositive : IsPositive Settings.standard.defaultRate := by decide +kernel
    exact Settings.mends_rate _ hpositive (by decide +kernel)

theorem mem_all (field : SettingsField) : field ∈ all := by
  cases field <;> simp [all]

theorem name_injective {field other : SettingsField} (h : field.name = other.name) : field = other := by
  cases field <;> cases other <;> first | rfl | (simp [name] at h)

/-- Settings are what their fields hold. -/
theorem ext_value {s s' : Settings} (h : ∀ field, value s field = value s' field) : s = s' := by
  obtain ⟨_, _, _, _, _, _, _, _⟩ := s
  obtain ⟨_, _, _, _, _, _, _, _⟩ := s'
  congr 1
  · exact h users
  · exact h keyRepeatDelay
  · exact h keyRepeatInterval
  · exact h motionInterval
  · exact h rotateInterval
  · exact h mouseSpeed
  · exact h wheelSpeed
  · exact h defaultRate

theorem value_sanitize (s : Settings) (field : SettingsField) :
    value s.sanitize.1 field = (field.check (value s field)).1 := by
  cases field <;> rfl

theorem errors_sanitize (s : Settings) :
    s.sanitize.2 = all.flatMap fun field => (field.check (value s field)).2 := by
  simp only [all, List.flatMap_cons, List.flatMap_nil, List.append_nil]
  simp only [Settings.sanitize, check, Settings.checkRate, value, List.nil_append, List.append_assoc]

end SettingsField

/-! ## §4 The settings as a whole -/

namespace Settings

open SettingsField (all value)

/-- What becomes of settings whose fields are checked one by one. -/
structure Mended (s after : Settings) (errors : List SettingsError) : Prop where
  /-- Nothing is left to be mended. -/
  again : after.sanitize = (after, [])
  changed_iff : ∀ field, value after field ≠ value s field ↔ ∃ error ∈ errors, error.about = field.name
  /-- There is one error for each field that cannot be used, in the order of the fields. -/
  inOrder : errors.map SettingsError.about =
    (all.filter fun field : SettingsField => ¬ field.Usable (value s field)).map SettingsField.name
  /-- What an error is about is the first word of its text. -/
  named : ∀ error ∈ errors, ∃ rest, error.message = error.about ++ " must be " ++ rest
  kept : ∀ field : SettingsField, field.Usable (value s field) → value after field = value s field
  usable : ∀ field : SettingsField, field.Usable (value after field)
  users_eq : after.users = max 1 (min 8 s.users)

/-- The errors are about the fields that cannot be used, in order. -/
theorem about_sanitize (s : Settings) : s.sanitize.2.map SettingsError.about =
    (all.filter fun field : SettingsField => ¬ field.Usable (value s field)).map SettingsField.name := by
  rw [SettingsField.errors_sanitize, List.map_flatMap]
  simp only [(SettingsField.mends_check _).about_eq]
  -- The fields are gone through one by one, whatever list of them it is.
  induction all with
  | nil => rfl
  | cons field rest ih =>
    rw [List.flatMap_cons, ih, List.filter_cons]
    by_cases husable : field.Usable (value s field) <;> simp [husable]

theorem users_sanitize (s : Settings) : s.sanitize.1.users = max 1 (min 8 s.users) := by
  show (checkUsers s.users).1 = _
  by_cases hout : s.users = 0 ∨ 8 < s.users
  · exact congrArg Prod.fst (if_pos hout)
  · have hkept : checkUsers s.users = (s.users, []) := if_neg hout
    rw [hkept]
    dsimp only
    omega

/-- **Settings are mended once and for all.**  Whatever they were, every field holds a value that can be
used afterwards, the fields that did so before are as they were, and the others are reported. -/
theorem sanitize_mends (s : Settings) : s.Mended s.sanitize.1 s.sanitize.2 := by
  have hchanged : ∀ field : SettingsField,
      value s.sanitize.1 field ≠ value s field ↔ ¬ field.Usable (value s field) := by
    intro field
    rw [SettingsField.value_sanitize]
    exact field.mends_check.changes_iff _
  have husable : ∀ field : SettingsField, field.Usable (value s.sanitize.1 field) := by
    intro field
    rw [SettingsField.value_sanitize]
    exact field.mends_check.usable _
  -- What a check answers passes it, so a second time nothing is left to do.
  have hpass : ∀ field : SettingsField,
      field.check (value s.sanitize.1 field) = (value s.sanitize.1 field, []) := by
    intro field
    rw [SettingsField.value_sanitize]
    exact field.mends_check.again _
  have hagain : s.sanitize.1.sanitize = (s.sanitize.1, []) := by
    apply Prod.ext
    · apply SettingsField.ext_value
      intro field
      rw [SettingsField.value_sanitize, hpass]
    · rw [SettingsField.errors_sanitize]
      simp only [hpass, List.flatMap_eq_nil_iff]
      exact fun _ _ => trivial
  refine ⟨hagain, fun field => (hchanged field).trans ?_, s.about_sanitize,
    fun error _ => error.message_begins, fun field hfield => ?_, husable, s.users_sanitize⟩
  · -- The names tell the fields apart.
    have hmem := congrArg (field.name ∈ ·) s.about_sanitize
    simp only [List.mem_map, List.mem_filter, decide_eq_true_eq, eq_iff_iff] at hmem
    rw [hmem]
    constructor
    · intro hfield
      exact ⟨field, ⟨field.mem_all, hfield⟩, rfl⟩
    · rintro ⟨other, ⟨-, hother⟩, hname⟩
      exact SettingsField.name_injective hname ▸ hother
  · by_contra hother
    exact (hchanged field).mp hother hfield

/-- Three fields that cannot be used are reported in their order, whatever is wrong with them. -/
example : (sanitize { motionInterval := 0, defaultRate := -1, mouseSpeed := 0 / 0 }).2.map
    SettingsError.about = ["motion_interval_ms", "mouse_speed", "default_rate"] := by decide +kernel

end Settings

end VirtualPad
