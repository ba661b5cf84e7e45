import Mathlib.Data.List.Nodup
import VirtualPad.Clock

/-!
# Which timers a clock has armed

A clock tells its timers apart by the order of arming and has at most one for each token.  With that,
each operation says which timers are armed after it: cancelling takes one token away, arming replaces
a token by a new timer, and a timer that goes off disappears or, if it repeats, is replaced by the
next one under the same token.
-/

namespace VirtualPad
namespace Clock

/-- The timers of the clock stand in the order of arming, one for each token at most. -/
structure Sound (c : Clock) : Prop where
  ordered : c.timers.Pairwise fun s t => s.order < t.order
  numbered : ∀ t ∈ c.timers, t.order ≤ c.armings
  apart : c.timers.Pairwise fun s t => s.token ≠ t.token

/-- A timer under that token is armed; `once` says whether it goes off once or repeats. -/
def Arms (c : Clock) (token : TimerToken) (once : Bool) : Prop :=
  ∃ t ∈ c.timers, t.token = token ∧ t.period.isNone = once

theorem isArmed_iff (c : Clock) (token : TimerToken) :
    c.isArmed token = true ↔ ∃ once, c.Arms token once := by
  constructor
  · intro h
    obtain ⟨t, ht, htoken⟩ := List.any_eq_true.mp h
    exact ⟨t.period.isNone, t, ht, by simpa using htoken, rfl⟩
  · rintro ⟨once, t, ht, htoken, -⟩
    exact List.any_eq_true.mpr ⟨t, ht, by simpa using htoken⟩

theorem sound_of_nil {c : Clock} (h : c.timers = []) : c.Sound := by
  constructor <;> simp [h]

namespace Sound

variable {c : Clock}

theorem eq_of_order (hc : c.Sound) {s t : Timer} (hs : s ∈ c.timers) (ht : t ∈ c.timers)
    (h : s.order = t.order) : s = t := by
  have hapart : c.timers.Pairwise fun s t => s.order ≠ t.order :=
    hc.ordered.imp fun hlt => Nat.ne_of_lt hlt
  exact List.inj_on_of_nodup_map (List.pairwise_map.mpr hapart) hs ht h

theorem eq_of_token (hc : c.Sound) {s t : Timer} (hs : s ∈ c.timers) (ht : t ∈ c.timers)
    (h : s.token = t.token) : s = t := by
  exact List.inj_on_of_nodup_map (List.pairwise_map.mpr hc.apart) hs ht h

end Sound

/-! ## §1 Cancelling and arming -/

theorem mem_cancel {c : Clock} {token : TimerToken} {t : Timer} :
    t ∈ (c.cancel token).timers ↔ t ∈ c.timers ∧ t.token ≠ token := by
  simp [cancel, List.mem_filter]

theorem Sound.cancel {c : Clock} (hc : c.Sound) (token : TimerToken) : (c.cancel token).Sound where
  ordered := hc.ordered.filter _
  numbered t ht := hc.numbered t (mem_cancel.mp ht).1
  apart := hc.apart.filter _

/-- After cancelling a token the others are armed as before. -/
theorem arms_cancel {c : Clock} {token other : TimerToken} {once : Bool} :
    (c.cancel token).Arms other once ↔ other ≠ token ∧ c.Arms other once := by
  constructor
  · rintro ⟨t, ht, rfl, honce⟩
    obtain ⟨hmem, hne⟩ := mem_cancel.mp ht
    exact ⟨hne, t, hmem, rfl, honce⟩
  · rintro ⟨hne, t, ht, rfl, honce⟩
    exact ⟨t, mem_cancel.mpr ⟨ht, hne⟩, rfl, honce⟩

theorem mem_arm {c : Clock} {token : TimerToken} {due : Nanoseconds}
    {period : Option Nanoseconds} {t : Timer} :
    t ∈ (c.arm token due period).timers ↔
      (t ∈ c.timers ∧ t.token ≠ token) ∨ t = ⟨token, due, period, c.armings + 1⟩ := by
  simp [arm, cancel, List.mem_filter]

theorem Sound.arm {c : Clock} (hc : c.Sound) (token : TimerToken) (due : Nanoseconds)
    (period : Option Nanoseconds) : (c.arm token due period).Sound where
  ordered := by
    refine List.pairwise_append.mpr ⟨(hc.cancel token).ordered, List.pairwise_singleton _ _, ?_⟩
    intro s hs t ht
    obtain rfl := List.mem_singleton.mp ht
    exact Nat.lt_succ_of_le ((hc.cancel token).numbered s hs)
  numbered t ht := by
    rcases mem_arm.mp ht with ⟨hmem, -⟩ | rfl
    · exact Nat.le_succ_of_le (hc.numbered t hmem)
    · exact Nat.le_refl _
  apart := by
    refine List.pairwise_append.mpr ⟨(hc.cancel token).apart, List.pairwise_singleton _ _, ?_⟩
    intro s hs t ht
    obtain rfl := List.mem_singleton.mp ht
    exact (mem_cancel.mp hs).2

/-- After arming a token it is armed, and the others are as before. -/
theorem arms_arm {c : Clock} {token other : TimerToken} {due : Nanoseconds}
    {period : Option Nanoseconds} {once : Bool} :
    (c.arm token due period).Arms other once ↔
      (other = token ∧ period.isNone = once) ∨ (other ≠ token ∧ c.Arms other once) := by
  constructor
  · rintro ⟨t, ht, rfl, honce⟩
    rcases mem_arm.mp ht with ⟨hmem, hne⟩ | rfl
    · exact .inr ⟨hne, t, hmem, rfl, honce⟩
    · exact .inl ⟨rfl, honce⟩
  · rintro (⟨rfl, honce⟩ | ⟨hne, t, ht, rfl, honce⟩)
    · exact ⟨_, mem_arm.mpr (.inr rfl), rfl, honce⟩
    · exact ⟨t, mem_arm.mpr (.inl ⟨ht, hne⟩), rfl, honce⟩

/-! ## §2 Going off -/

theorem earliest?_mem {ts : List Timer} {t : Timer} (h : earliest? ts = some t) : t ∈ ts := by
  induction ts generalizing t with
  | nil => simp [earliest?] at h
  | cons s rest ih =>
    unfold earliest? at h
    split at h
    · obtain rfl := Option.some.inj h
      exact List.mem_cons_self
    · rename_i u hu
      split at h
      · obtain rfl := Option.some.inj h
        exact List.mem_cons_of_mem _ (ih hu)
      · obtain rfl := Option.some.inj h
        exact List.mem_cons_self

/-- The next due timer is armed, and the clock after it is the one it has gone off on. -/
theorem nextDue?_some {c clock : Clock} {limit due : Nanoseconds} {token : TimerToken}
    (h : c.nextDue? limit = some (token, due, clock)) :
    ∃ t ∈ c.timers, t.token = token ∧ t.due = due ∧ due ≤ limit ∧ clock = c.fire t := by
  obtain ⟨t, ht, hsame⟩ := Option.map_eq_some_iff.mp h
  simp only [Prod.mk.injEq] at hsame
  obtain ⟨rfl, rfl, rfl⟩ := hsame
  obtain ⟨hmem, hlimit⟩ := List.mem_filter.mp (earliest?_mem ht)
  exact ⟨t, hmem, rfl, rfl, by simpa using hlimit, rfl⟩

private theorem Sound.filter {c : Clock} (hc : c.Sound) (keep : Timer → Bool) (now : Nanoseconds) :
    Sound { c with now, timers := c.timers.filter keep } where
  ordered := hc.ordered.filter _
  numbered t ht := hc.numbered t (List.mem_filter.mp ht).1
  apart := hc.apart.filter _

theorem Sound.fire {c : Clock} (hc : c.Sound) (t : Timer) : (c.fire t).Sound := by
  unfold Clock.fire
  dsimp only
  split
  · exact hc.filter _ _
  · exact (hc.filter _ _).arm _ _ _

/-- A timer that goes off once is gone then, and the others are armed as before. -/
theorem arms_fire_once {c : Clock} (hc : c.Sound) {t : Timer} (ht : t ∈ c.timers)
    (hperiod : t.period.isNone = true) {other : TimerToken} {once : Bool} :
    (c.fire t).Arms other once ↔ other ≠ t.token ∧ c.Arms other once := by
  have hfire : (c.fire t).timers = c.timers.filter fun u => u.order != t.order := by
    unfold Clock.fire
    rw [Option.isNone_iff_eq_none.mp hperiod]
  unfold Arms
  rw [hfire]
  constructor
  · rintro ⟨u, hu, rfl, honce⟩
    obtain ⟨hmem, hne⟩ := List.mem_filter.mp hu
    refine ⟨?_, u, hmem, rfl, honce⟩
    intro htoken
    rw [hc.eq_of_token hmem ht htoken] at hne
    simp at hne
  · rintro ⟨hne, u, hu, rfl, honce⟩
    refine ⟨u, List.mem_filter.mpr ⟨hu, ?_⟩, rfl, honce⟩
    have horder : u.order ≠ t.order := by
      intro horder
      exact hne (congrArg Timer.token (hc.eq_of_order hu ht horder))
    simpa using horder

/-- A timer that repeats is armed again when it goes off. -/
theorem arms_fire_repeating {c : Clock} (hc : c.Sound) {t : Timer} (ht : t ∈ c.timers)
    (hperiod : t.period.isNone = false) {other : TimerToken} {once : Bool} :
    (c.fire t).Arms other once ↔ c.Arms other once := by
  obtain ⟨period, hsome⟩ : ∃ period, t.period = some period := by
    cases h : t.period with
    | none => simp [h] at hperiod
    | some period => exact ⟨period, rfl⟩
  have hfire : c.fire t = Clock.arm { c with
      now := max c.now t.due, timers := c.timers.filter fun u => u.order != t.order } t.token
      (t.due + period) (some period) := by
    unfold Clock.fire
    rw [hsome]
  -- It is armed again as it goes off, under the token that it had.
  rw [hfire, arms_arm]
  constructor
  · rintro (⟨rfl, honce⟩ | ⟨-, u, hu, rfl, honce⟩)
    · exact ⟨t, ht, rfl, by rw [hperiod, ← honce]; rfl⟩
    · exact ⟨u, (List.mem_filter.mp hu).1, rfl, honce⟩
  · rintro ⟨u, hu, rfl, honce⟩
    by_cases htoken : u.token = t.token
    · left
      refine ⟨htoken, ?_⟩
      rw [← honce, hc.eq_of_token hu ht htoken, hperiod]
      rfl
    · right
      refine ⟨htoken, u, List.mem_filter.mpr ⟨hu, ?_⟩, rfl, honce⟩
      have horder : u.order ≠ t.order := by
        intro horder
        exact htoken (congrArg Timer.token (hc.eq_of_order hu ht horder))
      simpa using horder

end Clock
end VirtualPad
