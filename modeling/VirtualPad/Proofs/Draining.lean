import VirtualPad.Proofs.Loads

/-!
# Draining a clock

Asking a clock for what is due until nothing is takes the timers off one by one.  `GoesOff` is that
process without a bound on its length: what goes off next is the first of the timers in the order of
their times and, at the same time, of their arming; a timer that repeats joins the others again, one
period later and behind all that have been armed before.

What can be said about a single timer is said about the process by induction: how often it goes off and
when (`GoesOff.once`, `GoesOff.repeating`), and what becomes of it.  The number that bounds a draining is
the number of times that the timers go off, so that a draining is the whole process.

The main result is `Clock.drain_takes_due`.
-/

namespace VirtualPad

/-- The timer is due earlier than the other one, or at the same time and has been armed earlier. -/
def Timer.Precedes (s t : Timer) : Prop := s.due < t.due ∨ s.due = t.due ∧ s.order < t.order

theorem Timer.Precedes.due_le {s t : Timer} (h : s.Precedes t) : s.due ≤ t.due :=
  h.elim Nat.le_of_lt fun h => Nat.le_of_eq h.1

/-- The timer that takes the place of one that repeats when this has gone off. -/
def Timer.again (t : Timer) (period : Nanoseconds) (order : Nat) : Timer :=
  ⟨t.token, t.due + period, some period, order⟩

namespace Clock

/-! ## §1 The clocks that can be reached -/

/-- A clock that has been asked for timers, has had some of them taken and been moved forward. -/
inductive Reached : Clock → Prop
  | start : Reached {}
  | once {c : Clock} (delay : Nanoseconds) (token : TimerToken) :
      Reached c → Reached (c.once delay token)
  | repeating {c : Clock} (period : Nanoseconds) (token : TimerToken) :
      Reached c → Reached (c.repeating period token)
  | cancel {c : Clock} (token : TimerToken) : Reached c → Reached (c.cancel token)
  | advanceTo {c : Clock} (time : Nanoseconds) : Reached c → Reached (c.advanceTo time)
  | nextDue {c clock : Clock} {limit due : Nanoseconds} {token : TimerToken} :
      Reached c → c.nextDue? limit = some (token, due, clock) → Reached clock

theorem Reached.steady {c : Clock} (hc : c.Reached) : c.Steady := by
  induction hc with
  | start => exact ⟨sound_of_nil rfl, fun _ h => by contradiction⟩
  | once delay token _ ih => exact ih.arm token _ fun p h => by contradiction
  | repeating period token _ ih =>
    refine ih.arm token _ fun p h => ?_
    rw [← Option.some.inj h]
    exact Nat.le_max_right _ _
  | cancel token _ ih => exact ih.cancel token
  | advanceTo time _ ih => exact ⟨⟨ih.sound.ordered, ih.sound.numbered, ih.sound.apart⟩, ih.spaced⟩
  | nextDue _ hnext ih =>
    obtain ⟨t, ht, -, -, -, rfl⟩ := nextDue?_some hnext
    exact ih.fire ht

/-! ## §2 What goes off next -/

variable {c last : Clock} {limit : Nanoseconds} {t u : Timer} {fired : List Timer}

/-- The first of some timers in the order of arming precedes the others. -/
theorem precedes_of_earliest? {ts : List Timer} (h : earliest? ts = some t)
    (hapart : ts.Pairwise fun s t => s.order < t.order) : ∀ u ∈ ts, u ≠ t → t.Precedes u := by
  induction ts generalizing t with
  | nil => exact fun u hu => by contradiction
  | cons s rest ih =>
    obtain ⟨hfirst, hrest⟩ := List.pairwise_cons.mp hapart
    unfold earliest? at h
    split at h
    · rename_i hnone
      obtain rfl := Option.some.inj h
      intro u hu hne
      rcases List.mem_cons.mp hu with rfl | hu
      · contradiction
      · exact by simp [earliest?_eq_none.mp hnone] at hu
    · rename_i first hsome
      have hothers := ih hsome hrest
      split at h
      · rename_i hearly
        obtain rfl := Option.some.inj h
        intro u hu hne
        rcases List.mem_cons.mp hu with rfl | hu
        · simpa [Timer.before, Timer.Precedes] using hearly
        · exact hothers u hu hne
      · rename_i hlate
        obtain rfl := Option.some.inj h
        intro u hu hne
        rcases List.mem_cons.mp hu with rfl | hu
        · contradiction
        -- What was armed earlier goes first, if both are due at the same time.
        · have hle : s.due ≤ u.due := (Timer.due_le_of_not_before hlate).trans (earliest?_le hsome u hu)
          rcases Nat.lt_or_eq_of_le hle with hlt | heq
          · exact .inl hlt
          · exact .inr ⟨heq, hfirst u hu⟩

theorem nextTimer?_some (hc : c.Sound) (h : c.nextTimer? limit = some t) :
    t ∈ c.timers ∧ t.due ≤ limit ∧ ∀ u ∈ c.timers, u ≠ t → t.Precedes u := by
  obtain ⟨hmem, hlimit⟩ := List.mem_filter.mp (earliest?_mem h)
  rw [decide_eq_true_iff] at hlimit
  refine ⟨hmem, hlimit, fun u hu hne => ?_⟩
  by_cases hdue : u.due ≤ limit
  · exact precedes_of_earliest? h (hc.ordered.filter _) u
      (List.mem_filter.mpr ⟨hu, decide_eq_true hdue⟩) hne
  · exact .inl (Nat.lt_of_le_of_lt hlimit (Nat.lt_of_not_le hdue))

theorem nextTimer?_none (h : c.nextTimer? limit = none) : ∀ t ∈ c.timers, limit < t.due :=
  nextDue?_none (by rw [nextDue?, h, Option.map_none])

/-- After a timer has gone off the others stand as they did, and it comes after them if it repeats. -/
theorem timers_fire (hc : c.Sound) (ht : t ∈ c.timers) :
    (c.fire t).timers = (c.timers.filter fun u => u.order != t.order) ++
      (t.period.map fun period => t.again period (c.armings + 1)).toList := by
  unfold fire
  dsimp only
  cases t.period with
  | none => simp
  | some period =>
    have hothers : ((c.timers.filter fun u => u.order != t.order).filter
        fun u => u.token != t.token) = c.timers.filter fun u => u.order != t.order := by
      refine List.filter_eq_self.mpr fun u hu => ?_
      obtain ⟨hmem, horder⟩ := List.mem_filter.mp hu
      rw [bne_iff_ne] at horder ⊢
      exact fun htoken => horder (congrArg Timer.order (hc.eq_of_token hmem ht htoken))
    simp only [arm, cancel, hothers, Option.map_some, Option.toList_some, Timer.again]

theorem mem_timers_fire (hc : c.Sound) (ht : t ∈ c.timers) :
    u ∈ (c.fire t).timers ↔
      (u ∈ c.timers ∧ u ≠ t) ∨ ∃ period, t.period = some period ∧ u = t.again period (c.armings + 1) := by
  have hother : ∀ u ∈ c.timers, (u.order != t.order) = true ↔ u ≠ t := fun u hu => by
    rw [bne_iff_ne]
    exact not_congr ⟨hc.eq_of_order hu ht, congrArg Timer.order⟩
  rw [timers_fire hc ht, List.mem_append, List.mem_filter, Option.mem_toList, Option.map_eq_some_iff]
  refine or_congr (and_congr_right (hother u)) (exists_congr fun period => and_congr_right' eq_comm)

theorem armings_fire (c : Clock) (t : Timer) :
    (c.fire t).armings = c.armings + if t.period.isSome then 1 else 0 := by
  unfold fire
  dsimp only
  cases t.period <;> rfl

/-! ## §3 The whole process -/

/-- The timers that go off one after the other until none is due, and the clock after that. -/
inductive GoesOff (limit : Nanoseconds) : Clock → List Timer → Clock → Prop
  | done {c : Clock} (h : c.nextTimer? limit = none) : GoesOff limit c [] c
  | next {c last : Clock} {t : Timer} {fired : List Timer} (h : c.nextTimer? limit = some t)
      (hrest : GoesOff limit (c.fire t) fired last) : GoesOff limit c (t :: fired) last

theorem GoesOff.over (h : GoesOff limit c fired last) : last.nextTimer? limit = none := by
  induction h with
  | done h => exact h
  | next _ _ ih => exact ih

theorem GoesOff.steady (h : GoesOff limit c fired last) (hc : c.Steady) : last.Steady := by
  induction h with
  | done _ => exact hc
  | next h _ ih => exact ih (hc.fire (nextTimer?_some hc.sound h).1)

/-- What goes off, or is armed in the end, has been armed under its token from the start. -/
theorem GoesOff.armed (h : GoesOff limit c fired last) (hc : c.Steady) :
    (∀ t ∈ fired, ∃ s ∈ c.timers, s.token = t.token) ∧
      ∀ t ∈ last.timers, ∃ s ∈ c.timers, s.token = t.token ∧ s.period = t.period ∧
        (t.period = none → s = t) := by
  induction h with
  | done _ => exact ⟨fun t ht => by contradiction, fun t ht => ⟨t, ht, rfl, rfl, fun _ => rfl⟩⟩
  | @next c last u fired h _ ih =>
    have hu := (nextTimer?_some hc.sound h).1
    -- Whatever is armed after the tick was armed before it, or has taken the place of what has ticked.
    have hback : ∀ t ∈ (c.fire u).timers, ∃ s ∈ c.timers, s.token = t.token ∧ s.period = t.period ∧
        (t.period = none → s = t) := by
      intro t ht
      rcases (mem_timers_fire hc.sound hu).mp ht with ⟨hold, -⟩ | ⟨period, hperiod, rfl⟩
      · exact ⟨t, hold, rfl, rfl, fun _ => rfl⟩
      · exact ⟨u, hu, rfl, hperiod, fun hnone => by contradiction⟩
    obtain ⟨hfired, hlast⟩ := ih (hc.fire hu)
    constructor
    · intro t ht
      rcases List.mem_cons.mp ht with rfl | ht
      · exact ⟨t, hu, rfl⟩
      · obtain ⟨s, hs, htoken⟩ := hfired t ht
        obtain ⟨r, hr, hsame, -⟩ := hback s hs
        exact ⟨r, hr, hsame.trans htoken⟩
    · intro t ht
      obtain ⟨s, hs, htoken, hperiod, honce⟩ := hlast t ht
      obtain ⟨r, hr, htoken', hperiod', honce'⟩ := hback s hs
      exact ⟨r, hr, htoken'.trans htoken, hperiod'.trans hperiod,
        fun hnone => (honce' (hperiod.trans hnone)).trans (honce hnone)⟩

/-- A timer that is due later stays as it is. -/
theorem GoesOff.later (h : GoesOff limit c fired last) (hc : c.Steady) (ht : t ∈ c.timers)
    (hdue : limit < t.due) : t ∈ last.timers := by
  induction h with
  | done _ => exact ht
  | @next c last u fired h _ ih =>
    obtain ⟨hu, hlimit, -⟩ := nextTimer?_some hc.sound h
    have hne : t ≠ u := by
      rintro rfl
      exact Nat.not_le_of_lt hdue hlimit
    exact ih (hc.fire hu) ((mem_timers_fire hc.sound hu).mpr (.inl ⟨ht, hne⟩))

/-- A timer that does not repeat goes off once if it is due, and is gone then. -/
theorem GoesOff.once (h : GoesOff limit c fired last) (hc : c.Steady) (ht : t ∈ c.timers)
    (hperiod : t.period = none) :
    (fired.filter fun u => u.token == t.token) = if t.due ≤ limit then [t] else [] := by
  induction h with
  | done h =>
    rw [if_neg (Nat.not_le_of_lt (nextTimer?_none h t ht))]
    rfl
  | @next c last u fired h hrest ih =>
    obtain ⟨hu, hlimit, -⟩ := nextTimer?_some hc.sound h
    by_cases hsame : u = t
    · subst hsame
      have hgone : ∀ v ∈ fired, (v.token == u.token) ≠ true := by
        intro v hv htoken
        obtain ⟨s, hs, hstoken⟩ := (hrest.armed (hc.fire hu)).1 v hv
        rcases (mem_timers_fire hc.sound hu).mp hs with ⟨hold, hne⟩ | ⟨period, hsome, -⟩
        · exact hne (hc.sound.eq_of_token hold hu (hstoken.trans (beq_iff_eq.mp htoken)))
        · rw [hperiod] at hsome
          contradiction
      rw [List.filter_cons, if_pos (beq_self_eq_true _), List.filter_eq_nil_iff.mpr hgone,
        if_pos hlimit]
    · have hother : ¬ (u.token == t.token) = true := fun htoken =>
        hsame (hc.sound.eq_of_token hu ht (beq_iff_eq.mp htoken))
      rw [List.filter_cons, if_neg hother]
      exact ih (hc.fire hu) ((mem_timers_fire hc.sound hu).mpr (.inl ⟨ht, fun h => hsame h.symm⟩))

/-- A timer that repeats goes off at every whole number of periods after its time, up to the limit, and
is armed for the first of these past the limit then. -/
theorem GoesOff.repeating (h : GoesOff limit c fired last) (hc : c.Steady) (ht : t ∈ c.timers)
    {period : Nanoseconds} (hperiod : t.period = some period) :
    ∃ n, (∀ k, k < n ↔ t.due + k * period ≤ limit) ∧
      ((fired.filter fun u => u.token == t.token).map fun u => (u.token, u.due)) =
        (List.range n).map (fun k => (t.token, t.due + k * period)) ∧
      ∃ u ∈ last.timers, u.token = t.token ∧ u.due = t.due + n * period ∧ u.period = some period := by
  induction h generalizing t with
  | done h =>
    have hlater := nextTimer?_none h t ht
    refine ⟨0, fun k => ?_, rfl, t, ht, rfl, by simp, hperiod⟩
    simp only [Nat.not_lt_zero, false_iff, Nat.not_le]
    exact Nat.lt_of_lt_of_le hlater (Nat.le_add_right _ _)
  | @next c last u fired h _ ih =>
    obtain ⟨hu, hlimit, -⟩ := nextTimer?_some hc.sound h
    -- Its own turn arms it again, a period later; any other leaves it as it is.
    by_cases hsame : u = t
    · subst hsame
      obtain ⟨n, hn, hfired, hlast⟩ := ih (hc.fire hu)
        ((mem_timers_fire hc.sound hu).mpr (.inr ⟨period, hperiod, rfl⟩)) rfl
      have hshift : ∀ k, u.due + (k + 1) * period = u.due + period + k * period := fun k => by
        rw [Nat.add_one_mul, Nat.add_comm (k * period), Nat.add_assoc]
      refine ⟨n + 1, fun k => ?_, ?_, ?_⟩
      · cases k with
        | zero => simpa using hlimit
        | succ k => rw [Nat.succ_lt_succ_iff, hn, hshift, Timer.again]
      · rw [List.filter_cons, if_pos (beq_self_eq_true _), List.map_cons, List.range_succ_eq_map,
          List.map_cons, List.map_map]
        refine congrArg₂ List.cons (by simp) (hfired.trans (List.map_congr_left fun k _ => ?_))
        exact congrArg (Prod.mk u.token) (hshift k).symm
      · obtain ⟨v, hv, htoken, hdue, hrepeats⟩ := hlast
        exact ⟨v, hv, htoken, hdue.trans (hshift n).symm, hrepeats⟩
    · have hother : ¬ (u.token == t.token) = true := fun htoken =>
        hsame (hc.sound.eq_of_token hu ht (beq_iff_eq.mp htoken))
      rw [List.filter_cons, if_neg hother]
      exact ih (hc.fire hu) ((mem_timers_fire hc.sound hu).mpr (.inl ⟨ht, fun h => hsame h.symm⟩))
        hperiod

/-- What precedes every armed timer precedes all that go off. -/
theorem GoesOff.precedes (h : GoesOff limit c fired last) (hc : c.Steady)
    (hfirst : ∀ u ∈ c.timers, t.Precedes u) : ∀ u ∈ fired, t.Precedes u := by
  induction h with
  | done _ => exact fun u hu => by contradiction
  | @next c last v fired h _ ih =>
    have hv := (nextTimer?_some hc.sound h).1
    refine List.forall_mem_cons.mpr ⟨hfirst v hv, ih (hc.fire hv) fun u hu => ?_⟩
    rcases (mem_timers_fire hc.sound hv).mp hu with ⟨hold, -⟩ | ⟨period, hperiod, rfl⟩
    · exact hfirst u hold
    · have hpositive : 0 < period := Nat.lt_of_lt_of_le (by decide) (hc.spaced v hv period hperiod)
      exact .inl (Nat.lt_of_le_of_lt (hfirst v hv).due_le (Nat.lt_add_of_pos_right hpositive))

theorem GoesOff.inOrder (h : GoesOff limit c fired last) (hc : c.Steady) :
    fired.Pairwise Timer.Precedes := by
  induction h with
  | done _ => exact .nil
  | @next c last u fired h hrest ih =>
    obtain ⟨hu, -, hfirst⟩ := nextTimer?_some hc.sound h
    refine List.pairwise_cons.mpr ⟨hrest.precedes (hc.fire hu) fun v hv => ?_, ih (hc.fire hu)⟩
    rcases (mem_timers_fire hc.sound hu).mp hv with ⟨hold, hne⟩ | ⟨period, hperiod, rfl⟩
    · exact hfirst v hold hne
    · have hpositive : 0 < period := Nat.lt_of_lt_of_le (by decide) (hc.spaced u hu period hperiod)
      exact .inl (Nat.lt_add_of_pos_right hpositive)

/-- What goes off was armed from the start, or has been armed again since, when it last went off: behind
everything that was armed at that time. -/
theorem GoesOff.rearmed (h : GoesOff limit c fired last) (hc : c.Steady) {earlier later : List Timer}
    (hfired : fired = earlier ++ t :: later) :
    t ∈ c.timers ∨ ∃ before s after period, earlier = before ++ s :: after ∧
      s.period = some period ∧
        t = s.again period (c.armings + before.countP (fun u => u.period.isSome) + 1) := by
  induction h generalizing earlier with
  | done _ => simp at hfired
  | @next c last u fired h _ ih =>
    have hu := (nextTimer?_some hc.sound h).1
    cases earlier with
    | nil =>
      obtain ⟨rfl, -⟩ := List.cons.inj hfired
      exact .inl hu
    | cons v earlier =>
      obtain ⟨rfl, hrest⟩ := List.cons.inj hfired
      rcases ih (hc.fire hu) hrest with hmem | ⟨before, s, after, period, rfl, hperiod, rfl⟩
      · rcases (mem_timers_fire hc.sound hu).mp hmem with ⟨hold, -⟩ | ⟨period, hperiod, rfl⟩
        · exact .inl hold
        · exact .inr ⟨[], u, earlier, period, rfl, hperiod, rfl⟩
      · refine .inr ⟨u :: before, s, after, period, rfl, hperiod, ?_⟩
        rw [armings_fire, List.countP_cons]
        congr 1
        omega

/-- The clock ends up where the last timer was due, unless it was further already. -/
theorem GoesOff.now_eq (h : GoesOff limit c fired last) (hc : c.Steady) :
    last.now = fired.getLast?.elim c.now fun t => max c.now t.due := by
  induction h with
  | done _ => rfl
  | @next c last u fired h hrest ih =>
    have hu := (nextTimer?_some hc.sound h).1
    rw [ih (hc.fire hu), now_fire, List.getLast?_cons]
    cases hlast : fired.getLast? with
    | none => rfl
    | some t =>
      have hmem : t ∈ fired := List.mem_of_getLast? hlast
      have hle : u.due ≤ t.due :=
        (List.rel_of_pairwise_cons ((GoesOff.next h hrest).inOrder hc) hmem).due_le
      simp only [Option.elim_some, Option.getD_some]
      rw [Nat.max_assoc, Nat.max_eq_right hle]

/-! ## §4 How long it takes -/

/-- A timer that is due goes off once more than the one that takes its place. -/
theorem firings_eq (hdue : t.due ≤ limit) (hperiod : ∀ period, t.period = some period → 0 < period)
    (order : Nat) :
    Timer.firings t limit = 1 + ((t.period.map fun period => t.again period order).toList.map
      fun u => Timer.firings u limit).sum := by
  unfold Timer.firings
  rw [if_pos hdue]
  cases hsome : t.period with
  | none => rfl
  | some period =>
    have hpositive := hperiod period hsome
    simp only [Option.map_some, Option.toList_some, List.map_cons, List.map_nil, List.sum_cons,
      List.sum_nil, Nat.add_zero, Timer.again]
    congr 1
    by_cases hagain : t.due + period ≤ limit
    · rw [if_pos hagain, Nat.div_eq_sub_div hpositive (Nat.le_sub_of_add_le' hagain), Nat.sub_sub]
      exact Nat.add_comm _ _
    · rw [if_neg hagain]
      exact Nat.div_eq_of_lt (Nat.sub_lt_left_of_lt_add hdue (Nat.lt_of_not_le hagain))

theorem firings_eq_sum (c : Clock) :
    c.firings limit = (c.timers.map fun t => Timer.firings t limit).sum := by
  rw [firings, List.sum_eq_foldl, List.foldl_map]

/-- Each tick leaves one less to come. -/
theorem firings_fire (hc : c.Steady) (ht : t ∈ c.timers) (hdue : t.due ≤ limit) :
    c.firings limit = (c.fire t).firings limit + 1 := by
  have hnodup : c.timers.Nodup := hc.sound.ordered.imp fun hlt hsame => by
    rw [hsame] at hlt
    exact Nat.lt_irrefl _ hlt
  have hrest : c.timers.Perm (t :: c.timers.filter fun u => u.order != t.order) := by
    refine (List.perm_ext_iff_of_nodup hnodup ?_).mpr fun u => ?_
    · exact List.nodup_cons.mpr ⟨by simp, hnodup.filter _⟩
    · rw [List.mem_cons, List.mem_filter, bne_iff_ne]
      constructor
      · intro hu
        by_cases hsame : u = t
        · exact .inl hsame
        · exact .inr ⟨hu, fun horder => hsame (hc.sound.eq_of_order hu ht horder)⟩
      · rintro (rfl | ⟨hu, -⟩)
        · exact ht
        · exact hu
  have hpositive : ∀ period, t.period = some period → 0 < period := fun period hperiod =>
    Nat.lt_of_lt_of_le (by decide) (hc.spaced t ht period hperiod)
  rw [firings_eq_sum, firings_eq_sum, timers_fire hc.sound ht, (hrest.map _).sum_nat, List.map_cons,
    List.sum_cons, firings_eq hdue hpositive (c.armings + 1), List.map_append, List.sum_append]
  omega

/-- Taking timers as often as they go off is the whole process. -/
theorem takeDue_goesOff (bound : Nat) (hc : c.Steady) (hbound : c.firings limit ≤ bound) :
    ∃ fired, GoesOff limit c fired (takeDue limit bound c).2 ∧
      (takeDue limit bound c).1 = fired.map fun t => (t.token, t.due) := by
  induction bound generalizing c with
  | zero =>
    refine ⟨[], .done ?_, rfl⟩
    cases hnext : c.nextTimer? limit with
    | none => rfl
    | some t =>
      obtain ⟨ht, hdue, -⟩ := nextTimer?_some hc.sound hnext
      have := firings_fire hc ht hdue
      omega
  | succ bound ih =>
    unfold takeDue
    cases hnext : c.nextTimer? limit with
    | none =>
      rw [nextDue?, hnext, Option.map_none]
      exact ⟨[], .done hnext, rfl⟩
    | some t =>
      obtain ⟨ht, hdue, -⟩ := nextTimer?_some hc.sound hnext
      have hless := firings_fire hc ht hdue
      obtain ⟨fired, hrest, hout⟩ := ih (hc.fire ht) (by omega)
      rw [nextDue?, hnext, Option.map_some]
      exact ⟨t :: fired, .next hnext hrest, congrArg (List.cons (t.token, t.due)) hout⟩

/-! ## §5 Draining -/

/-- The answers to the question what is due next, up to the first one that nothing is. -/
inductive Answers (limit : Nanoseconds) : Clock → List (TimerToken × Nanoseconds) → Clock → Prop
  | nothing {c : Clock} (h : c.nextDue? limit = none) : Answers limit c [] c
  | tick {c clock last : Clock} {token : TimerToken} {due : Nanoseconds}
      {ticks : List (TimerToken × Nanoseconds)} (h : c.nextDue? limit = some (token, due, clock))
      (hrest : Answers limit clock ticks last) : Answers limit c ((token, due) :: ticks) last

theorem GoesOff.answers (h : GoesOff limit c fired last) :
    Answers limit c (fired.map fun t => (t.token, t.due)) last := by
  induction h with
  | done h => exact .nothing (by rw [nextDue?, h, Option.map_none])
  | next h _ ih => exact .tick (by rw [nextDue?, h, Option.map_some]) ih

/-- The ticks are those of the armed timers up to the limit, in order, and the clock has no others left
than those due later. -/
structure Drained (c : Clock) (limit : Nanoseconds) (ticks : List (TimerToken × Nanoseconds))
    (last : Clock) : Prop where
  answers : Answers limit c ticks last
  armed : ∀ tick ∈ ticks, ∃ t ∈ c.timers, t.token = tick.1
  once : ∀ t ∈ c.timers, t.period = none →
    (ticks.filter fun tick => tick.1 == t.token) = if t.due ≤ limit then [(t.token, t.due)] else []
  repeating : ∀ t ∈ c.timers, ∀ period, t.period = some period →
    ∃ n, (∀ k, k < n ↔ t.due + k * period ≤ limit) ∧
      (ticks.filter fun tick => tick.1 == t.token) =
        (List.range n).map (fun k => (t.token, t.due + k * period)) ∧
      ∃ u ∈ last.timers, u.token = t.token ∧ u.due = t.due + n * period ∧ u.period = some period
  inTime : ticks.Pairwise fun s t => s.2 ≤ t.2
  /-- At the same time the timer that was armed first goes first.  All but those that were armed from
  the start have been armed again by a tick of theirs, and the later the tick, the later their place. -/
  inOrder : ∃ fired : List Timer, ticks = (fired.map fun t => (t.token, t.due)) ∧
    fired.Pairwise Timer.Precedes ∧
    ∀ earlier t later, fired = earlier ++ t :: later →
      t ∈ c.timers ∨ ∃ before s after period, earlier = before ++ s :: after ∧
        s.period = some period ∧
          t = s.again period (c.armings + before.countP (fun u => u.period.isSome) + 1)
  later : ∀ t ∈ c.timers, limit < t.due → t ∈ last.timers
  left : ∀ u ∈ last.timers, limit < u.due ∧
    ∃ t ∈ c.timers, t.token = u.token ∧ t.period = u.period ∧ (u.period = none → t = u)
  apart : last.timers.Pairwise fun s t => s.token ≠ t.token
  now_eq : last.now = ticks.getLast?.elim c.now fun tick => max c.now tick.2

theorem GoesOff.drained (h : GoesOff limit c fired last) (hc : c.Steady) :
    c.Drained limit (fired.map fun t => (t.token, t.due)) last where
  answers := h.answers
  armed tick htick := by
    obtain ⟨t, ht, rfl⟩ := List.mem_map.mp htick
    exact (h.armed hc).1 t ht
  once t ht hperiod := by
    have hfired := congrArg (List.map fun u : Timer => (u.token, u.due)) (h.once hc ht hperiod)
    rw [List.filter_map]
    refine hfired.trans ?_
    split <;> rfl
  repeating t ht period hperiod := by
    rw [List.filter_map]
    exact h.repeating hc ht hperiod
  inTime := List.pairwise_map.mpr ((h.inOrder hc).imp Timer.Precedes.due_le)
  inOrder := ⟨fired, rfl, h.inOrder hc, fun _ _ _ hfired => h.rearmed hc hfired⟩
  later _ ht hdue := h.later hc ht hdue
  left u hu := ⟨nextTimer?_none h.over u hu, (h.armed hc).2 u hu⟩
  apart := (h.steady hc).sound.apart
  now_eq := by
    rw [h.now_eq hc, List.getLast?_map]
    cases fired.getLast? <;> rfl

/-- Draining a clock takes off it all that is due and nothing else, each timer as often as it goes off up
to the limit, and in order.  No token is armed twice: arming one or cancelling it takes away what was
armed under it. -/
theorem drain_takes_due (hc : c.Reached) (limit : Nanoseconds) :
    c.Drained limit (c.drain limit).1 (c.drain limit).2 ∧
      (c.timers.Pairwise fun s t => s.token ≠ t.token) ∧
      (∀ token t, t ∈ (c.cancel token).timers ↔ t ∈ c.timers ∧ t.token ≠ token) ∧
      (∀ delay token t, t ∈ (c.once delay token).timers ↔
        (t ∈ c.timers ∧ t.token ≠ token) ∨ t = ⟨token, c.now + delay, none, c.armings + 1⟩) ∧
      ∀ period token t, t ∈ (c.repeating period token).timers ↔
        (t ∈ c.timers ∧ t.token ≠ token) ∨
          t = ⟨token, c.now + period, some (max period Nanoseconds.perMilli), c.armings + 1⟩ := by
  obtain ⟨fired, hgoes, hticks⟩ := takeDue_goesOff (c.firings limit) hc.steady (Nat.le_refl _)
  refine ⟨?_, hc.steady.sound.apart, fun _ _ => mem_cancel, fun _ _ _ => mem_arm, fun _ _ _ => mem_arm⟩
  rw [drain, hticks]
  exact hgoes.drained hc.steady

/-- A clock with a timer that repeats and two that do not. -/
def crowded : Clock :=
  ((Clock.once {} (Nanoseconds.ofMillis 5) 1).repeating (Nanoseconds.ofMillis 2) 2).once
    (Nanoseconds.ofMillis 4) 3

/-- After four milliseconds two timers are due, and the one that repeats has been armed last. -/
theorem drain_takes_due_crowded :
    crowded.Drained (Nanoseconds.ofMillis 5) (crowded.drain (Nanoseconds.ofMillis 5)).1
        (crowded.drain (Nanoseconds.ofMillis 5)).2 ∧
      (crowded.drain (Nanoseconds.ofMillis 5)).1 =
        [(2, Nanoseconds.ofMillis 2), (3, Nanoseconds.ofMillis 4), (2, Nanoseconds.ofMillis 4),
          (1, Nanoseconds.ofMillis 5)] ∧
      (crowded.drain (Nanoseconds.ofMillis 5)).2.now = Nanoseconds.ofMillis 5 :=
  ⟨(drain_takes_due (((Reached.start.once _ 1).repeating _ 2).once _ 3) _).1, by decide +kernel,
    by decide +kernel⟩

end Clock

end VirtualPad
