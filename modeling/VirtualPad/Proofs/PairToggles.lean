import VirtualPad.Proofs.PairsInStep

/-!
# Toggles of pairs

A pair has a toggle of its own, and it flips when the pair goes down.  A pair follows its components,
so the toggle tells whether what the components make of the pair has risen an odd number of times since
the configuration was installed.

Pairs move only when a component does, and then in one direction.  So from one operation to the next a
pair goes down once at most (`Engine.TogglesFollow`), whatever else happens: timers, forced releases
and requests go on beneath the keys.
-/

namespace VirtualPad

namespace Turn

open Engine

/-! ## §1 A source moves -/

/-- Pairs that follow one after another go where their components say, if they move at all, and each
does so once at most. -/
theorem togglesFollow_followPairs (room : Nat) {t : Turn} {c : Control} {pulse : Pulse}
    (pairs : List Control) (hwired : t.engine.Wired) (hpulse : t.stateUser c pulse.user = pulse.user)
    (hlists : ∀ pair ∈ pairs, t.engine.board.Lists Line.pairs c pair) {t' : Turn}
    (ht' : (sweep (followPair (feed (room + 1)) pulse) t pairs).1 = t') :
    (∀ (other : Control) (u : Nat), other.isCustom = false →
      t'.engine.board.isDown other u = t.engine.board.isDown other u ∨
        u = pulse.user ∧
          t.pairState? other pulse.user = some (t'.engine.board.isDown other u)) ∧
      TogglesFollow t.engine t'.engine := by
  rw [sweep_fst] at ht'
  induction pairs generalizing t with
  | nil =>
    obtain rfl : t = t' := ht'
    exact ⟨fun _ _ _ => .inl rfl, .refl _⟩
  | cons first rest ih =>
    obtain ⟨hfirst, hrest⟩ := List.forall_mem_cons.mp hlists
    obtain ⟨down, hstate, hmoved⟩ := moved_followPair room hwired hfirst hpulse
    have hlayout := hmoved.layout
    obtain ⟨hlater, htoggles⟩ := ih (hwired.congr hlayout)
      (by rw [stateUser_congr hlayout]; exact hpulse)
      (fun other hother =>
        (lists_congr Wiring.pairs (fun _ => rfl) hlayout c other).mpr (hrest other hother)) ht'
    -- What a pair should be does not change while pairs move.
    have hkept : ∀ other, (followPair (feed (room + 1)) pulse t first).1.pairState? other pulse.user =
        t.pairState? other pulse.user :=
      fun other => pairState_moved hmoved (hwired.of_pairs hfirst).1 other pulse.user
    refine ⟨fun other u hother => ?_, hmoved.toggles.trans htoggles fun other u hother => ?_⟩
    · have hnow := hmoved.isDown other u hother
      rcases hlater other u hother with hsame | ⟨huser, hin⟩
      · rw [hsame, hnow]
        split
        · rename_i hown
          obtain ⟨rfl, huser⟩ := hown
          exact .inr ⟨huser.symm, hstate⟩
        · exact .inl rfl
      · exact .inr ⟨huser, (hkept other).symm.trans hin⟩
    · have hnow := hmoved.isDown other u hother
      by_cases hown : first = other ∧ pulse.user = u
      · -- The pair has gone where it belongs, so it does not move again.
        rcases hlater other u hother with hsame | ⟨-, hin⟩
        · exact .inr hsame
        · rw [if_pos hown] at hnow
          rw [hkept other, ← hown.1, hstate] at hin
          rw [hnow, ← hown.1]
          exact .inr (Option.some.inj hin).symm
      · rw [if_neg hown] at hnow
        exact .inl hnow

/-- **A source that moves** flips the toggles of what goes down with it, and of nothing else. -/
theorem togglesFollow_feed {room : Nat} (hroom : 2 ≤ room) {t : Turn} {c : Control} (pulse : Pulse)
    (hwired : t.engine.Wired) (hsingle : (t.engine.descriptor c).pair = none) :
    TogglesFollow t.engine (feed room t c pulse).1.engine := by
  obtain ⟨room, rfl⟩ := Nat.exists_eq_add_of_le' hroom
  cases hcustom : c.isCustom with
  | true =>
    exact (TogglesFollow.refl _).beneath
      (beneath_feed (room + 2) _ t c pulse hwired (keyed_none _) hcustom)
  | false =>
    cases hline : t.engine.board.line? c with
    | none =>
      rw [feed_none _ t c pulse hline]
      exact .refl _
    | some line =>
      have hchain := beneath_runChain (beneath_feed (room + 1)) c line (t.own c pulse) hwired
        (keyed_none _) (fun _ _ _ h => h.elim) False.elim
      have hmoved := (moved_mark hline (t.own c pulse).user pulse.down).beneath hchain
      have hlayout := hmoved.layout
      have hpairs : ∀ pair ∈ line.pairs,
          (runChain (room + 1) t c line (t.own c pulse)).1.engine.board.Lists Line.pairs c pair :=
        fun pair hpair =>
          (lists_congr Wiring.pairs (fun _ => rfl) hlayout c pair).mpr ⟨line, hline, hpair⟩
      obtain ⟨hfollowed, htoggles⟩ := togglesFollow_followPairs room line.pairs (hwired.congr hlayout)
        (stateUser_own hlayout c pulse) hpairs rfl
      refine TogglesFollow.beneath ?_
        (beneath_reviews (beneath_feed (room + 1)) hwired (keyed_none _) hline pulse)
      refine hmoved.toggles.trans htoggles fun other u hother => ?_
      by_cases hown : c = other
      · -- The source itself is no pair, so it does not follow anything.
        subst hown
        refine .inr ((hfollowed c u hother).resolve_right fun h => ?_)
        have hfollows := h.2
        simp [pairState?, descriptor_congr hlayout, hsingle] at hfollows
      · left
        rw [hmoved.isDown other u hother, if_neg fun h => hown h.1]

end Turn

namespace Engine

variable {admits : Config → Prop} {e e' : Engine} {rises : Control → User → Nat}

/-! ## §2 Counting -/

/-- What the components of a pair make of it for a user: one of them is down, or both are. -/
def joined (e : Engine) (pair : Control) (user : Nat) : Bool :=
  match (e.descriptor pair).pair with
  | none => false
  | some (first, second) =>
    if (e.descriptor pair).flags.andPair then
      e.board.isDown first user && e.board.isDown second user
    else e.board.isDown first user || e.board.isDown second user

/-- The number of rises with one more for each pair that the components have made go down. -/
def countRises (e e' : Engine) (rises : Control → User → Nat) : Control → User → Nat :=
  fun pair user => rises pair user + if !e.joined pair user && e'.joined pair user then 1 else 0

/-- The engine can come about between two operations while the host moves no pair itself.  The numbers
say how often the components of each pair have made it go down for each user since the configuration was
installed. -/
inductive Counted (admits : Config → Prop) : (Control → User → Nat) → Engine → Prop
  | start {config : Config} (hconfig : admits config) :
      Counted admits (fun _ _ => 0) (ofConfig config)
  | call {rises : Control → User → Nat} {e : Engine} {call : Call} (hcall : call.Admitted admits)
      (hsource : ∀ c, call.source? = some c → (e.descriptor c).pair = none)
      (hstays : ∀ config, call ≠ .reload config) (he : Counted admits rises e) :
      Counted admits (countRises e (e.after call) rises) (e.after call)
  | reload {rises : Control → User → Nat} {e : Engine} {config : Config} (hconfig : admits config)
      (he : Counted admits rises e) : Counted admits (fun _ _ => 0) (e.reload config)
  | timer {rises : Control → User → Nat} {e : Engine} (token : TimerToken) (time : Nat)
      (he : Counted admits rises e) :
      Counted admits (countRises e (e.onTimer token time) rises) (e.onTimer token time)

theorem Counted.attended (he : Counted admits rises e) : Attended admits e := by
  induction he with
  | start hconfig => exact .start hconfig
  | call hcall hsource _ _ ih => exact .call hcall hsource ih
  | @reload _ _ config hconfig _ ih =>
    have hcall : (Call.reload config).Admitted admits := hconfig
    exact .call hcall (fun _ h => by cases h) ih
  | timer token time _ ih => exact .timer token time ih

/-- The rises can be counted in every run. -/
theorem Attended.counted (he : Attended admits e) : ∃ rises, Counted admits rises e := by
  induction he with
  | start hconfig => exact ⟨_, .start hconfig⟩
  | @call e call hcall hsource _ ih =>
    obtain ⟨rises, hcounted⟩ := ih
    by_cases hreload : ∃ config, call = .reload config
    · obtain ⟨config, rfl⟩ := hreload
      exact ⟨_, .reload hcall hcounted⟩
    · exact ⟨_, .call hcall hsource (fun config h => hreload ⟨config, h⟩) hcounted⟩
  | timer token time _ ih =>
    obtain ⟨rises, hcounted⟩ := ih
    exact ⟨_, .timer token time hcounted⟩

/-! ## §3 Between two operations -/

/-- A pair that somebody listens to is down when its components say so. -/
theorem PairsInStep.isDown (he : PairsInStep e) {pair : Control} (hheeded : e.Heeded pair)
    (hpair : (e.descriptor pair).pair.isSome = true) (user : User) :
    e.board.isDown pair user = e.joined pair user := by
  obtain ⟨⟨first, second⟩, hboth⟩ := Option.isSome_iff_exists.mp hpair
  refine he pair user hheeded _ ?_
  simp [Turn.pairState?, joined, hboth]

/-- The toggles of the pairs tell whether the numbers are odd. -/
def TogglesCount (e : Engine) (rises : Control → User → Nat) : Prop :=
  ∀ (pair : Control) (user : User), e.Heeded pair → (e.descriptor pair).pair.isSome = true →
    e.board.isToggled? pair user = some (decide (rises pair user % 2 = 1))

/-- What follows the pairs counts their rises. -/
theorem TogglesCount.step (he : TogglesCount e rises) (hlayout : e'.layout = e.layout)
    (hbefore : PairsInStep e) (hafter : PairsInStep e') (htoggles : TogglesFollow e e') :
    TogglesCount e' (countRises e e' rises) := by
  intro pair user hheeded' hpair'
  have hheeded : e.Heeded pair := hheeded'.congr hlayout.symm
  have hpair : (e.descriptor pair).pair.isSome = true := by
    rwa [descriptor_congr hlayout] at hpair'
  obtain ⟨both, hboth⟩ := Option.isSome_iff_exists.mp hpair
  rw [htoggles pair user (e.vocabulary.builtin_of_pair hboth), he pair user hheeded hpair,
    hbefore.isDown hheeded hpair, hafter.isDown hheeded' hpair', Option.map_some]
  refine congrArg some ?_
  unfold countRises
  split
  · rename_i hrise
    rw [hrise, Bool.xor_true, ← decide_not, decide_eq_decide]
    omega
  · rename_i hstill
    rw [Bool.eq_false_iff.mpr hstill, Bool.xor_false, Nat.add_zero]

theorem TogglesCount.beneath {A : Nat → Prop} (he : TogglesCount e rises) (h : Beneath A e e') :
    TogglesCount e' rises := by
  intro pair user hheeded hpair
  rw [descriptor_congr h.layout] at hpair
  obtain ⟨both, hboth⟩ := Option.isSome_iff_exists.mp hpair
  rw [← he pair user (hheeded.congr h.layout.symm) hpair]
  unfold Switchboard.isToggled?
  rw [h.line? pair (e.vocabulary.builtin_of_pair hboth)]

/-- After an installation no control has been pressed yet. -/
theorem togglesCount_install (e : Engine) (config : Config) (time : Nat) :
    TogglesCount (e.install config time) fun _ _ => 0 := by
  intro pair user hheeded _
  obtain ⟨line, hline⟩ := (wired_install e config time).line hheeded
  have hquiet := (Switchboard.wires_ofMappings config.vocabulary config.mappings).quiet
  rw [install_board] at hline ⊢
  unfold Switchboard.isToggled?
  rw [hline]
  simp [Line.isToggled, (hquiet pair line hline).2]

/-- An operation that keeps the configuration flips the toggles of what goes down, and of nothing
else. -/
theorem togglesFollow_after (hop : Operated admits e) {call : Call}
    (hsource : ∀ c, call.source? = some c → (e.descriptor c).pair = none)
    (hstays : ∀ config, call ≠ .reload config) :
    TogglesFollow e (e.after call) ∧ (e.after call).layout = e.layout := by
  rcases e.after_cases call with ⟨c, pulse, time, hc, -, hafter, -⟩ | hunfeds | ⟨config, hreload⟩
  · rw [hafter]
    have hnoted : ({ e with lastTime := time } : Engine).layout = e.layout := rfl
    have hwired := hop.wired.congr hnoted
    have hfed := Turn.togglesFollow_feed (show 2 ≤ cascadeRoom + 1 by decide)
      (t := { engine := { e with lastTime := time }, time }) pulse hwired (hsource c hc)
    have hlayout := Turn.feed_layout (cascadeRoom + 1)
      { engine := { e with lastTime := time }, time } c pulse
    have hrest := Beneath.accept (hwired.congr hlayout) (keyed_none _)
    exact ⟨hfed.beneath hrest, hrest.layout.trans hlayout⟩
  · have hbeneath := Beneath.unfeds hunfeds hop.wired (keyed_none e) hop.timersKnown
    exact ⟨(TogglesFollow.refl e).beneath hbeneath, hbeneath.layout⟩
  · exact absurd hreload (hstays config)

/-- **The toggles count the rises**, in every run in which the host moves no pair itself. -/
theorem Counted.togglesCount (he : Counted admits rises e) : TogglesCount e rises := by
  induction he with
  | start _ => exact togglesCount_install _ _ 0
  | @call rises e call hcall hsource hstays he ih =>
    obtain ⟨htoggles, hlayout⟩ := togglesFollow_after he.attended.operated hsource hstays
    have hafter := Attended.call hcall hsource he.attended
    exact ih.step hlayout he.attended.pairsInStep hafter.pairsInStep htoggles
  | @reload rises e config hconfig he ih =>
    exact (togglesCount_install e.freed config e.lastTime).beneath
      (.duties (duties_reload e config) (wired_install _ _ _) (keyed_none _))
  | @timer rises e token time he ih =>
    have hop := he.attended.operated
    have hbeneath := Beneath.unfeds (unfeds_onTimer _ token time) hop.wired (keyed_none _)
      hop.timersKnown
    exact ih.step hbeneath.layout he.attended.pairsInStep
      (he.attended.pairsInStep.beneath hbeneath) ((TogglesFollow.refl e).beneath hbeneath)

/-- **Every pair that somebody listens to goes with its components**: between two operations it is down
for a user if one of them is, or if both are.  The rises of that can be counted in every run, and the
toggle of the pair tells whether it has come about an odd number of times since the configuration was
installed. -/
theorem pair_of_components (he : Attended Config.IsCompiled e) {pair first second : Control}
    (hpair : (e.descriptor pair).pair = some (first, second)) (hheeded : e.Heeded pair)
    (user : User) :
    (∃ one two : Bool,
      e.board.isDown? first user = some one ∧ e.board.isDown? second user = some two ∧
      e.board.isDown? pair user =
        some (if (e.descriptor pair).flags.andPair then one && two else one || two)) ∧
    (∃ rises, Counted Config.IsCompiled rises e) ∧
    ∀ rises, Counted Config.IsCompiled rises e →
      e.board.isToggled? pair user = some (decide (rises pair user % 2 = 1)) := by
  have hwired := he.operated.wired
  have hsome : (e.descriptor pair).pair.isSome = true := Option.isSome_of_mem hpair
  -- The components of the pair have lines because somebody listens to the pair.
  have hline : ∀ c, c = first ∨ c = second →
      e.board.isDown? c user = some (e.board.isDown c user) := by
    intro c hc
    obtain ⟨line, hline, -⟩ := (hwired.pairs c pair).mpr
      ⟨Switchboard.mem_components.mpr ⟨first, second, hpair, hc⟩, hheeded⟩
    simp [Switchboard.isDown, Switchboard.isDown?, hline]
  obtain ⟨line, hown⟩ := hwired.line hheeded
  have hdown : e.board.isDown? pair user = some (e.board.isDown pair user) := by
    simp [Switchboard.isDown, Switchboard.isDown?, hown]
  refine ⟨⟨_, _, hline first (.inl rfl), hline second (.inr rfl), ?_⟩, he.counted,
    fun rises hcounted => hcounted.togglesCount pair user hheeded hsome⟩
  rw [hdown, he.pairsInStep.isDown hheeded hsome, joined, hpair]

/-- An input of a control that is no pair is one step of such a run. -/
theorem Counted.input (he : Counted admits rises e) (source : Control)
    (hsource : (e.descriptor source).pair = none) (user : Nat) (down : Bool) (strength : Float)
    (time : Nat) : Counted admits
      (countRises e (e.after (.input source user down strength time)) rises)
      (e.after (.input source user down strength time)) := by
  have hcall : (Call.input source user down strength time).Admitted admits := trivial
  exact he.call hcall (fun _ hc => Option.some.inj hc ▸ hsource) fun _ h => by cases h

/-- Shift presses a button. -/
def shiftedConfig : ConfigFile := { mappings := [{ source := "Shift", target := "PadA" }] }

/-- Both Shift keys have gone down, and the left one has come up again. -/
def shifted : Engine :=
  (((ofConfig shiftedConfig.compile).after (.input ⟨0xA0⟩ 0 true 1 0)).after
    (.input ⟨0xA1⟩ 0 true 1 1)).after (.input ⟨0xA0⟩ 0 false 0 2)

/-- Shift is down for the right key still, and it has gone down once. -/
theorem pair_of_components_shifted : ∃ rises, Counted Config.IsCompiled rises shifted ∧
    rises ⟨0x10⟩ User.first = 1 ∧ shifted.Heeded ⟨0x10⟩ ∧
    (shifted.descriptor ⟨0x10⟩).pair = some (⟨0xA0⟩, ⟨0xA1⟩) ∧
    shifted.board.isDown? ⟨0x10⟩ 0 = some true ∧
    shifted.board.isToggled? ⟨0x10⟩ 0 = some true := by
  have hstart : Counted Config.IsCompiled (fun _ _ => 0) (ofConfig shiftedConfig.compile) :=
    .start ⟨shiftedConfig, rfl⟩
  obtain ⟨rises, hrun, hrises⟩ : ∃ rises, Counted Config.IsCompiled rises shifted ∧
      rises ⟨0x10⟩ User.first = 1 :=
    ⟨_, ((hstart.input ⟨0xA0⟩ rfl 0 true 1 0).input ⟨0xA1⟩ rfl 0 true 1 1).input ⟨0xA0⟩ rfl 0 false 0
      2, by decide +kernel⟩
  have hstate : (shifted.bindings[0]?).map (fun b => b.mapping.source) = some ⟨0x10⟩ ∧
      (shifted.descriptor ⟨0x10⟩).pair = some (⟨0xA0⟩, ⟨0xA1⟩) ∧
      shifted.board.isDown? ⟨0x10⟩ 0 = some true := by decide +kernel
  obtain ⟨hsource, hpair, hdown⟩ := hstate
  obtain ⟨b, hb, hsource⟩ := Option.map_eq_some_iff.mp hsource
  have hheeded : shifted.Heeded ⟨0x10⟩ := ⟨0, b, hb, .inl hsource⟩
  obtain ⟨-, -, htoggles⟩ := pair_of_components hrun.attended hpair hheeded User.first
  have htoggled := htoggles rises hrun
  rw [hrises] at htoggled
  exact ⟨rises, hrun, hrises, hheeded, hpair, hdown, htoggled⟩

end Engine

end VirtualPad
