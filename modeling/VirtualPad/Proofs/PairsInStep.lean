import VirtualPad.Proofs.Cascades

/-!
# Pairs go with their components

A pair such as Shift is down while one of its keys is, or while both are.  The board keeps a state of
its own for it, and a source that moves takes the pairs along that it is a component of.  So in the
middle of an event a pair may lag behind its components.  Between two operations none does, as long
as the host leaves it to the engine to move the pairs.

A pair that follows moves no other built-in control (`Engine.Moved`), and pairs do not nest.  So what
is in step already stays so while the rest follow.
-/

namespace VirtualPad

/-! ## §1 One control moves -/

/-- The toggle of a control flips when the control goes down, and stays otherwise. -/
theorem Switchboard.isToggled?_set (b : Switchboard) (c : Control) {user : Nat}
    (hin : user < maskWidth) (down : Bool) (other : Control) (u : Nat) :
    (b.set c user down).isToggled? other u = (b.isToggled? other u).map fun odd =>
      odd ^^ (!b.isDown other u && (b.set c user down).isDown other u) := by
  rw [isDown_set]
  unfold isToggled? isDown isDown?
  rw [line?_set]
  cases hline : b.line? other with
  | none => simp
  | some line =>
    by_cases hsame : c = other
    · subst hsame
      by_cases huser : user = u
      · subst huser
        cases hdown : line.isDown user <;> cases down <;>
          simp [hline, hin, Line.set, Line.isToggled, Mask.has_put, hdown]
      · cases hdown : line.isDown user <;> cases down <;>
          simp [hline, huser, Line.set, Line.isToggled, Mask.has_put, hdown]
    · simp [hsame]

namespace Engine

/-- The toggles of the built-in controls have flipped with what has gone down. -/
def TogglesFollow (e e' : Engine) : Prop :=
  ∀ (c : Control) (user : Nat), c.isCustom = false →
    e'.board.isToggled? c user = (e.board.isToggled? c user).map fun odd =>
      odd ^^ (!e.board.isDown c user && e'.board.isDown c user)

/-- A built-in control has gone up or down for one user, and that is all that has moved. -/
structure Moved (c : Control) (user : User) (down : Bool) (e e' : Engine) : Prop where
  layout : e'.layout = e.layout
  isDown (other : Control) (u : Nat) : other.isCustom = false →
    e'.board.isDown other u = if c = other ∧ user = u then down else e.board.isDown other u
  toggles : TogglesFollow e e'

theorem TogglesFollow.refl (e : Engine) : TogglesFollow e e := by
  intro c user _
  simp

/-- What goes on beneath the keys flips no toggle of a built-in control. -/
theorem TogglesFollow.beneath {A : Nat → Prop} {e e' e'' : Engine} (h : TogglesFollow e e')
    (hrest : Beneath A e' e'') : TogglesFollow e e'' := by
  intro c user hc
  rw [hrest.isDown c user hc, ← h c user hc]
  unfold Switchboard.isToggled?
  rw [hrest.line? c hc]

/-- Toggles follow in two steps if nothing moves in both. -/
theorem TogglesFollow.trans {e e' e'' : Engine} (h : TogglesFollow e e') (h' : TogglesFollow e' e'')
    (honce : ∀ (c : Control) (user : Nat), c.isCustom = false →
      e'.board.isDown c user = e.board.isDown c user ∨
        e''.board.isDown c user = e'.board.isDown c user) : TogglesFollow e e'' := by
  intro c user hc
  rw [h' c user hc, h c user hc, Option.map_map]
  refine congrArg (fun f : Bool → Bool => (e.board.isToggled? c user).map f) (funext fun odd => ?_)
  rcases honce c user hc with hsame | hsame
  · simp [hsame]
  · simp [hsame]

theorem Moved.beneath {c : Control} {user : User} {down : Bool} {e e' e'' : Engine}
    (h : Moved c user down e e') (hrest : Beneath (fun _ => False) e' e'') :
    Moved c user down e e'' where
  layout := hrest.layout.trans h.layout
  isDown other u hother := (hrest.isDown other u hother).trans (h.isDown other u hother)
  toggles := h.toggles.beneath hrest

/-- A control that is there already need not move. -/
theorem Moved.of_isDown {e : Engine} {c : Control} {user : User} {down : Bool}
    (h : e.board.isDown c user = down) : Moved c user down e e where
  layout := rfl
  isDown other u _ := by
    split
    · rename_i hsame
      rw [← hsame.1, ← hsame.2, h]
    · rfl
  toggles := .refl e

end Engine

namespace Turn

open Engine

theorem moved_mark {t : Turn} {c : Control} {line : Line} (hline : t.engine.board.line? c = some line)
    (user : User) (down : Bool) : Moved c user down t.engine (t.mark c user down).engine where
  layout := layout_setBoard t.engine c user down
  isDown other u _ := by
    have hin : user.val < maskWidth := Nat.lt_trans user.isLt (by decide)
    show (t.engine.board.set c user down).isDown other u = _
    simp [Switchboard.isDown_set, hin, hline]
  toggles other u _ :=
    Switchboard.isToggled?_set _ c (Nat.lt_trans user.isLt (by decide)) down other u

/-- A source that is part of no pair moves, and no other built-in control does. -/
theorem moved_feed (room : Nat) {t : Turn} {c : Control} {line : Line} (hwired : t.engine.Wired)
    (hline : t.engine.board.line? c = some line) (hpairs : line.pairs = []) (pulse : Pulse) :
    Moved c (t.stateUser c pulse.user) pulse.down t.engine (feed (room + 1) t c pulse).1.engine := by
  have hchain := beneath_runChain (beneath_feed room) c line (t.own c pulse) hwired (keyed_none _)
    (fun _ _ _ h => h.elim) False.elim
  have hrest := beneath_reviews (beneath_feed room) hwired (keyed_none _) hline pulse
  unfold runPairs at hrest
  rw [hpairs] at hrest
  exact ((moved_mark hline _ _).beneath hchain).beneath hrest

/-! ## §2 A pair follows its components -/

/-- The pair is where its components say. -/
def InStep (t : Turn) (pair : Control) (user : User) : Prop :=
  ∀ down, t.pairState? pair user = some down → t.engine.board.isDown pair user = down

/-- What a pair should be goes by its components. -/
theorem pairState_congr {t t' : Turn} (hlayout : t'.engine.layout = t.engine.layout) {pair : Control}
    {user : User} (hsame : ∀ c ∈ Switchboard.components t.engine.vocabulary pair,
      t'.engine.board.isDown c user = t.engine.board.isDown c user) :
    t'.pairState? pair user = t.pairState? pair user := by
  unfold pairState?
  rw [descriptor_congr hlayout]
  cases hpair : (t.engine.descriptor pair).pair with
  | none => simp [hpair]
  | some both =>
    obtain ⟨first, second⟩ := both
    have hfirst := hsame first (Switchboard.mem_components.mpr ⟨first, second, hpair, .inl rfl⟩)
    have hsecond := hsame second (Switchboard.mem_components.mpr ⟨first, second, hpair, .inr rfl⟩)
    simp [hpair, hfirst, hsecond]

/-- When components go up at most, a pair does not get to go down. -/
theorem pairState_mono {t t' : Turn} (hlayout : t'.engine.layout = t.engine.layout) {pair : Control}
    {user : User} (hfalls : ∀ c ∈ Switchboard.components t.engine.vocabulary pair,
      t'.engine.board.isDown c user = true → t.engine.board.isDown c user = true)
    (h : t'.pairState? pair user = some true) : t.pairState? pair user = some true := by
  unfold pairState? at h ⊢
  rw [descriptor_congr hlayout] at h
  cases hpair : (t.engine.descriptor pair).pair with
  | none => simp [hpair] at h
  | some both =>
    obtain ⟨first, second⟩ := both
    have hfirst := hfalls first (Switchboard.mem_components.mpr ⟨first, second, hpair, .inl rfl⟩)
    have hsecond := hfalls second (Switchboard.mem_components.mpr ⟨first, second, hpair, .inr rfl⟩)
    simp only [hpair, Option.map_some, Option.some.injEq] at h ⊢
    split at h
    · rename_i hboth
      rw [Bool.and_eq_true] at h
      simp [hboth, hfirst h.1, hsecond h.2]
    · rename_i heither
      rw [Bool.or_eq_true] at h
      simpa [heither] using h.imp hfirst hsecond

/-- Only pairs can be out of step. -/
theorem inStep_of_not_pair {t : Turn} {c : Control} (h : (t.engine.descriptor c).pair = none)
    (user : User) : t.InStep c user := by
  intro down hstate
  rw [pairState?, h] at hstate
  contradiction

/-- A pair stays in step if neither its components nor the pair itself have moved. -/
theorem InStep.congr {t t' : Turn} {pair : Control} {user : User} (h : t.InStep pair user)
    (hlayout : t'.engine.layout = t.engine.layout)
    (hsame : ∀ c ∈ Switchboard.components t.engine.vocabulary pair,
      t'.engine.board.isDown c user = t.engine.board.isDown c user)
    (hown : (t.engine.descriptor pair).pair.isSome = true →
      t'.engine.board.isDown pair user = t.engine.board.isDown pair user) : t'.InStep pair user := by
  cases hpair : (t.engine.descriptor pair).pair with
  | none =>
    refine inStep_of_not_pair ?_ user
    rw [descriptor_congr hlayout, hpair]
  | some both =>
    intro down hstate
    rw [pairState_congr hlayout hsame] at hstate
    rw [hown (Option.isSome_of_mem hpair)]
    exact h down hstate

/-- Beneath the keys nothing gets out of step. -/
theorem InStep.beneath {A : Nat → Prop} {t t' : Turn} {pair : Control} {user : User}
    (h : t.InStep pair user) (hbeneath : Beneath A t.engine t'.engine) : t'.InStep pair user := by
  refine h.congr hbeneath.layout
    (fun c hc => hbeneath.isDown c user (Switchboard.component_builtin hc)) fun hpair => ?_
  obtain ⟨both, hboth⟩ := Option.isSome_iff_exists.mp hpair
  exact hbeneath.isDown pair user (t.engine.vocabulary.builtin_of_pair hboth)

/-- A pair that moves changes what no pair should be. -/
theorem pairState_moved {t t' : Turn} {pair : Control} {u : User} {down : Bool}
    (h : Moved pair u down t.engine t'.engine) (hpair : (t.engine.descriptor pair).pair.isSome = true)
    (other : Control) (user : User) : t'.pairState? other user = t.pairState? other user := by
  refine pairState_congr h.layout fun c hc => ?_
  have hbuiltin := Switchboard.component_builtin hc
  rw [h.isDown c user hbuiltin, if_neg]
  rintro ⟨rfl, -⟩
  have hnone : (t.engine.descriptor pair).pair = none := Switchboard.pair_of_component hc
  rw [hnone] at hpair
  contradiction

/-- **A pair follows.**  It goes where its components say, and no other built-in control moves. -/
theorem moved_followPair (room : Nat) {t : Turn} {c pair : Control} {pulse : Pulse}
    (hwired : t.engine.Wired) (hlists : t.engine.board.Lists Line.pairs c pair)
    (hpulse : t.stateUser c pulse.user = pulse.user) : ∃ down,
      t.pairState? pair pulse.user = some down ∧
      Moved pair pulse.user down t.engine (followPair (feed (room + 1)) pulse t pair).1.engine := by
  obtain ⟨hmem, hheeded⟩ := (hwired.pairs c pair).mp hlists
  obtain ⟨first, second, hpair, -⟩ := Switchboard.mem_components.mp hmem
  obtain ⟨down, hstate⟩ : ∃ down, t.pairState? pair pulse.user = some down :=
    ⟨_, congrArg (Option.map _) hpair⟩
  refine ⟨down, hstate, ?_⟩
  unfold followPair
  rw [hstate]
  dsimp only
  split
  · obtain ⟨line, hline⟩ := hwired.line hheeded
    have hpairs : line.pairs = [] := List.eq_nil_iff_forall_not_mem.mpr fun outer houter =>
      (hwired.of_pairs hlists).2.2 outer ⟨line, hline, houter⟩
    have hmoved := moved_feed room hwired hline hpairs { pulse with down }
    -- The pair has users of its own if the component has.
    have huser : t.stateUser pair pulse.user = pulse.user := by
      have hof := (t.engine.vocabulary.of_isComponent (Switchboard.isComponent_of_mem hmem)).2
      unfold stateUser at hpulse ⊢
      split
      · rfl
      · rename_i hnot
        have hnone : ¬ (t.engine.descriptor c).flags.ofUser = true := fun h => hnot (hof h).2
        rwa [if_neg hnone] at hpulse
    rwa [huser] at hmoved
  · rename_i hsame
    have hthere : down = t.engine.board.isDown pair pulse.user := by simpa using hsame
    exact .of_isDown hthere.symm

/-- Following brings a pair in step and leaves the others where they are. -/
theorem inStep_followPair (room : Nat) {t : Turn} {c pair : Control} {pulse : Pulse}
    (hwired : t.engine.Wired) (hlists : t.engine.board.Lists Line.pairs c pair)
    (hpulse : t.stateUser c pulse.user = pulse.user) (other : Control) (user : User)
    (h : other = pair ∧ user = pulse.user ∨ t.InStep other user) :
    (followPair (feed (room + 1)) pulse t pair).1.InStep other user := by
  obtain ⟨down, hstate, hmoved⟩ := moved_followPair room hwired hlists hpulse
  intro now hnow
  have hsame := pairState_moved hmoved (hwired.of_pairs hlists).1 other user
  rw [hsame] at hnow
  have hbuiltin : other.isCustom = false := by
    cases hother : (t.engine.descriptor other).pair with
    | none => simp [pairState?, hother] at hnow
    | some both => exact t.engine.vocabulary.builtin_of_pair hother
  rw [hmoved.isDown other user hbuiltin]
  split
  · -- The pair itself has gone where its components say.
    rename_i hown
    obtain ⟨rfl, huser⟩ := hown
    obtain rfl := Fin.ext huser
    exact Option.some.inj (hstate.symm.trans hnow)
  · rename_i hother
    refine (h.resolve_left ?_) now hnow
    rintro ⟨rfl, rfl⟩
    exact hother ⟨rfl, rfl⟩

/-- So once all of the pairs have followed that had to, everything is in step. -/
theorem inStep_followPairs (room : Nat) {t : Turn} {c : Control} {pulse : Pulse} (pairs : List Control)
    (hwired : t.engine.Wired) (hpulse : t.stateUser c pulse.user = pulse.user)
    (hlists : ∀ pair ∈ pairs, t.engine.board.Lists Line.pairs c pair)
    (hstep : ∀ pair user, t.engine.Heeded pair →
      pair ∈ pairs ∧ user = pulse.user ∨ t.InStep pair user) (pair : Control) (user : User)
    (hheeded : t.engine.Heeded pair) :
    (sweep (followPair (feed (room + 1)) pulse) t pairs).1.InStep pair user := by
  rw [sweep_fst]
  induction pairs generalizing t with
  | nil => exact (hstep pair user hheeded).resolve_left fun h => List.not_mem_nil h.1
  | cons first rest ih =>
    obtain ⟨hfirst, hrest⟩ := List.forall_mem_cons.mp hlists
    obtain ⟨down, -, hmoved⟩ := moved_followPair room hwired hfirst hpulse
    have hlayout := hmoved.layout
    refine ih (hwired.congr hlayout) ?_ ?_ ?_ (hheeded.congr hlayout)
    · rw [stateUser_congr hlayout]
      exact hpulse
    · exact fun other hother =>
        (lists_congr Wiring.pairs (fun _ => rfl) hlayout c other).mpr (hrest other hother)
    · intro other user hother
      rw [or_iff_not_imp_left]
      intro hleft
      refine inStep_followPair room hwired hfirst hpulse other user ?_
      rcases hstep other user (hother.congr hlayout.symm) with ⟨hmem, huser⟩ | hin
      · rcases List.mem_cons.mp hmem with rfl | hlater
        · exact .inl ⟨rfl, huser⟩
        · exact absurd ⟨hlater, huser⟩ hleft
      · exact .inr hin

/-- Once a control has moved, the pairs that it is a component of may lag behind for the user. -/
theorem inStep_mark {t : Turn} {c : Control} {line : Line} (hwired : t.engine.Wired)
    (hline : t.engine.board.line? c = some line) (hsingle : (t.engine.descriptor c).pair = none)
    (user : User) (down : Bool) {pair : Control} (hheeded : t.engine.Heeded pair) {u : User}
    (h : t.InStep pair u) : pair ∈ line.pairs ∧ u = user ∨ (t.mark c user down).InStep pair u := by
  have hmoved := moved_mark hline user down
  -- Unless it looks at the control, neither the pair nor its components have moved.
  by_cases hmem : c ∈ Switchboard.components t.engine.vocabulary pair ∧ u = user
  · obtain ⟨line', hline', hpair⟩ := (hwired.pairs c pair).mpr ⟨hmem.1, hheeded⟩
    obtain rfl := Option.some.inj (hline.symm.trans hline')
    exact .inl ⟨hpair, hmem.2⟩
  · refine .inr (h.congr hmoved.layout (fun c' hc' => ?_) fun hpair => ?_)
    · rw [hmoved.isDown c' u (Switchboard.component_builtin hc'), if_neg]
      rintro ⟨rfl, huser⟩
      exact hmem ⟨hc', (Fin.ext huser).symm⟩
    · obtain ⟨both, hboth⟩ := Option.isSome_iff_exists.mp hpair
      rw [hmoved.isDown pair u (t.engine.vocabulary.builtin_of_pair hboth), if_neg]
      rintro ⟨rfl, -⟩
      rw [hsingle] at hboth
      contradiction

/-- **A source that moves takes its pairs along**, if there is room for them. -/
theorem inStep_feed {room : Nat} (hroom : 2 ≤ room) {t : Turn} {c : Control} (pulse : Pulse)
    (hwired : t.engine.Wired) (hsingle : (t.engine.descriptor c).pair = none)
    (hstep : ∀ pair user, t.engine.Heeded pair → t.InStep pair user) (pair : Control) (user : User)
    (hheeded : t.engine.Heeded pair) : (feed room t c pulse).1.InStep pair user := by
  obtain ⟨room, rfl⟩ := Nat.exists_eq_add_of_le' hroom
  cases hcustom : c.isCustom with
  | true =>
    exact (hstep pair user hheeded).beneath
      (beneath_feed (room + 2) _ t c pulse hwired (keyed_none _) hcustom)
  | false =>
    cases hline : t.engine.board.line? c with
    | none =>
      rw [feed_none _ t c pulse hline]
      exact hstep pair user hheeded
    | some line =>
      have hchain := beneath_runChain (beneath_feed (room + 1)) c line (t.own c pulse) hwired
        (keyed_none _) (fun _ _ _ h => h.elim) False.elim
      have hlayout := hchain.layout.trans (layout_setBoard t.engine c _ _)
      refine InStep.beneath ?_
        (beneath_reviews (beneath_feed (room + 1)) hwired (keyed_none _) hline pulse)
      refine inStep_followPairs room line.pairs (hwired.congr hlayout) (stateUser_own hlayout c pulse)
        (fun pair hpair => ?_) (fun pair user hheeded => ?_) pair user (hheeded.congr hlayout)
      · exact (lists_congr Wiring.pairs (fun _ => rfl) hlayout c pair).mpr ⟨line, hline, hpair⟩
      · have hbelow := hheeded.congr hlayout.symm
        exact (inStep_mark hwired hline hsingle _ pulse.down hbelow (hstep pair user hbelow)).imp_right
          fun h => h.beneath hchain

end Turn

namespace Engine

variable {admits : Config → Prop} {e e' : Engine}

/-! ## §3 Between two operations -/

/-- All pairs that somebody listens to are where their components say. -/
def PairsInStep (e : Engine) : Prop :=
  ∀ pair user, e.Heeded pair → ({ engine := e, time := e.lastTime } : Turn).InStep pair user

theorem PairsInStep.beneath {A : Nat → Prop} (he : PairsInStep e) (h : Beneath A e e') :
    PairsInStep e' := by
  intro pair user hheeded
  have hstep := he pair user (hheeded.congr h.layout.symm)
  have hafter : ({ engine := e', time := e'.lastTime } : Turn).InStep pair user := hstep.beneath h
  exact hafter

/-- After an installation everything is up. -/
theorem pairsInStep_install (e : Engine) (config : Config) (time : Nat) :
    PairsInStep (e.install config time) := by
  rintro pair user - down hstate
  cases hpair : ((e.install config time).descriptor pair).pair with
  | none => simp [Turn.pairState?, hpair] at hstate
  | some both =>
    simp only [Turn.pairState?, hpair, isDown_install, Option.map_some, Bool.and_self, Bool.or_self,
      ite_self, Option.some.injEq] at hstate
    rw [isDown_install, hstate]

/-- The engine can come about between two operations while the host moves no pair itself. -/
inductive Attended (admits : Config → Prop) : Engine → Prop
  | start {config : Config} (hconfig : admits config) : Attended admits (ofConfig config)
  | call {e : Engine} {call : Call} (hcall : call.Admitted admits)
      (hsource : ∀ c, call.source? = some c → (e.descriptor c).pair = none) (he : Attended admits e) :
      Attended admits (e.after call)
  | timer {e : Engine} (token : TimerToken) (time : Nat) (he : Attended admits e) :
      Attended admits (e.onTimer token time)

theorem Attended.operated (he : Attended admits e) : Operated admits e := by
  induction he with
  | start hconfig => exact .start hconfig
  | call hcall _ _ ih => exact .call hcall ih
  | timer token time _ ih => exact .timer token time ih

/-- What comes after a source has moved goes on beneath the keys. -/
theorem Beneath.accept {A : Nat → Prop} {c : Control} {pulse : Pulse} {time : Nat}
    (hwired : (Turn.feed (cascadeRoom + 1) { engine := { e with lastTime := time }, time } c
      pulse).1.engine.Wired)
    (hkeyed : (Turn.feed (cascadeRoom + 1) { engine := { e with lastTime := time }, time } c
      pulse).1.engine.Keyed A) :
    Beneath A (Turn.feed (cascadeRoom + 1) { engine := { e with lastTime := time }, time } c
      pulse).1.engine (e.accept c pulse time).1 := by
  have hcommit := Beneath.commit (A := A) (Turn.feed (cascadeRoom + 1)
    { engine := { e with lastTime := time }, time } c pulse).1
  exact hcommit.trans (.duties (duties_drainQueue _ time) (hwired.congr hcommit.layout)
    (hkeyed.congr hcommit.layout))

/-- **Between two operations every pair is where its components say**, if the host moves none. -/
theorem Attended.pairsInStep (he : Attended admits e) : PairsInStep e := by
  induction he with
  | start _ => exact pairsInStep_install _ _ 0
  | @call e call hcall hsource he ih =>
    have hop := he.operated
    rcases e.after_cases call with ⟨c, pulse, time, hc, -, hafter, -⟩ | hunfeds | ⟨config, rfl⟩
    · -- The source takes its pairs along, and the rest goes on beneath the keys.
      rw [hafter]
      have hnoted : ({ e with lastTime := time } : Engine).layout = e.layout := rfl
      have hwired := hop.wired.congr hnoted
      have hfed := Turn.inStep_feed (show 2 ≤ cascadeRoom + 1 by decide)
        (t := { engine := { e with lastTime := time }, time }) pulse hwired (hsource c hc)
        fun pair user h => ih pair user (h.congr hnoted.symm)
      have hlayout := Turn.feed_layout (cascadeRoom + 1)
        { engine := { e with lastTime := time }, time } c pulse
      exact PairsInStep.beneath (fun pair user h => hfed pair user (h.congr hlayout.symm))
        (.accept (hwired.congr hlayout) (keyed_none _))
    · exact ih.beneath (.unfeds hunfeds hop.wired (keyed_none e) hop.timersKnown)
    · have hinstalled := pairsInStep_install e.freed config e.lastTime
      exact hinstalled.beneath
        (.duties (duties_reload e config) (wired_install _ _ _) (keyed_none _))
  | timer token time he ih =>
    have hop := he.operated
    exact ih.beneath (.unfeds (unfeds_onTimer _ token time) hop.wired (keyed_none _) hop.timersKnown)

end Engine

end VirtualPad
