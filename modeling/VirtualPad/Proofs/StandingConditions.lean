import VirtualPad.Proofs.Conditions
import VirtualPad.Proofs.Installation
import VirtualPad.Proofs.Latches
import VirtualPad.Proofs.Stability
import VirtualPad.Proofs.Wiring

/-!
# What is in effect has its conditions

A binding that is in effect although its conditions do not hold is *stale*.  In the middle of an
event there are stale bindings: a control has moved, and those that watch it have not been reviewed.
The invariant therefore speaks of a set of bindings that may be stale.  The watchers of a control
join the set when it moves, each review takes one out again, and everything that happens in between,
however deep, leaves the set as it is.  Between two calls the set is empty.

Nobody reviews the bindings when another user becomes the active one.  So this is about
configurations whose conditions do not ask for the active user.
-/

namespace VirtualPad

/-- No condition of the configuration asks about the active user. -/
def Config.NamesUsers (c : Config) : Prop :=
  ∀ m ∈ c.mappings, ∀ t ∈ Condition.testsOf m.conditions, t.user ≠ .active

namespace Engine

/-- The binding is in effect although its conditions do not hold. -/
def Stale (e : Engine) (id : Nat) : Prop :=
  ∃ b, e.bindings[id]? = some b ∧ b.latch.active = true ∧
    b.mapping.allows e.board e.activeUser = false

/-- Every binding watches the controls that its conditions read, and they name their users. -/
def Watched (e : Engine) : Prop :=
  ∀ id b, e.bindings[id]? = some b → ∀ t ∈ Condition.testsOf b.mapping.conditions,
    e.board.Lists Line.watchers t.control id ∧ t.user ≠ .active

/-- At most these bindings are stale. -/
structure StaleWithin (S : Nat → Prop) (e : Engine) : Prop where
  watched : Watched e
  steady (id : Nat) (b : Binding) : e.bindings[id]? = some b →
    b.latch.Steady b.mapping (e.descriptor b.mapping.target)
  within (id : Nat) : Stale e id → S id

theorem Watched.congr {e e' : Engine} (he : Watched e) (hlayout : e'.layout = e.layout) :
    Watched e' := by
  intro id b' hb' t ht
  obtain ⟨b, hb, hmapping, -⟩ := binding_congr hlayout.symm hb'
  rw [← hmapping] at ht
  obtain ⟨hlists, huser⟩ := he id b hb t ht
  exact ⟨(lists_congr Wiring.watchers (fun _ => rfl) hlayout _ _).mpr hlists, huser⟩

namespace StaleWithin

variable {S : Nat → Prop} {e e' : Engine}

theorem mono {S' : Nat → Prop} (hsub : ∀ id, S id → S' id) (he : StaleWithin S e) :
    StaleWithin S' e :=
  ⟨he.watched, he.steady, fun id h => hsub id (he.within id h)⟩

/-- In the same layout and on the same board no binding becomes stale, if those that come into effect
have their conditions. -/
theorem of_latches (he : StaleWithin S e) (hlayout : e'.layout = e.layout)
    (hboard : e'.board = e.board)
    (hlatches : ∀ (id : Nat) (b b' : Binding), e.bindings[id]? = some b → e'.bindings[id]? = some b' →
      b'.latch.Steady b.mapping (e.descriptor b.mapping.target) ∧
      (b'.latch.active = true → b.latch.active = true ∨
        b.mapping.allows e.board e.activeUser = true)) :
    StaleWithin S e' := by
  refine ⟨he.watched.congr hlayout, ?_, ?_⟩
  · intro id b' hb'
    obtain ⟨b, hb, hmapping, -⟩ := binding_congr hlayout.symm hb'
    rw [← hmapping, descriptor_congr hlayout]
    exact (hlatches id b b' hb hb').1
  · rintro id ⟨b', hb', hactive, hrefused⟩
    obtain ⟨b, hb, hmapping, -⟩ := binding_congr hlayout.symm hb'
    have hsame : b.mapping.allows e.board e.activeUser = false := by
      rw [← hrefused, hboard, ← hmapping]
      exact Mapping.allows_congr fun t ht =>
        ⟨.refl _ _, fun huser => absurd huser (he.watched id b hb t ht).2⟩
    rcases (hlatches id b b' hb hb').2 hactive with hbefore | hallows
    · exact he.within id ⟨b, hb, hbefore, hsame⟩
    · rw [hsame] at hallows
      contradiction

theorem congr (he : StaleWithin S e) (hlayout : e'.layout = e.layout)
    (hboard : e'.board = e.board) (hbits : ∀ i, (e'.latch i).bits = (e.latch i).bits) :
    StaleWithin S e' := by
  refine he.of_latches hlayout hboard fun id b b' hb hb' => ?_
  have hsame := hbits id
  rw [latch_of_getElem? hb, latch_of_getElem? hb'] at hsame
  exact ⟨(he.steady id b hb).congr hsame, fun h => .inl ((Latch.active_of_bits hsame).symm.trans h)⟩

/-- A move makes no binding stale: what comes into effect has been accepted. -/
theorem move {t t' : Turn} (h : Turn.Move t t') (ht : StaleWithin S t.engine) :
    StaleWithin S t'.engine := by
  obtain ⟨hscene, hquiet | ⟨id, b, pulse, forced, hb, hreaches, latch, response, hrespond,
    hbits⟩⟩ := h.bits
  · exact ht.congr h.layout (board_of_scene hscene) hquiet.bits
  · refine ht.of_latches h.layout (board_of_scene hscene) fun i c c' hc hc' => ?_
    have hsame := hbits i
    rw [latch_of_getElem? hc, latch_of_getElem? hc'] at hsame
    by_cases hi : id = i
    · subst hi
      obtain rfl : b = c := Option.some.inj (hb.symm.trans hc)
      rw [if_pos rfl] at hsame
      obtain ⟨hsteady, hactive⟩ := (ht.steady id b hb).respond hrespond
      refine ⟨hsteady.congr hsame, fun hnow => ?_⟩
      rcases hactive ((Latch.active_of_bits hsame).symm.trans hnow) with hbefore | ⟨hdown, hfree⟩
      · exact .inl hbefore
      · right
        rcases hreaches with hforced | haccepts
        · rw [hfree] at hforced
          contradiction
        · simpa [hdown] using (Turn.accepts_iff.mp haccepts).2.2.2
    · rw [if_neg hi] at hsame
      exact ⟨(ht.steady i c hc).congr hsame,
        fun hnow => .inl ((Latch.active_of_bits hsame).symm.trans hnow)⟩

/-- A control that moves makes its watchers stale at most, and nobody if its state is not new. -/
theorem mark {t : Turn} {c : Control} {line : Line} (user : User) (down : Bool)
    (hline : t.engine.board.line? c = some line) (ht : StaleWithin S t.engine) :
    StaleWithin (fun id => S id ∨ line.moves user down = true ∧ id ∈ line.watchers)
      (t.mark c user down).engine := by
  have hlayout : (t.mark c user down).engine.layout = t.engine.layout :=
    layout_setBoard t.engine c user down
  refine ⟨ht.watched.congr hlayout, ht.steady, ?_⟩
  rintro id ⟨b, hb, hactive, hrefused⟩
  by_cases hread : line.moves user down = true ∧ id ∈ line.watchers
  · exact .inr hread
  · left
    refine ht.within id ⟨b, hb, hactive, ?_⟩
    rw [← hrefused]
    refine Mapping.allows_congr fun test htest => ⟨?_, fun _ => rfl⟩
    obtain ⟨⟨line', hline', hmem⟩, -⟩ := ht.watched id b hb test htest
    intro u
    by_cases hsame : c = test.control
    · -- The control is watched, so its state must not be new.
      subst hsame
      obtain rfl : line = line' := Option.some.inj (hline.symm.trans hline')
      have hstill : line.moves user down = false := by
        simpa [hmem] using hread
      have hin : (user : Nat) < maskWidth := Nat.lt_of_lt_of_le user.isLt (by decide)
      have hbits := Line.isDown_set_of_not_moves hin hstill u
      show t.engine.board.isDown? _ u = (t.engine.board.set _ user down).isDown? _ u ∧
        t.engine.board.isToggled? _ u = (t.engine.board.set _ user down).isToggled? _ u
      unfold Switchboard.isDown? Switchboard.isToggled?
      rw [Switchboard.line?_set, if_pos rfl, hline]
      simp [hbits]
    · have hother := t.engine.board.sameState_set_of_ne hsame user down u
      exact ⟨hother.1.symm, hother.2.symm⟩

/-- A binding that is not stale can be left out of the set. -/
theorem drop {id : Nat} (he : StaleWithin (fun i => S i ∨ i = id) e) (hfresh : ¬ Stale e id) :
    StaleWithin S e := by
  refine ⟨he.watched, he.steady, fun i hstale => ?_⟩
  rcases he.within i hstale with hin | rfl
  · exact hin
  · exact absurd hstale hfresh

/-- **A review takes a binding out of the set**: it is released if its conditions do not hold. -/
theorem review {onVar : Listener} (hvar : Turn.Keeps (StaleWithin S) onVar) {t : Turn} {id : Nat}
    (ht : StaleWithin (fun i => S i ∨ i = id) t.engine) :
    StaleWithin S (t.review onVar id).engine := by
  unfold Turn.review
  cases hb : t.engine.bindings[id]? with
  | none =>
    refine ht.drop ?_
    rintro ⟨b, hb', -⟩
    rw [hb] at hb'
    contradiction
  | some b =>
    dsimp only
    split
    · refine Turn.runBinding_keeps_of_firstStep move hvar hb (.inl rfl)
        fun latch response hrespond => ?_
      have hfirst := ht.move (.firstStep hb (.inl rfl) hrespond)
      refine hfirst.drop ?_
      rintro ⟨b', hb', hactive, -⟩
      obtain ⟨-, -, latch', response', hrespond', hbits⟩ :=
        Turn.answered_firstStep hb (.inl rfl) hrespond
      have hown := hbits id
      rw [if_pos rfl, latch_of_getElem? hb'] at hown
      rw [Latch.active_of_bits hown, (Latch.respond_forced hrespond').1] at hactive
      contradiction
    · rename_i hkept
      refine ht.drop ?_
      rintro ⟨b', hb', hactive, hrefused⟩
      obtain rfl : b = b' := Option.some.inj (hb.symm.trans hb')
      refine hkept ?_
      simp [Latch.isLatched, hactive, hrefused]

/-- Reviewing bindings one after another takes all of them out of the set. -/
theorem reviewAll {onVar : Listener} (hvar : ∀ S, Turn.Keeps (StaleWithin S) onVar)
    (ids : List Nat) {t : Turn} (ht : StaleWithin (fun i => S i ∨ i ∈ ids) t.engine) :
    StaleWithin S (ids.foldl (Turn.review onVar) t).engine := by
  induction ids generalizing t with
  | nil => exact ht.mono fun i h => h.resolve_right (by simp)
  | cons id rest ih =>
    refine ih (review (hvar _) (ht.mono fun i h => ?_))
    rcases h with hin | hmem
    · exact .inl (.inl hin)
    · rcases List.mem_cons.mp hmem with rfl | hrest
      · exact .inr rfl
      · exact .inl (.inr hrest)

/-- **A source that moves leaves nothing stale behind** that was not stale before. -/
theorem feed (room : Nat) (S : Nat → Prop) : Turn.Keeps (StaleWithin S) (Turn.feed room) := by
  induction room generalizing S with
  | zero => exact ⟨fun _ _ _ => rfl, fun _ _ _ ht => ht⟩
  | succ room ih =>
    refine ⟨Turn.feed_layout (room + 1), fun t c pulse ht => ?_⟩
    cases hline : t.engine.board.line? c with
    | none =>
      rw [Turn.feed_none _ t c pulse hline]
      exact ht
    | some line =>
      rw [Turn.feed_succ room t c pulse hline]
      dsimp only
      -- The watchers are in the set from the moment the control has moved until they are reviewed.
      have hmarked := ht.mark (t.stateUser c pulse.user) pulse.down hline
      have hrun := Turn.foldl_keeps _ (fun t' id ht' => Turn.runBinding_keeps move (ih _) t' id
        { pulse with user := t.stateUser c pulse.user } false ht') _ line.chain hmarked
      have hfollowed := Turn.foldl_keeps _ (fun t' pair ht' => Turn.followPair_keeps (ih _)
        { pulse with user := t.stateUser c pulse.user } t' pair ht') _ line.pairs hrun
      split
      · rename_i hmoves
        refine reviewAll ih line.watchers (hfollowed.mono fun i h => ?_)
        exact h.imp_right And.right
      · rename_i hstill
        refine hfollowed.mono fun i h => ?_
        exact h.resolve_right fun hread => hstill hread.1

theorem chore (h : Chore e e') (he : StaleWithin S e) : StaleWithin S e' := by
  cases h with
  | note | enable | label | activate | advance => exact he.congr rfl rfl fun _ => rfl
  | remember id user =>
    exact he.congr (layout_mapLatch e id _) rfl (latch_mapLatch_congr Latch.bits rfl)

theorem of_untimed (he : StaleWithin S e) (h : e'.untimed = e.untimed) : StaleWithin S e' := by
  have hboard : e'.untimed.board = e.untimed.board := by rw [h]
  refine he.congr (layout_of_untimed h) hboard fun i => ?_
  have hbits := congrArg (fun l : Latch => l.bits) (latch_of_untimed h i)
  exact hbits

/-- After an installation nothing is in effect, and every binding watches what it reads. -/
theorem ofInstall (e : Engine) {config : Config} (time : Nat) (hconfig : config.NamesUsers) :
    StaleWithin S (e.install config time) := by
  constructor
  · intro id b hb t ht
    have hm := (install_binding hb).1
    refine ⟨?_, hconfig _ (List.mem_of_getElem? hm) t ht⟩
    rw [install_board]
    exact ((Switchboard.wires_ofMappings _ _).watchers _ _).mpr ⟨_, hm, t, ht, rfl⟩
  · intro id b hb
    rw [(install_binding hb).2]
    exact fun _ _ => rfl
  · rintro id ⟨b, hb, hactive, -⟩
    rw [(install_binding hb).2] at hactive
    contradiction

end StaleWithin

/-- **That nothing is stale is stable.** -/
theorem standing_stable : Stable Config.NamesUsers (StaleWithin fun _ => False) where
  move := StaleWithin.move
  feed room := StaleWithin.feed room _
  chore := StaleWithin.chore
  force e time he := by
    have hforced := forceReleaseAll_keeps StaleWithin.move (fun room => StaleWithin.feed room _)
      StaleWithin.chore (fun e _ he => he.congr (layout_write e e.outputs (PadBank.count_change _ _ _))
        rfl fun _ => rfl) e time he
    exact ⟨hforced, hforced.congr rfl rfl fun _ => rfl⟩
  lapse _ _ _ he := (he.congr rfl rfl fun _ => rfl).of_untimed (untimed_lapse _ _)
  stray _ _ he := he.congr rfl rfl fun _ => rfl
  install e _ time hconfig _ := StaleWithin.ofInstall e.cancelTimers time hconfig

/-- **Whatever is in effect between two calls has its conditions**, if these do not ask for the
active user: a control that moved, at whatever depth of a cascade, has had every binding released
whose conditions it spoiled. -/
theorem conditions_stand {e : Engine} (he : Reachable Config.NamesUsers e) {id : Nat} {b : Binding}
    (hb : e.bindings[id]? = some b) (hactive : b.latch.active = true) :
    b.mapping.allows e.board e.activeUser = true := by
  have hstanding := standing_stable.reachable
    (fun hconfig => StaleWithin.ofInstall _ 0 hconfig) he
  by_contra hrefused
  exact hstanding.within id ⟨b, hb, hactive, by simpa using hrefused⟩

/-- The key A drives the key B while C is held. -/
def guardedConfig : Config :=
  Config.ofMappings {}
    [{ source := ⟨0x41⟩
       target := ⟨0x42⟩
       conditions := [Condition.pressed ⟨0x43⟩] }]

/-- The engine that drives B from A, with C and A held. -/
def guarded : Engine :=
  ((ofConfig guardedConfig).after (.input ⟨0x43⟩ 0 true 1 0)).after (.input ⟨0x41⟩ 0 true 1 1)

theorem conditions_stand_guarded :
    guardedConfig.NamesUsers ∧ ∃ b, guarded.bindings[0]? = some b ∧ b.latch.active = true ∧
      b.mapping.conditions.isEmpty = false ∧
      b.mapping.allows guarded.board guarded.activeUser = true := by
  have hnames : guardedConfig.NamesUsers := by
    simp [Config.NamesUsers, guardedConfig, Config.ofMappings, Condition.testsOf, Condition.pressed,
      Condition.tests]
  have hpress : ∀ c user time, (Call.input c user true 1 time).Admitted Config.NamesUsers :=
    fun _ _ _ => trivial
  have hstart : Reachable Config.NamesUsers (ofConfig guardedConfig) := .start hnames
  have hreachable : Reachable Config.NamesUsers guarded :=
    (hstart.call (hpress ⟨0x43⟩ 0 0)).call (hpress ⟨0x41⟩ 0 1)
  have hstate : (guarded.bindings[0]?.map fun b => (b.latch.active, b.mapping.conditions.isEmpty)) =
      some (true, false) := by
    decide +kernel
  obtain ⟨b, hb, hon⟩ := Option.map_eq_some_iff.mp hstate
  obtain ⟨hactive, hconditions⟩ := Prod.mk.inj hon
  exact ⟨hnames, b, hb, hactive, hconditions, conditions_stand hreachable hb hactive⟩

end Engine

end VirtualPad
