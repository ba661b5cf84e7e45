import VirtualPad.Proofs.Frames

/-!
# What installing a configuration leaves

After a configuration has been installed there is one binding for each of its mappings, in their
order, and every latch is at rest.  Nothing of the timers but the table is touched: the clock is
still the one of the engine before, and so is the last token.
-/

namespace VirtualPad

namespace PadBank

theorem count_claim (b : PadBank) (users : List User) (cell : PadCell) (slot : Slot) :
    (b.claim users cell slot).count = b.count := by
  unfold claim
  induction users generalizing b with
  | nil => rfl
  | cons user rest ih => exact ih _

end PadBank

/-- Committing a turn touches the records of the pads, what waits, and the journal. -/
theorem Turn.commit_frame (t : Turn) :
    ∃ pads queue remainder snapshots events,
      t.commit = { t.engine with
        pads, queue, remainder, journal := { t.engine.journal with snapshots, events } } ∧
      pads.count = t.engine.pads.count := by
  have hpads : ∃ pads snapshots, t.changed.foldl (Turn.commitPad t.time) t.engine =
      { t.engine with pads, journal := { t.engine.journal with snapshots } } ∧
      pads.count = t.engine.pads.count := by
    generalize t.changed = users
    generalize t.engine = e
    induction users generalizing e with
    | nil => exact ⟨e.pads, e.journal.snapshots, rfl, rfl⟩
    | cons user rest ih =>
      obtain ⟨pads, snapshots, hengine, hcount⟩ := ih (Turn.commitPad t.time e user)
      exact ⟨pads, snapshots, hengine, hcount⟩
  obtain ⟨pads, snapshots, hengine, hcount⟩ := hpads
  unfold Turn.commit
  dsimp only
  rw [hengine]
  split
  · exact ⟨pads, _, _, snapshots, _, rfl, hcount⟩
  · exact ⟨pads, _, t.engine.remainder, snapshots, _, rfl, hcount⟩

namespace Engine

/-- Binding a mapping adds a binding at rest and gives slots away. -/
theorem bind_frame (e : Engine) (m : Mapping) :
    ∃ pads outputs slot, e.bind m =
      { e with bindings := e.bindings.push { mapping := m, slot }, pads, outputs } ∧
      pads.count = e.pads.count := by
  simp only [bind, claimSlot]
  split
  · split
    · exact ⟨e.pads, e.outputs, none, rfl, rfl⟩
    · exact ⟨_, e.outputs, _, rfl, PadBank.count_claim _ _ _ _⟩
  · split
    · exact ⟨e.pads, _, none, rfl, rfl⟩
    · exact ⟨e.pads, _, _, rfl, rfl⟩
  · exact ⟨e.pads, e.outputs, none, rfl, rfl⟩

/-- Binding mappings one after another adds bindings at rest, in the order of the mappings. -/
theorem bindAll_frame (mappings : List Mapping) (e : Engine) :
    ∃ bindings pads outputs, mappings.foldl bind e = { e with bindings, pads, outputs } ∧
      pads.count = e.pads.count ∧
      bindings.toList.map Binding.mapping = e.bindings.toList.map Binding.mapping ++ mappings ∧
      ∀ b ∈ bindings, b ∈ e.bindings ∨ b.latch = {} := by
  induction mappings generalizing e with
  | nil => exact ⟨e.bindings, e.pads, e.outputs, rfl, rfl, by simp, fun b hb => .inl hb⟩
  | cons m rest ih =>
    obtain ⟨pads, outputs, slot, hbind, hcount⟩ := bind_frame e m
    obtain ⟨bindings, pads', outputs', hrest, hcount', hmappings, hlatches⟩ := ih (e.bind m)
    refine ⟨bindings, pads', outputs', ?_, ?_, ?_, ?_⟩
    · rw [List.foldl_cons, hrest, hbind]
    · rw [hcount', hbind]
      exact hcount
    · rw [hmappings, hbind]
      simp
    · intro b hb
      rcases hlatches b hb with hold | hrest
      · rw [hbind] at hold
        rcases Array.mem_push.mp hold with hold | rfl
        · exact .inl hold
        · exact .inr rfl
      · exact .inr hrest

/-- Resetting the pads touches nothing but the pads. -/
theorem resetPads_frame (config : Config) (t : Turn) :
    ∃ pads, (resetPads config t).engine = t.engine.write pads t.engine.outputs ∧
      pads.count = t.engine.pads.count := by
  unfold resetPads
  generalize List.finRange userLimit = users
  induction users generalizing t with
  | nil => exact ⟨t.engine.pads, rfl, rfl⟩
  | cons user rest ih =>
    rw [List.foldl_cons]
    obtain ⟨pads, hengine, hcount⟩ := ih _
    refine ⟨pads, hengine.trans ?_, hcount.trans ?_⟩
    · rw [Turn.engine_updatePad]
      rfl
    · rw [Turn.engine_updatePad]
      rfl

/-- Resetting the pads leaves alone whatever no change of a pad touches. -/
theorem resetPads_same {α : Type} {part : Turn → α}
    (hpart : ∀ t user change, part (t.updatePad user change) = part t) (config : Config)
    (t : Turn) : part (resetPads config t) = part t := by
  unfold resetPads
  generalize List.finRange userLimit = users
  induction users generalizing t with
  | nil => rfl
  | cons user rest ih => exact (ih _).trans (hpart t user _)

/-- Before the first mapping is bound the engine is vacated, its pads are reset and the host has heard
of it. -/
theorem reset_frame (e : Engine) (config : Config) (time : Nat) :
    ∃ pads queue remainder snapshots events,
      (e.vacate config).inTurn time (resetPads config) = { e.vacate config with
        pads, queue, remainder
        journal := { e.journal with snapshots, events } } ∧
      pads.count = clampUsers config.settings.users := by
  obtain ⟨pads, hreset, hcount⟩ := resetPads_frame config { engine := e.vacate config, time }
  obtain ⟨pads', queue, remainder, snapshots, events, hcommit, hcount'⟩ :=
    Turn.commit_frame (resetPads config { engine := e.vacate config, time })
  refine ⟨pads', queue, remainder, snapshots, events, ?_, ?_⟩
  · unfold inTurn
    rw [hcommit, hreset]
    rfl
  · rw [hcount', hreset]
    exact hcount

/-- **Installing a configuration** puts a new layout in place and touches neither the clock nor the
last token. -/
theorem install_frame (e : Engine) (config : Config) (time : Nat) :
    ∃ bindings outputs pads queue remainder snapshots events,
      e.install config time = { e.vacate config with
        bindings, outputs, pads, queue, remainder
        journal := { e.journal with snapshots, events } } ∧
      pads.count = clampUsers config.settings.users ∧
      bindings.toList.map Binding.mapping = config.mappings ∧ ∀ b ∈ bindings, b.latch = {} := by
  obtain ⟨pads, queue, remainder, snapshots, events, hturn, hcount⟩ := reset_frame e config time
  obtain ⟨bindings, pads', outputs, hbind, hcount', hmappings, hlatches⟩ :=
    bindAll_frame config.mappings ((e.vacate config).inTurn time (resetPads config))
  refine ⟨bindings, outputs, pads', queue, remainder, snapshots, events, ?_, ?_, ?_, ?_⟩
  · unfold install
    rw [hbind, hturn]
  · rw [hcount', hturn]
    exact hcount
  · rw [hmappings, hturn]
    rfl
  · intro b hb
    rcases hlatches b hb with hold | hrest
    · rw [hturn] at hold
      simp [vacate] at hold
    · exact hrest

/-- After an installation the bindings stand for the mappings of the configuration, in order. -/
theorem install_mappings (e : Engine) (config : Config) (time : Nat) :
    (e.install config time).bindings.toList.map Binding.mapping = config.mappings := by
  obtain ⟨bindings, outputs, pads, queue, remainder, snapshots, events, hinstall, -, hmappings, -⟩ :=
    install_frame e config time
  rw [hinstall]
  exact hmappings

/-- Each binding stands for the mapping in its place, and is at rest. -/
theorem install_binding {e : Engine} {config : Config} {time id : Nat} {b : Binding}
    (hb : (e.install config time).bindings[id]? = some b) :
    config.mappings[id]? = some b.mapping ∧ b.latch = {} := by
  constructor
  · rw [← install_mappings e config time]
    simp [hb]
  · obtain ⟨bindings, outputs, pads, queue, remainder, snapshots, events, hinstall, -, -, hrest⟩ :=
      install_frame e config time
    rw [hinstall] at hb
    exact hrest b (Array.mem_of_getElem? hb)

theorem exists_install_binding (e : Engine) {config : Config} (time : Nat) {id : Nat} {m : Mapping}
    (hm : config.mappings[id]? = some m) :
    ∃ b, (e.install config time).bindings[id]? = some b ∧ b.mapping = m := by
  rw [← install_mappings e config time, List.getElem?_map, Option.map_eq_some_iff] at hm
  simpa using hm

theorem install_latch (e : Engine) (config : Config) (time id : Nat) :
    (e.install config time).latch id = {} := by
  cases hb : (e.install config time).bindings[id]? with
  | none =>
    unfold latch
    rw [hb]
  | some b =>
    rw [latch_of_getElem? hb]
    exact (install_binding hb).2

theorem size_install (e : Engine) (config : Config) (time : Nat) :
    (e.install config time).bindings.size = config.mappings.length := by
  simpa using congrArg List.length (install_mappings e config time)

theorem count_install (e : Engine) (config : Config) (time : Nat) :
    (e.install config time).userCount = clampUsers config.settings.users := by
  obtain ⟨bindings, outputs, pads, queue, remainder, snapshots, events, hinstall, hcount, -⟩ :=
    install_frame e config time
  rw [hinstall]
  exact hcount

theorem install_disabled (e : Engine) (config : Config) (time : Nat) :
    (e.install config time).disabled = false := by
  obtain ⟨bindings, outputs, pads, queue, remainder, snapshots, events, hinstall, -⟩ :=
    install_frame e config time
  rw [hinstall]
  rfl

theorem install_vocabulary (e : Engine) (config : Config) (time : Nat) :
    (e.install config time).vocabulary = config.vocabulary := by
  obtain ⟨bindings, outputs, pads, queue, remainder, snapshots, events, hinstall, -⟩ :=
    install_frame e config time
  rw [hinstall]
  rfl

theorem install_descriptor (e : Engine) (config : Config) (time : Nat) (c : Control) :
    (e.install config time).descriptor c = config.vocabulary.descriptor c := by
  unfold descriptor
  rw [install_vocabulary]

theorem install_board (e : Engine) (config : Config) (time : Nat) :
    (e.install config time).board = Switchboard.ofMappings config.vocabulary config.mappings := by
  obtain ⟨bindings, outputs, pads, queue, remainder, snapshots, events, hinstall, -⟩ :=
    install_frame e config time
  rw [hinstall]
  rfl

end Engine

end VirtualPad
