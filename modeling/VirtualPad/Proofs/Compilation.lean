import VirtualPad.Proofs.Installation
import VirtualPad.Proofs.Stability

/-!
# What compiling guarantees

A mapping that comes out of compiling has passed every check.  What matters to the engine is that
only strengths are ever built up, as the option to add is taken off all other targets, and that the
users of the targets exist.
-/

namespace VirtualPad

namespace Verdict

variable {α β : Type}

/-- What comes out of two checks has come out of the first and gone through the second. -/
theorem value_bind {first : Verdict α} {next : α → Verdict β} {b : β}
    (h : (first >>= next).value = some b) : ∃ a, first.value = some a ∧ (next a).value = some b := by
  change (andThen first next).value = some b at h
  unfold andThen at h
  cases hfirst : first.value with
  | none =>
    rw [hfirst] at h
    contradiction
  | some a =>
    rw [hfirst] at h
    exact ⟨a, rfl, h⟩

end Verdict

namespace MappingTable

/-- Options that fit add only to what builds up. -/
theorem fitOptions_adds {index : Nat} {text : String} {target : Descriptor}
    {options fitted : MappingOptions}
    (h : (fitOptions index text target options).value = some fitted) (hadd : fitted.add = true) :
    buildsUp target = true := by
  -- Whatever becomes of the option to blink, adding is left as it is.
  have hturbo : ∀ options : MappingOptions,
      (if options.turbo && target.flags.relative then
        Verdict.report [.badOption index .turboOnMotion] { options with turbo := false }
      else pure options).value = some fitted → options.add = true := by
    intro options hfitted
    split at hfitted <;> obtain rfl := Option.some.inj hfitted <;> exact hadd
  unfold fitOptions at h
  dsimp only at h
  split at h
  · obtain ⟨kept, hkept, hfitted⟩ := Verdict.value_bind h
    obtain rfl := Option.some.inj hkept
    exact absurd (hturbo _ hfitted) (by simp)
  · rename_i hfits
    obtain ⟨kept, hkept, hfitted⟩ := Verdict.value_bind h
    obtain rfl := Option.some.inj hkept
    simpa [hturbo _ hfitted] using hfits

/-- The checks that a compiled mapping has passed. -/
structure Checked (settings : Settings) (v : Vocabulary) (m : Mapping) : Prop where
  adds : m.options.add = true → buildsUp (v.descriptor m.target) = true
  /-- The user of the target exists. -/
  targetUser (user : Nat) : m.targetUser = .index user → user < settings.users
  /-- Only one user can be the active one. -/
  oneActive : m.targetUser = .everyone →
    (v.descriptor m.target).cell ≠ .command .setActiveUser ∧
      (v.descriptor m.target).cell ≠ .command .holdActiveUser

/-- Users that do not exist leave the mapping out. -/
theorem requireUsers_mem {users index : Nat} {refs : List UserRef}
    (h : (requireUsers users index refs).value = some ()) {user : Nat}
    (hmem : UserRef.index user ∈ refs) : user < users := by
  refine Nat.lt_of_not_le fun hout => ?_
  have hfound : .userOutOfRange index (user + 1) users ∈
      refs.flatMap (userDiagnostics users index) := by
    refine List.mem_flatMap.mpr ⟨.index user, hmem, ?_⟩
    simp [userDiagnostics, hout]
  have hnonempty : (refs.flatMap (userDiagnostics users index)).isEmpty = false :=
    List.isEmpty_eq_false_iff_exists_mem.mpr ⟨_, hfound⟩
  simp [requireUsers, hnonempty] at h

/-- So does a command that would make everyone the active user. -/
theorem checkCommand_everyone {index : Nat} {target : Descriptor} {payload : Option String}
    (h : (checkCommand index target .everyone payload).value = some ()) :
    target.cell ≠ .command .setActiveUser ∧ target.cell ≠ .command .holdActiveUser := by
  unfold checkCommand at h
  constructor
  all_goals
    intro hcell
    simp only [hcell] at h
    obtain ⟨_, hrefused, -⟩ := Verdict.value_bind h
    contradiction

theorem checked_of_compile {settings : Settings} {v : Vocabulary} {index : Nat}
    {table : MappingTable} {m : Mapping} (h : (table.compile settings v index).value = some m) :
    Checked settings v m := by
  unfold compile at h
  obtain ⟨⟨source, sourceUser⟩, -, h⟩ := Verdict.value_bind h
  obtain ⟨⟨target, targetUser⟩, -, h⟩ := Verdict.value_bind h
  obtain ⟨-, -, h⟩ := Verdict.value_bind h
  obtain ⟨-, -, h⟩ := Verdict.value_bind h
  obtain ⟨-, -, h⟩ := Verdict.value_bind h
  obtain ⟨_, husers, h⟩ := Verdict.value_bind h
  obtain ⟨read, -, h⟩ := Verdict.value_bind h
  obtain ⟨options, hoptions, h⟩ := Verdict.value_bind h
  obtain ⟨_, hcommand, h⟩ := Verdict.value_bind h
  obtain ⟨conditions, -, h⟩ := Verdict.value_bind h
  obtain ⟨strength, -, h⟩ := Verdict.value_bind h
  obtain ⟨rate, -, h⟩ := Verdict.value_bind h
  obtain rfl := Option.some.inj h
  exact {
    adds := fitOptions_adds hoptions
    targetUser := fun user hindex => by
      dsimp only at hindex
      rw [hindex] at husers
      exact requireUsers_mem husers (List.mem_singleton_self _)
    oneActive := fun heveryone => by
      dsimp only at heveryone
      rw [heveryone] at hcommand
      exact checkCommand_everyone hcommand }

end MappingTable

/-- Every mapping of a compiled file comes from one of its tables. -/
theorem ConfigFile.mem_mappings_compile {file : ConfigFile} {m : Mapping}
    (hm : m ∈ file.compile.mappings) : ∃ (table : MappingTable) (index : Nat),
      (table.compile file.compile.settings file.compile.vocabulary index).value = some m := by
  obtain ⟨verdict, hverdict, hvalue⟩ := List.mem_filterMap.mp hm
  obtain ⟨⟨table, place⟩, -, rfl⟩ := List.mem_map.mp hverdict
  exact ⟨table, place + 1, hvalue⟩

theorem Config.IsCompiled.checked {config : Config} (hconfig : config.IsCompiled) {m : Mapping}
    (hm : m ∈ config.mappings) : MappingTable.Checked config.settings config.vocabulary m := by
  obtain ⟨file, rfl⟩ := hconfig
  obtain ⟨table, index, hcompiled⟩ := ConfigFile.mem_mappings_compile hm
  exact MappingTable.checked_of_compile hcompiled

/-- The mappings of a compiled configuration add only to what builds up. -/
theorem Config.IsCompiled.adds {config : Config} (hconfig : config.IsCompiled) {m : Mapping}
    (hm : m ∈ config.mappings) (hadd : m.options.add = true) :
    MappingTable.buildsUp (config.vocabulary.descriptor m.target) = true :=
  (hconfig.checked hm).adds hadd

/-- The number of users is in its range. -/
theorem Config.IsCompiled.users {config : Config} (hconfig : config.IsCompiled) :
    0 < config.settings.users ∧ config.settings.users ≤ userLimit := by
  obtain ⟨file, rfl⟩ := hconfig
  show 0 < (Settings.checkUsers _).1 ∧ (Settings.checkUsers _).1 ≤ userLimit
  unfold Settings.checkUsers
  split
  · exact ⟨Nat.lt_of_lt_of_le Nat.zero_lt_one (Nat.le_max_left _ _),
      Nat.max_le.mpr ⟨by decide, Nat.min_le_left _ _⟩⟩
  · rename_i hin
    exact ⟨Nat.pos_of_ne_zero fun hnone => hin (.inl hnone),
      Nat.le_of_not_lt fun hout => hin (.inr hout)⟩

/-- So nothing is changed when it is moved there. -/
theorem Config.IsCompiled.clampUsers {config : Config} (hconfig : config.IsCompiled) :
    clampUsers config.settings.users = config.settings.users := by
  obtain ⟨hpos, hlimit⟩ := hconfig.users
  unfold VirtualPad.clampUsers
  rw [Nat.min_eq_right hlimit, Nat.max_eq_right hpos]

namespace Engine

/-- No chore changes the layout. -/
theorem Chore.layout {e e' : Engine} (h : Chore e e') : e'.layout = e.layout := by
  cases h with
  | note | enable | label | activate | advance => rfl
  | remember id user => exact layout_mapLatch e id _

/-- What installations establish about the layout holds at all times. -/
theorem stable_of_layout {admits : Config → Prop} {P : Layout → Prop}
    (hinstall : ∀ (e : Engine) {config : Config} (time : Nat), admits config →
      P (e.install config time).layout) : Stable admits fun e => P e.layout where
  move h ht := by
    rw [h.layout]
    exact ht
  feed room := ⟨Turn.feed_layout room, fun t c pulse ht => by
    rw [Turn.feed_layout]
    exact ht⟩
  chore h he := by
    rw [h.layout]
    exact he
  force e time he := by
    have hlayout := forceReleaseAll_keeps (P := fun e' => e'.layout = e.layout)
      (fun h ht => h.layout.trans ht)
      (fun room => ⟨Turn.feed_layout room, fun t c pulse ht => (Turn.feed_layout _ t c pulse).trans ht⟩)
      (fun h he => h.layout.trans he)
      (fun e' users he => (layout_write e' e'.outputs (PadBank.count_change _ _ _)).trans he)
      e time rfl
    have hforced : P (e.forceReleaseAll time).layout := by
      rw [hlayout]
      exact he
    exact ⟨hforced, hforced⟩
  lapse _ _ _ he := by
    rw [layout_of_untimed (untimed_lapse _ _)]
    exact he
  stray _ _ he := he
  install e _ time hconfig _ := hinstall e.cancelTimers time hconfig

/-- What every mapping of a compiled configuration satisfies, every binding does, between any two
operations. -/
theorem compiled_of_operated {P : Vocabulary → Mapping → Prop}
    (hcompiled : ∀ {config : Config}, config.IsCompiled → ∀ m ∈ config.mappings,
      P config.vocabulary m) {e : Engine} (he : Operated Config.IsCompiled e) {id : Nat} {b : Binding}
    (hb : e.bindings[id]? = some b) : P e.vocabulary b.mapping := by
  have hinstall : ∀ (e : Engine) {config : Config} (time : Nat), config.IsCompiled →
      ∀ rule ∈ (e.install config time).layout.rules,
        P (e.install config time).layout.vocabulary rule.1 := by
    intro e config time hconfig rule hrule
    obtain ⟨b, hb, rfl⟩ := Array.mem_map.mp hrule
    obtain ⟨id, hb⟩ := Array.getElem?_of_mem hb
    have hm := hcompiled hconfig _ (List.mem_of_getElem? (install_binding hb).1)
    rw [← install_vocabulary e config time] at hm
    exact hm
  have hstable := (stable_of_layout (P := fun l => ∀ rule ∈ l.rules, P l.vocabulary rule.1)
    hinstall).operated (fun _ _ he => he) (fun hconfig => hinstall _ 0 hconfig) he
  exact hstable (b.mapping, b.slot) (Array.mem_map.mpr ⟨b, Array.mem_of_getElem? hb, rfl⟩)

/-- The bindings add only to what builds up. -/
theorem adds_of_operated {e : Engine} (he : Operated Config.IsCompiled e) {id : Nat} {b : Binding}
    (hb : e.bindings[id]? = some b) (hadd : b.mapping.options.add = true) :
    MappingTable.buildsUp (e.descriptor b.mapping.target) = true :=
  compiled_of_operated (P := fun v m => m.options.add = true →
    MappingTable.buildsUp (v.descriptor m.target) = true) (fun hconfig _ hm => hconfig.adds hm) he hb
    hadd

theorem adds_of_reachable {e : Engine} (he : Reachable Config.IsCompiled e) {id : Nat} {b : Binding}
    (hb : e.bindings[id]? = some b) (hadd : b.mapping.options.add = true) :
    MappingTable.buildsUp (e.descriptor b.mapping.target) = true :=
  adds_of_operated he.operated hb hadd

end Engine

end VirtualPad
