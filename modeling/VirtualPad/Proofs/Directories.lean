import Mathlib.Data.List.Nodup
import VirtualPad.Proofs.Conditions
import VirtualPad.Proofs.Fittings

/-!
# The board is a directory of its mappings

While the board for a configuration is built, lists grow from several places.  A mapping puts itself on
the chain of its source and among the watchers of every control that its conditions read, as often as
they read it, and a pair puts itself among the pairs of its components each time that it is listened
to.  Still nothing is on a list twice, and mappings are listed in the order of their declaration: each
of them has the highest number so far, and what is there already is not added again.

With what is known about membership this determines the lists, those of pairs up to their order.  The
board is then a *directory* of the mappings, and it stays one whatever the engine does until something
else is installed.

* `Switchboard.ordered_ofMappings`: all lists of a board are in order.
* `Switchboard.directory_ofMappings`: the board that is built for some mappings is their directory.
* `Engine.directory_in_service`: it stays their directory; conditions never ask for a control without a
  line, and depend on the lines of their own controls alone.
-/

namespace VirtualPad

/-! ## §1 Lists in order -/

/-- The numbers increase, and all of them are below `bound`. -/
structure Ascending (bound : Nat) (ids : List Nat) : Prop where
  increasing : ids.Pairwise (· < ·)
  below : ∀ id ∈ ids, id < bound

namespace Ascending

variable {bound : Nat} {ids : List Nat}

theorem nil (bound : Nat) : Ascending bound [] := ⟨.nil, by simp⟩

/-- A higher bound will do as well. -/
theorem succ (h : Ascending bound ids) : Ascending (bound + 1) ids :=
  ⟨h.increasing, fun id hid => Nat.lt_succ_of_lt (h.below id hid)⟩

/-- The first number that is not below the bound goes to the end. -/
theorem append (h : Ascending bound ids) : Ascending (bound + 1) (ids ++ [bound]) := by
  constructor
  · rw [List.pairwise_append]
    refine ⟨h.increasing, List.pairwise_singleton _ _, fun id hid last hlast => ?_⟩
    obtain rfl := List.mem_singleton.mp hlast
    exact h.below id hid
  · intro id hid
    rcases List.mem_append.mp hid with hold | hlast
    · exact Nat.lt_succ_of_lt (h.below id hold)
    · obtain rfl := List.mem_singleton.mp hlast
      exact Nat.lt_succ_self id

/-- The highest number there can be is added at the end, unless it is there already. -/
theorem withItem (h : Ascending (bound + 1) ids) :
    Ascending (bound + 1) (Switchboard.withItem ids bound) := by
  unfold Switchboard.withItem
  split
  · exact h
  · rename_i hnew
    have hnot : bound ∉ ids := by simpa using hnew
    -- What is there is not the highest number, so it is below it.
    refine append ⟨h.increasing, fun id hid => ?_⟩
    have hne : id ≠ bound := fun heq => hnot (heq ▸ hid)
    exact Nat.lt_of_le_of_ne (Nat.le_of_lt_succ (h.below id hid)) hne

end Ascending

/-- The mappings on the lists are in order and have numbers below `count`, and no pair is there
twice. -/
structure Line.Ordered (count : Nat) (l : Line) : Prop where
  chain : Ascending count l.chain
  watchers : Ascending count l.watchers
  pairs : l.pairs.Nodup

namespace Switchboard

theorem nodup_withItem {α : Type} [BEq α] [LawfulBEq α] {items : List α} (h : items.Nodup)
    (item : α) : (withItem items item).Nodup := by
  unfold withItem
  split
  · exact h
  · rename_i hnew
    have hnot : item ∉ items := by simpa using hnew
    exact h.append (List.nodup_singleton item) (List.disjoint_singleton.mpr hnot)

/-- A mapping that is connected has the highest number on all lists. -/
theorem Every.connectMapping_ordered {b : Switchboard} {count : Nat}
    (hb : b.Every (Line.Ordered count)) (v : Vocabulary) (m : Mapping) :
    (b.connectMapping v count m).Every (Line.Ordered (count + 1)) := by
  -- The chain grows once, while all numbers are below `count`; watchers may be asked for again after
  -- that, when `count` itself is among them.
  refine hb.connectMapping v count ⟨.nil _, .nil _, .nil⟩ ?_ ?_ ?_ ?_ m
  · exact fun l hl => ⟨hl.chain.succ, hl.watchers.succ, hl.pairs⟩
  · exact fun l hl => ⟨hl.chain.append, hl.watchers.succ, hl.pairs⟩
  · exact fun l hl => ⟨hl.chain, hl.watchers.withItem, hl.pairs⟩
  · exact fun l pair hl => ⟨hl.chain, hl.watchers, nodup_withItem hl.pairs pair⟩

/-- **All lists of a board are in order.** -/
theorem ordered_ofMappings (v : Vocabulary) (mappings : List Mapping) :
    (ofMappings v mappings).Every (Line.Ordered mappings.length) := by
  induction mappings using List.reverseRecOn with
  | nil =>
    intro c line hline
    rw [ofMappings_nil] at hline
    contradiction
  | append_singleton mappings m ih =>
    rw [ofMappings_append, List.length_append]
    exact ih.connectMapping_ordered v m

/-! ## §2 The directory -/

/-- A property of the lists of every line, also if there is no line. -/
theorem Every.entries {α : Type} {part : Line → List α} {b : Switchboard} {R : List α → Prop}
    (hb : b.Every fun l => R (part l)) (hnone : R []) (c : Control) : R (b.entries part c) := by
  unfold Switchboard.entries
  cases h : b.line? c with
  | none => exact hnone
  | some line => exact hb c line h

end Switchboard

/-- The control of the test has a line, and for every user the line answers the test. -/
def Test.AnsweredBy (t : Test) (b : Switchboard) : Prop :=
  ∃ line, b.line? t.control = some line ∧ ∀ user, t.holdsFor b user =
    ((if t.toggle then line.isToggled user else line.isDown user) == t.desired)

/-- The board lists each mapping and each pair where it belongs, once and in order, and nothing
else. -/
structure Switchboard.Directory (v : Vocabulary) (mappings : List Mapping) (b : Switchboard) :
    Prop where
  /-- The number of a mapping is once on the chain of its source, and on no other chain. -/
  chain (c : Control) (id : Nat) : (b.entries Line.chain c).count id =
    if mappings[id]?.map Mapping.source = some c then 1 else 0
  chain_increasing (c : Control) : (b.entries Line.chain c).Pairwise (· < ·)
  /-- A control is watched by the mappings that test it in their conditions. -/
  watchers (c : Control) (id : Nat) : id ∈ b.entries Line.watchers c ↔
    ∃ m, mappings[id]? = some m ∧ ∃ t ∈ Condition.testsOf m.conditions, t.control = c
  watchers_increasing (c : Control) : (b.entries Line.watchers c).Pairwise (· < ·)
  /-- A pair is with each of its components if it is a source or read by a condition. -/
  pairs (c pair : Control) : pair ∈ b.entries Line.pairs c ↔
    c ∈ components v pair ∧ ∃ m ∈ mappings, m.ListensTo pair
  pairs_once (c : Control) : (b.entries Line.pairs c).Nodup
  /-- Sources, controls that conditions read, variables that are driven and the components of such
  pairs have lines, and no other controls. -/
  registered (c : Control) : (b.line? c).isSome ↔ ∃ m ∈ mappings, m.NeedsLine v c
  /-- So conditions never ask for a control without a line. -/
  answered : ∀ m ∈ mappings, ∀ t ∈ Condition.testsOf m.conditions, t.AnsweredBy b

namespace Switchboard

/-- A control that some mapping tests has a line, and the line answers the test. -/
theorem answeredBy_of_registered {v : Vocabulary} {mappings : List Mapping} {b : Switchboard}
    (hregistered : ∀ c, (b.line? c).isSome ↔ ∃ m ∈ mappings, m.NeedsLine v c) {m : Mapping}
    (hm : m ∈ mappings) {t : Test} (ht : t ∈ Condition.testsOf m.conditions) : t.AnsweredBy b := by
  have hneeds : m.NeedsLine v t.control := .inl (.inr ⟨t, ht, rfl⟩)
  obtain ⟨line, hline⟩ := Option.isSome_iff_exists.mp ((hregistered t.control).mpr ⟨m, hm, hneeds⟩)
  exact ⟨line, hline, Test.holdsFor_of_line hline⟩

/-- The board that is built for some mappings is their directory. -/
theorem directory_ofMappings (v : Vocabulary) (mappings : List Mapping) :
    (ofMappings v mappings).Directory v mappings := by
  have hwires := wires_ofMappings v mappings
  have hordered := ordered_ofMappings v mappings
  have hincreasing : ∀ c, ((ofMappings v mappings).entries Line.chain c).Pairwise (· < ·) :=
    Every.entries (fun c l hl => (hordered c l hl).chain.increasing) .nil
  refine ⟨fun c id => ?_, hincreasing, fun c id => ?_, ?_, fun c pair => ?_, ?_,
    isSome_ofMappings v mappings, fun m hm t ht => ?_⟩
  · -- Numbers that increase are there once, if they are there.
    have honce : ((ofMappings v mappings).entries Line.chain c).Nodup :=
      (hincreasing c).imp Nat.ne_of_lt
    have hmem : id ∈ (ofMappings v mappings).entries Line.chain c ↔
        mappings[id]?.map Mapping.source = some c := by
      rw [mem_entries, hwires.chain, Option.map_eq_some_iff]
    rw [honce.count]
    exact if_congr hmem rfl rfl
  · rw [mem_entries, hwires.watchers]
  · exact Every.entries (fun c l hl => (hordered c l hl).watchers.increasing) .nil
  · rw [mem_entries, hwires.pairs]
  · exact Every.entries (fun c l hl => (hordered c l hl).pairs) .nil
  · exact answeredBy_of_registered (isSome_ofMappings v mappings) hm ht

/-- Whatever is pressed or released, a directory stays one. -/
theorem Directory.congr {v : Vocabulary} {mappings : List Mapping} {b b' : Switchboard}
    (hb : b.Directory v mappings)
    (hwiring : ∀ c, (b'.line? c).map Line.wiring = (b.line? c).map Line.wiring) :
    b'.Directory v mappings := by
  have hchain : ∀ c, b'.entries Line.chain c = b.entries Line.chain c :=
    fun c => entries_congr Wiring.chain (fun _ => rfl) (hwiring c)
  have hwatchers : ∀ c, b'.entries Line.watchers c = b.entries Line.watchers c :=
    fun c => entries_congr Wiring.watchers (fun _ => rfl) (hwiring c)
  have hpairs : ∀ c, b'.entries Line.pairs c = b.entries Line.pairs c :=
    fun c => entries_congr Wiring.pairs (fun _ => rfl) (hwiring c)
  have hregistered : ∀ c, (b'.line? c).isSome ↔ ∃ m ∈ mappings, m.NeedsLine v c := by
    intro c
    rw [← Option.isSome_map, hwiring, Option.isSome_map, hb.registered]
  -- The lists are what they were; what a line answers is asked of the new board.
  constructor
  · simpa only [hchain] using hb.chain
  · simpa only [hchain] using hb.chain_increasing
  · simpa only [hwatchers] using hb.watchers
  · simpa only [hwatchers] using hb.watchers_increasing
  · simpa only [hpairs] using hb.pairs
  · simpa only [hpairs] using hb.pairs_once
  · exact hregistered
  · exact fun m hm t ht => answeredBy_of_registered hregistered hm ht

/-- However often a pair is listened to, its components list it once. -/
example :
    let b := ofMappings {}
      [{ source := ⟨0x41⟩
         target := ⟨0x42⟩
         conditions := [.pressed ⟨0x10⟩, .any [.released ⟨0x10⟩, .pressed ⟨0x41⟩]] },
       { source := ⟨0x10⟩, target := ⟨0x43⟩ }]
    b.entries Line.chain ⟨0x10⟩ = [1] ∧ b.entries Line.watchers ⟨0x10⟩ = [0] ∧
      b.entries Line.pairs ⟨0xA0⟩ = [⟨0x10⟩] := by
  decide +kernel

end Switchboard

/-! ## §3 In service -/

namespace Engine

/-- What an engine can be like until something else is installed: between two deeds, or in the middle
of a turn. -/
inductive InService (e : Engine) : Engine → Prop
  | between {e' : Engine} (h : Deeds e e') : InService e e'
  | within {e' : Engine} (h : Deeds e e') (lastTime time : Nat) {t : Turn}
      (hsteps : Turn.Steps { engine := { e' with lastTime }, time } t) : InService e t.engine

theorem InService.layout {e e' : Engine} (h : InService e e') : e'.layout = e.layout := by
  cases h with
  | between h => exact h.layout
  | within h lastTime time hsteps => exact hsteps.layout.trans h.layout

/-- **The board of a configuration is the directory of its mappings**, from the installation on and as
long as the configuration is in service.  What the conditions of a mapping say depends on the active
user and on the state of the controls that they read, and on nothing else of the board. -/
theorem directory_in_service (e : Engine) (config : Config) (time : Nat) :
    (e.install config time).board.Directory config.vocabulary config.mappings ∧
    (∀ e', InService (e.install config time) e' →
      e'.bindings.toList.map Binding.mapping = config.mappings ∧
        e'.board.Directory config.vocabulary config.mappings) ∧
    ∀ (m : Mapping) (b b' : Switchboard) (active : Nat),
      (∀ c ∈ Condition.controlsOf m.conditions, b.SameState b' c) →
      m.allows b active = m.allows b' active := by
  have hinstalled : (e.install config time).board.Directory config.vocabulary config.mappings := by
    rw [install_board]
    exact Switchboard.directory_ofMappings config.vocabulary config.mappings
  refine ⟨hinstalled, fun e' he' => ⟨?_, ?_⟩, fun m b b' active hsame => ?_⟩
  · rw [mappings_congr he'.layout, install_mappings]
  · exact hinstalled.congr (wiring_congr he'.layout)
  · exact Mapping.allows_congr fun t ht =>
      ⟨hsame t.control (Condition.mem_controlsOf.mpr ⟨t, ht, rfl⟩), fun _ => rfl⟩

end Engine

end VirtualPad
