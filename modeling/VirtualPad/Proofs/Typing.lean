import VirtualPad.Proofs.Bystanders
import VirtualPad.Proofs.KeyEdges
import VirtualPad.Proofs.Phases
import VirtualPad.Proofs.SlotOwners

/-!
# What a binding types

A binding that has a key of the keyboard to itself decides alone what the host is told about that key.
Whatever else happens in a turn leaves the key, the binding and its timer alone: only an answer of the
binding itself presses the key, sends it again or lets go of it, and starts or stops its timer.

A `Tally` says how things stand with such a key, and `Tally.Answers` how they go on with the answers
that the binding gives.  `Turn.keyed_answer` shows that an answer of the engine is one of those.
-/

namespace VirtualPad

/-! ## §1 Answers -/

/-- How things stand with the key of a binding: what the host has been told about it, whether the
binding is in effect, and the timer it has. -/
structure Tally where
  told : List Bool
  active : Bool
  timer : Option (TimerToken × TimerKind)

namespace Tally

/-- What an answer makes of it, be it to a press or to another pulse.  Tokens are given out later than
that one. -/
inductive Answer (last : TimerToken) : Bool → Tally → Tally → Prop
  | same (press : Bool) (s : Tally) : Answer last press s s
  | ended (press : Bool) {s : Tally} (hdown : s.active = true) :
      Answer last press s ⟨s.told ++ [false], false, none⟩
  | again {s : Tally} (hdown : s.active = true) : Answer last true s ⟨s.told ++ [true], true, s.timer⟩
  | begun {s : Tally} (hup : s.active = false) {token : TimerToken} (hfresh : last < token) :
      Answer last true s ⟨s.told ++ [true], true, some (token, .keyRepeatDelay)⟩

/-- What a series of answers makes of it, the latest first. -/
inductive Answers (last : TimerToken) : List Bool → Tally → Tally → Prop
  | nil (s : Tally) : Answers last [] s s
  | cons {presses : List Bool} {press : Bool} {s s' s'' : Tally} (h : Answers last presses s s')
      (hlast : Answer last press s' s'') : Answers last (press :: presses) s s''

variable {last : TimerToken} {presses : List Bool} {s s' : Tally}

/-- Without a press the binding lets go of its key at most. -/
theorem Answers.unpressed (h : Answers last presses s s') (hquiet : presses.count true = 0) :
    s' = s ∨ s.active = true ∧ s' = ⟨s.told ++ [false], false, none⟩ := by
  induction h with
  | nil s => exact .inl rfl
  | @cons presses press s s' s'' _ hlast ih =>
    obtain ⟨hpress, hrest⟩ : press ≠ true ∧ presses.count true = 0 := by
      rw [List.count_cons] at hquiet
      split at hquiet
      · omega
      · rename_i hpress
        exact ⟨by simpa using hpress, by omega⟩
    have hbefore := ih hrest
    cases hlast with
    | same => exact hbefore
    | ended press hdown =>
      obtain rfl | ⟨-, rfl⟩ := hbefore
      · exact .inr ⟨hdown, rfl⟩
      · contradiction
    | again | begun => exact absurd rfl hpress

/-- A single press that puts the binding into effect is told as one press of the key, and starts the
delay before it repeats. -/
theorem Answers.pressed (h : Answers last presses s s') (hup : s.active = false)
    (honce : presses.count true = 1) (hdown : s'.active = true) :
    ∃ token, last < token ∧ s' = ⟨s.told ++ [true], true, some (token, .keyRepeatDelay)⟩ := by
  induction h with
  | nil s => exact absurd hup (by rw [hdown]; exact Bool.noConfusion)
  | @cons presses press s s' s'' hbefore hlast ih =>
    have hsame : press = true → s' = s := by
      intro hpress
      have hrest : presses.count true = 0 := by
        rw [hpress, List.count_cons_self] at honce
        omega
      refine (hbefore.unpressed hrest).resolve_right fun hended => ?_
      rw [hup] at hended
      exact absurd hended.1 Bool.false_ne_true
    cases hlast with
    | same press =>
      cases press with
      | false => exact ih hup (by simpa using honce) hdown
      | true =>
        rw [hsame rfl, hup] at hdown
        contradiction
    | ended => contradiction
    | again hheld =>
      rw [hsame rfl, hup] at hheld
      contradiction
    | begun _ hfresh => exact ⟨_, hfresh, by rw [hsame rfl]⟩

/-- A single answer that ends the binding is told as one release of the key. -/
theorem Answers.released (h : Answers last presses s s') (honce : presses.length = 1)
    (hdown : s.active = true) (hup : s'.active = false) : s' = ⟨s.told ++ [false], false, none⟩ := by
  cases h with
  | nil => contradiction
  | cons hnone hlast =>
    cases hnone with
    | cons => simp at honce
    | nil =>
      cases hlast with
      | same =>
        rw [hdown] at hup
        contradiction
      | ended => rfl
      | again | begun => contradiction

end Tally

/-- The answers of a binding, each whether it was one to a press. -/
def answersOf (id : Nat) (history : List Heard) : List Bool :=
  (history.filter fun h => h.id == id).map Heard.press

theorem answersOf_cons (id : Nat) (h : Heard) (history : List Heard) :
    answersOf id (h :: history) =
      if h.id = id then h.press :: answersOf id history else answersOf id history := by
  unfold answersOf
  rw [List.filter_cons]
  by_cases hid : h.id = id
  · rw [if_pos hid, if_pos (by simpa using hid), List.map_cons]
  · rw [if_neg hid, if_neg (by simpa using hid)]

theorem answersOf_append (id : Nat) (more history : List Heard) :
    answersOf id (more ++ history) = answersOf id more ++ answersOf id history := by
  unfold answersOf
  rw [List.filter_append, List.map_append]

/-! ## §2 A binding with a key of its own -/

theorem Descriptor.repeatable_ofNumber {n : Nat} (hkey : (ofNumber n).cell = .output .keyboard) :
    (ofNumber n).flags.repeatable = true := by
  unfold ofNumber at hkey ⊢
  split at hkey
  · contradiction
  · rename_i hbutton
    rw [dif_neg hbutton]
    split at hkey
    all_goals first
      | rfl
      | contradiction
      | (split at hkey
         · rename_i hsmall
           rw [if_pos hsmall]
           rfl
         · split at hkey <;> contradiction)

/-- The keys of the keyboard repeat. -/
theorem Vocabulary.repeatable_of_keyboard (v : Vocabulary) {c : Control}
    (hkey : (v.descriptor c).cell = .output .keyboard) : (v.descriptor c).flags.repeatable = true := by
  rcases v.descriptor_cases c with ⟨-, h | ⟨kind, h⟩⟩ | ⟨-, h | h⟩
  · rw [h] at hkey
    contradiction
  · rw [h] at hkey
    cases kind <;> contradiction
  · rw [h] at hkey
    contradiction
  · rw [h] at hkey ⊢
    exact Descriptor.repeatable_ofNumber hkey

namespace Engine

variable {e e' : Engine} {k : Control} {id : Nat} {b : Binding}

/-- The binding types a key that no other binding has for its target, and repeats it: its source does
not move, and is held without being sent again, or switches the binding. -/
structure TypesAlone (e : Engine) (id : Nat) (b : Binding) : Prop where
  keyboard : (e.descriptor b.mapping.target).cell = .output .keyboard
  alone (i : Nat) (c : Binding) : e.bindings[i]? = some c → c.mapping.target = b.mapping.target → i = id
  resting : (e.descriptor b.mapping.source).flags.relative = false
  unrepeated : (e.descriptor b.mapping.source).flags.repeatable = false ∨ b.mapping.options.toggle = true
  plain : b.mapping.options.turbo = false

theorem TypesAlone.congr (h : e.TypesAlone id b) (hlayout : e'.layout = e.layout) {b' : Binding}
    (hmapping : b'.mapping = b.mapping) : e'.TypesAlone id b' := by
  constructor
  · rw [hmapping, descriptor_congr hlayout]
    exact h.keyboard
  · intro i c' hc' htarget
    obtain ⟨c, hc, hsame, -⟩ := binding_congr hlayout.symm hc'
    exact h.alone i c hc (by rw [hsame, htarget, hmapping])
  · rw [hmapping, descriptor_congr hlayout]
    exact h.resting
  · rw [hmapping, descriptor_congr hlayout]
    exact h.unrepeated
  · rw [hmapping]
    exact h.plain

/-- A key that is pressed repeats after a delay, and while it is held the timer is left alone. -/
theorem TypesAlone.timerPlan (h : e.TypesAlone id b) (hadd : b.mapping.options.add = false)
    (settings : Settings) (was : Bool) :
    b.mapping.timerPlan (e.descriptor b.mapping.source) (e.descriptor b.mapping.target) settings was true =
      if was then .keep else .once settings.keyRepeatDelay .keyRepeatDelay := by
  have hneeds : (e.descriptor b.mapping.target).needsSlot = true := by
    rw [Descriptor.needsSlot, h.keyboard]
  have hstill : (e.descriptor b.mapping.target).flags.relative = false :=
    Vocabulary.relative_of_needsSlot _ hneeds
  have hrepeats : (e.descriptor b.mapping.target).flags.repeatable = true :=
    Vocabulary.repeatable_of_keyboard _ h.keyboard
  have hheld : (!(e.descriptor b.mapping.source).flags.repeatable || b.mapping.options.toggle) = true := by
    rcases h.unrepeated with hsource | htoggle
    · rw [hsource]
      rfl
    · rw [htoggle, Bool.or_true]
  simp only [Mapping.timerPlan, h.plain, h.keyboard, h.resting, hstill, hadd, hrepeats, hheld,
    Bool.not_true, Bool.false_and, Bool.or_self, Bool.and_false, Bool.and_self, Bool.false_eq_true,
    if_false, if_true]

/-- The binding of that number types that key, and nothing builds up that cannot. -/
structure HasTypist (id : Nat) (k : Control) (e : Engine) : Prop where
  rule : ∃ b, e.bindings[id]? = some b ∧ b.mapping.target = k ∧ e.TypesAlone id b
  adds (i : Nat) (c : Binding) : e.bindings[i]? = some c → c.mapping.options.add = true →
    MappingTable.buildsUp (e.descriptor c.mapping.target) = true

theorem HasTypist.congr (he : HasTypist id k e) (hlayout : e'.layout = e.layout) : HasTypist id k e' where
  rule := by
    obtain ⟨b, hb, htarget, hrule⟩ := he.rule
    obtain ⟨b', hb', hmapping, -⟩ := binding_congr hlayout hb
    exact ⟨b', hb', by rw [hmapping, htarget], hrule.congr hlayout hmapping⟩
  adds i c' hc' hadd := by
    obtain ⟨c, hc, hmapping, -⟩ := binding_congr hlayout.symm hc'
    rw [← hmapping, descriptor_congr hlayout]
    exact he.adds i c hc (by rw [hmapping, hadd])

/-- A binding with a key of its own, in an engine whose slots and timers are in order. -/
structure Typist (id : Nat) (k : Control) (e : Engine) : Prop extends HasTypist id k e where
  mirrored : Mirrored e
  agree : TimersAgree e
  equipped : OnlyEquipped e

namespace Typist

/-- What is stable is kept, and the layout stays. -/
theorem of_kept (he : Typist id k e) (hlayout : e'.layout = e.layout)
    (h : ∀ P : Engine → Prop, (KeptInTurns fun _ => P) → P e → P e') : Typist id k e' where
  toHasTypist := he.toHasTypist.congr hlayout
  mirrored := h Mirrored (mirrored_stable fun _ => True).along.toKeptInTurns he.mirrored
  agree := h TimersAgree (timersAgree_stable fun _ => True).along.toKeptInTurns he.agree
  equipped := h OnlyEquipped (OnlyEquipped.stable fun _ => True).along.toKeptInTurns he.equipped

theorem move {t t' : Turn} (ht : Typist id k t.engine) (h : Turn.Move t t') : Typist id k t'.engine where
  toHasTypist := ht.toHasTypist.congr h.layout
  mirrored := ht.mirrored.move h
  agree := ht.agree.move h
  equipped := ht.equipped.move h

/-- No other binding has the key for its target. -/
theorem spares {t : Turn} (ht : Typist id k t.engine) {i : Nat} (hi : i ≠ id) : t.SparesKey i k := by
  obtain ⟨b, -, rfl, hrule⟩ := ht.rule
  exact fun c hc htarget => hi (hrule.alone i c hc htarget)

/-- The key is down just as long as the binding is in effect. -/
theorem keyHeld (he : Typist id k e) : e.keyHeld k = (e.latch id).active := by
  obtain ⟨b, hb, rfl, hrule⟩ := he.rule
  have hmirrors := he.mirrored.mirrors
  obtain ⟨cell, hcell⟩ := Option.isSome_iff_exists.mp
    ((hmirrors.keeping id b hb).present .keyboard hrule.keyboard)
  have hpressed := hmirrors.outputs_pressed he.adds hcell
  have htold : Cell.isTold (e.descriptor b.mapping.target).cell = true := by
    rw [hrule.keyboard]
    rfl
  rw [Engine.keyHeld, htold, hcell, latch_of_getElem? hb, Bool.true_and, Option.map_some,
    Option.getD_some, Bool.eq_iff_iff, hpressed]
  constructor
  · rintro ⟨i, c, kind, hc, -, htarget, -, hactive, -⟩
    obtain rfl := hrule.alone i c hc htarget
    rwa [Option.some.inj (hb.symm.trans hc)]
  · intro hactive
    have hneeds : (e.descriptor b.mapping.target).needsSlot = true := by
      rw [Descriptor.needsSlot, hrule.keyboard]
    have hslot := he.equipped.within id ((congrArg Latch.active (latch_of_getElem? hb)).trans hactive)
      b hb hneeds
    exact ⟨id, b, .keyboard, hb, hslot, rfl, hrule.keyboard, hactive, fun hturbo => by
      rw [hrule.plain] at hturbo
      contradiction⟩

end Typist

end Engine

namespace Turn

open Engine

variable {t t' : Turn} {k : Control} {id : Nat} {b : Binding} {source target : Descriptor}
  {r : Response}

/-- Writing the contribution of a binding to its key tells of the change, and of every press. -/
theorem told_writeTarget_key {t : Turn} (hb : t.engine.bindings[id]? = some b)
    (hkey : (t.targetOf b).cell = .output .keyboard) (source : Descriptor) (down : Bool)
    (strength : Float) :
    let t' := (t.writeTarget id source (t.targetOf b) down strength).1
    t'.told b.mapping.target = t.told b.mapping.target ++
      if b.slot.isSome = true ∧ (t'.engine.keyHeld b.mapping.target ≠ t.engine.keyHeld b.mapping.target ∨
        down = true ∧ t'.engine.keyHeld b.mapping.target = true) then
        [t'.engine.keyHeld b.mapping.target] else [] := by
  intro t'
  cases hslot : b.slot with
  | none =>
    have hsame : t' = t := by
      show (t.writeTarget id source (t.targetOf b) down strength).1 = t
      simp only [writeTarget, hb, hkey, hslot]
    simp [hsame]
  | some slot =>
    have hwritten : t' = (t.writeOutput .keyboard b.mapping.target slot down
        b.mapping.options.replace).1 := by
      show (t.writeTarget id source (t.targetOf b) down strength).1 = _
      simp only [writeTarget, hb, hkey, hslot]
    rw [hwritten, told_writeOutput t hkey slot down b.mapping.options.replace]
    simp only [Option.isSome_some, true_and]

/-- Doing what a response asks for does no more than that. -/
theorem told_perform_key {t : Turn} (hb : t.engine.bindings[id]? = some b)
    (hkey : (t.targetOf b).cell = .output .keyboard) (hplain : b.mapping.options.turbo = false)
    (hemits : r.emits = true) (source : Descriptor) (user : User) (forced : Bool) :
    let t' := (t.perform id b.mapping source (t.targetOf b) user r forced).1
    t'.told b.mapping.target = t.told b.mapping.target ++
      if b.slot.isSome = true ∧ (t'.engine.keyHeld b.mapping.target ≠ t.engine.keyHeld b.mapping.target ∨
        r.now = true ∧ t'.engine.keyHeld b.mapping.target = true) then
        [t'.engine.keyHeld b.mapping.target] else [] := by
  intro t'
  -- The binding settles on its users and remembers the strength, which are nothing to the key.
  obtain ⟨set, hperform, htold, houtputs, hlayout⟩ : ∃ set : Turn,
      t' = (set.writeTarget id source (t.targetOf b) r.now r.strength).1 ∧
      set.told b.mapping.target = t.told b.mapping.target ∧ set.engine.outputs = t.engine.outputs ∧
      set.engine.layout = t.engine.layout := by
    obtain ⟨risen, hrisen, htold, houtputs, hlayout⟩ : ∃ risen : Turn,
        (if r.now && !r.was then t.rise id b.mapping (t.targetOf b) user else t) = risen ∧
        risen.told b.mapping.target = t.told b.mapping.target ∧
        risen.engine.outputs = t.engine.outputs ∧ risen.engine.layout = t.engine.layout := by
      refine ⟨_, rfl, ?_⟩
      split
      · refine ⟨told_rise _ _ _ _ _, ?_, (steps_rise _ _ _ _ _).layout⟩
        simp only [rise, Descriptor.padCell?, hkey]
        rfl
      · exact ⟨rfl, rfl, rfl⟩
    refine ⟨if r.now then risen.mapLatch id fun l => { l with strength := r.strength } else risen,
      ?_, ?_, ?_, ?_⟩
    · show (t.perform id b.mapping source (t.targetOf b) user r forced).1 = _
      simp only [perform, hrisen, hkey, hemits, hplain, Bool.not_false, Bool.true_or, Bool.and_true,
        if_true]
    all_goals split
    · exact htold
    · exact htold
    · exact houtputs
    · exact houtputs
    · exact (layout_mapLatch _ _ _).trans hlayout
    · exact hlayout
  obtain ⟨b', hb', hmapping, hslot⟩ := binding_congr hlayout hb
  have htarget : t.targetOf b = set.targetOf b' := (targetOf_congr hlayout hmapping).symm
  have hheld : set.engine.keyHeld b.mapping.target = t.engine.keyHeld b.mapping.target :=
    keyHeld_congr (congrArg Layout.vocabulary hlayout) houtputs _
  rw [htarget] at hkey hperform
  have hwritten := told_writeTarget_key hb' hkey source r.now r.strength
  rw [hmapping, hslot] at hwritten
  rw [hperform, hwritten, htold, hheld]

/-- How things stand with a binding and its key in the middle of a turn. -/
def tally (t : Turn) (id : Nat) (k : Control) : Tally :=
  ⟨t.told k, (t.engine.latch id).active, (t.engine.latch id).timer⟩

/-- Until it is settled, an answer leaves the timer alone. -/
theorem grip_firstStep {t : Turn} (hb : t.engine.bindings[id]? = some b) {pulse : Pulse} {forced : Bool}
    {latch : Latch} (hrespond : b.latch.respond b.mapping (t.sourceOf b) (t.targetOf b) pulse.down
      pulse.strength forced = (latch, some r)) :
    ((t.firstStep id b pulse forced latch (some r)).engine.latch id).grip =
      (r.now, (t.engine.latch id).timer) := by
  have hcore := (core_firstStep hb pulse forced latch (some r) id).trans (if_pos rfl)
  have hactive : ((t.firstStep id b pulse forced latch (some r)).engine.latch id).active = latch.active :=
    (congrArg Latch.active hcore :)
  have htimer : ((t.firstStep id b pulse forced latch (some r)).engine.latch id).timer = latch.timer :=
    (congrArg Latch.timer hcore :)
  rw [latch_of_getElem? hb]
  exact Prod.ext (hactive.trans (Latch.respond_some hrespond).2.symm)
    (htimer.trans (Latch.timer_of_respond hrespond))

/-- Settling the end of a binding stops its timer. -/
theorem grip_settle_up {t : Turn} (hin : id < t.engine.bindings.size) (m : Mapping)
    (source target : Descriptor) (hnow : r.now = false) (hup : (t.engine.latch id).active = false) :
    ((t.settle id m source target r).engine.latch id).grip = (false, none) := by
  have hsize : id < (t.engine.stopTimer id).bindings.size := by
    rwa [size_congr (layout_of_untimed (untimed_stopTimer t.engine id))]
  have hsame := stake_of_untimed (untimed_stopTimer t.engine id) id
  have hlatch := latch_mapLatch (t.engine.stopTimer id) id (fun l => { l with applied := [] }) id
  rw [if_pos ⟨rfl, hsize⟩] at hlatch
  rw [settle_up t id m source target hnow]
  refine (congrArg Latch.grip hlatch).trans (Prod.ext ?_ (TimersAgree.stopTimer_timer t.engine id))
  exact (congrArg Prod.fst hsame).trans hup

/-- Settling a press starts the delay, unless the key has been down before. -/
theorem engine_settle_press {t acted : Turn} (hrule : t.engine.TypesAlone id b)
    (hadd : b.mapping.options.add = false) (hlayout : acted.engine.layout = t.engine.layout)
    (hnow : r.now = true) :
    (acted.settle id b.mapping (t.sourceOf b) (t.targetOf b) r).engine = acted.engine.followPlan id
      (if r.was then .keep else .once t.engine.settings.keyRepeatDelay .keyRepeatDelay) := by
  have hsettings : acted.engine.settings = t.engine.settings := congrArg Layout.settings hlayout
  unfold settle
  dsimp only [sourceOf, targetOf]
  rw [hnow, if_pos rfl, hrule.timerPlan hadd, hsettings]
  rfl

/-- What an answer does to a binding with a key of its own.  A timer that is new is the delay before the
key repeats. -/
structure Keyed (id : Nat) (k : Control) (last : TimerToken) (press : Bool) (t t' : Turn) : Prop where
  answer : Tally.Answer last press (t.tally id k) (t'.tally id k)
  idle : (t'.engine.latch id).active = false → (t'.engine.latch id).timer = none
  timer : (t'.engine.latch id).timer = (t.engine.latch id).timer ∨ (t'.engine.latch id).timer = none ∨
    ∃ token, (t'.engine.latch id).timer = some (token, .keyRepeatDelay) ∧
      t'.engine.clock.Has token (t.engine.clock.now + t.engine.settings.keyRepeatDelay) none

section

variable (ht : Typist id k t.engine) (hb : t.engine.bindings[id]? = some b) {pulse : Pulse}
  {forced : Bool} {latch : Latch} (hreaches : t.Reaches b pulse forced)
  (hrespond : b.latch.respond b.mapping (t.sourceOf b) (t.targetOf b) pulse.down pulse.strength
    forced = (latch, some r))

include ht hb hreaches hrespond

/-- An answer tells of the press, if the binding is in effect then, and of the release otherwise, if it
has been in effect. -/
theorem told_answer : (t.firstStep id b pulse forced latch (some r)).told k =
    t.told k ++ if r.now then [true] else if r.was then [false] else [] := by
  obtain ⟨b', hb', rfl, hrule⟩ := ht.rule
  obtain rfl := Option.some.inj (hb.symm.trans hb')
  have hneeds : (t.targetOf b).needsSlot = true := by
    rw [Descriptor.needsSlot, show (t.targetOf b).cell = _ from hrule.keyboard]
  have hemits : r.emits = true := by
    rw [← Bool.not_eq_false]
    intro hsilent
    rcases (Latch.respond_silent hrespond hsilent).2 with hrelative | ⟨hturbo, -⟩
    · rw [show (t.targetOf b).flags.relative = false from Vocabulary.relative_of_needsSlot _ hneeds]
        at hrelative
      contradiction
    · rw [hrule.plain] at hturbo
      contradiction
  have hacted := ht.move (.firstStep hb hreaches hrespond)
  have hcore := (core_firstStep hb pulse forced latch (some r) id).trans (if_pos rfl)
  obtain ⟨hwas, hnow⟩ := Latch.respond_some hrespond
  -- The key was down if the binding was in effect, and is down now if it is in effect now.
  have hbefore : t.engine.keyHeld b.mapping.target = r.was := by
    rw [ht.keyHeld, latch_of_getElem? hb, hwas]
  have hafter : (t.firstStep id b pulse forced latch (some r)).engine.keyHeld b.mapping.target = r.now := by
    rw [hacted.keyHeld, hnow]
    exact (congrArg Latch.active hcore :)
  have hslot : r.was = true ∨ r.now = true → b.slot.isSome = true := by
    rintro (hdown | hdown)
    · exact ht.equipped.within id (by rw [latch_of_getElem? hb, ← hwas, hdown]) b hb hneeds
    · rw [← hafter, hacted.keyHeld] at hdown
      exact Equipped.congr (Move.firstStep hb hreaches hrespond).layout.symm
        (hacted.equipped.within id hdown) b hb hneeds
  have hset : (t.mapLatch id fun _ => latch).engine.bindings[id]? = some { b with latch } := by
    rw [engine_mapLatch, getElem?_mapLatch, if_pos rfl, hb]
    rfl
  have hwritten := told_perform_key hset hrule.keyboard hrule.plain hemits (t.sourceOf b) pulse.user forced
  have hheld : (t.mapLatch id fun _ => latch).engine.keyHeld b.mapping.target = r.was := by
    rw [← hbefore]
    exact keyHeld_congr rfl rfl _
  refine hwritten.trans ?_
  dsimp only at hwritten ⊢
  rw [hheld]
  replace hafter : ((t.mapLatch id fun _ => latch).perform id b.mapping (t.sourceOf b)
    ((t.mapLatch id fun _ => latch).targetOf { b with latch }) pulse.user r forced).1.engine.keyHeld
      b.mapping.target = r.now := hafter
  rw [hafter]
  refine congrArg₂ (· ++ ·) rfl ?_
  cases hwas' : r.was <;> cases hnow' : r.now <;> simp_all

/-- Only a press leaves the binding in effect. -/
theorem press_of_now (hnow : r.now = true) : (pulse.down && !forced) = true := by
  rw [← Bool.not_eq_false, Bool.and_eq_false_iff, Bool.not_eq_false']
  rintro (hreleased | rfl)
  · rw [hreleased] at hrespond
    have hended := (ht.equipped.steady id b hb).respond_up hrespond
    rw [hended] at hnow
    contradiction
  · rw [(Latch.respond_some hrespond).2, (Latch.respond_forced hrespond).1] at hnow
    contradiction

variable {last : TimerToken} {t' : Turn} (ht' : (t.firstStep id b pulse forced latch (some r)).settle id
  b.mapping (t.sourceOf b) (t.targetOf b) r = t')

include ht'

/-- An answer that leaves the binding out of effect lets go of the key, if it has been down. -/
theorem keyed_up (hidle : (t.engine.latch id).active = false → (t.engine.latch id).timer = none)
    (hnow : r.now = false) : Keyed id k last (pulse.down && !forced) t t' := by
  have htold := told_settle (k := k) (t.firstStep id b pulse forced latch (some r)) id b.mapping
    (t.sourceOf b) (t.targetOf b) r
  have hin : id < (t.firstStep id b pulse forced latch (some r)).engine.bindings.size := by
    rw [size_congr (Move.firstStep hb hreaches hrespond).layout]
    exact (Array.getElem?_eq_some_iff.mp hb).1
  have hup := (congrArg Prod.fst (grip_firstStep hb hrespond)).trans hnow
  have hgrip := grip_settle_up hin b.mapping (t.sourceOf b) (t.targetOf b) hnow hup
  rw [told_answer ht hb hreaches hrespond, hnow, if_neg Bool.false_ne_true] at htold
  rw [ht'] at htold hgrip
  have hactive : (t'.engine.latch id).active = false := congrArg Prod.fst hgrip
  have hnone : (t'.engine.latch id).timer = none := congrArg Prod.snd hgrip
  refine ⟨?_, fun _ => hnone, .inr (.inl hnone)⟩
  have hbefore : (t.engine.latch id).active = r.was := by
    rw [latch_of_getElem? hb, (Latch.respond_some hrespond).1]
  unfold tally
  rw [htold, hactive, hnone]
  by_cases hheld : r.was = true
  · rw [if_pos hheld]
    exact .ended _ (hbefore.trans hheld)
  · rw [Bool.not_eq_true] at hheld
    rw [hheld, if_neg Bool.false_ne_true, List.append_nil, hbefore, hheld, hidle (hbefore.trans hheld)]
    exact .same _ _

/-- An answer that leaves the binding in effect presses the key or sends it again. -/
theorem keyed_down (hlast : last ≤ t.engine.lastToken) (hnow : r.now = true) :
    Keyed id k last (pulse.down && !forced) t t' := by
  have hpress := press_of_now ht hb hreaches hrespond hnow
  have htold := told_settle (k := k) (t.firstStep id b pulse forced latch (some r)) id b.mapping
    (t.sourceOf b) (t.targetOf b) r
  rw [told_answer ht hb hreaches hrespond, hnow, if_pos rfl, ht'] at htold
  obtain ⟨b', hb', rfl, hrule⟩ := ht.rule
  obtain rfl := Option.some.inj (hb.symm.trans hb')
  have hmove := Move.firstStep hb hreaches hrespond
  have hsettle := engine_settle_press hrule (plain_of_output (ht.adds id b hb) hrule.keyboard) hmove.layout
    hnow
  have hwaiting := keepsWaiting_move hmove (steps_firstStep t hb pulse forced latch (some r)).now
  have hgrip := grip_firstStep hb hrespond
  rw [ht'] at hsettle
  generalize t.firstStep id b pulse forced latch (some r) = acted at *
  -- Whatever was waiting is still there, and the binding is in effect now.
  have hbefore : (t.engine.latch id).active = r.was := by
    rw [latch_of_getElem? hb, (Latch.respond_some hrespond).1]
  have hdown : (t'.engine.latch id).active = true := by
    rw [hsettle]
    exact (congrArg Prod.fst (stake_of_untimed (untimed_followPlan acted.engine id _) id)).trans
      ((congrArg Prod.fst hgrip).trans hnow)
  have hidle : (t'.engine.latch id).active = false → (t'.engine.latch id).timer = none :=
    fun hup => absurd (hup.symm.trans hdown) Bool.false_ne_true
  -- Down already the key is sent again; else it is pressed, and the delay begins with a new timer.
  cases hheld : r.was with
  | true =>
    rw [hheld] at hsettle
    have hsame : (t'.engine.latch id).timer = (t.engine.latch id).timer := by
      rw [hsettle]
      exact congrArg Prod.snd hgrip
    refine ⟨?_, hidle, .inl hsame⟩
    unfold tally
    rw [hpress, htold, hdown, hsame]
    exact .again (hbefore.trans hheld)
  | false =>
    rw [hheld] at hsettle
    have hin : id < acted.engine.bindings.size := by
      rw [size_congr hmove.layout]
      exact (Array.getElem?_eq_some_iff.mp hb).1
    have hnew : (t'.engine.latch id).timer = some (acted.engine.lastToken + 1, .keyRepeatDelay) := by
      rw [hsettle]
      exact timer_startTimer acted.engine hin .keyRepeatDelay _
    refine ⟨?_, hidle, .inr (.inr ⟨_, hnew, ?_⟩)⟩
    · unfold tally
      rw [hpress, htold, hdown, hnew]
      exact .begun (hbefore.trans hheld) (Nat.lt_succ_of_le (Nat.le_trans hlast hwaiting.later))
    · rw [hsettle, ← hwaiting.now]
      exact has_startTimer_once acted.engine id .keyRepeatDelay _

/-- **An answer of the binding** presses its key, sends it again or lets go of it, or it is nothing to
the key. -/
theorem keyed_answer (hlast : last ≤ t.engine.lastToken)
    (hidle : (t.engine.latch id).active = false → (t.engine.latch id).timer = none) :
    Keyed id k last (pulse.down && !forced) t t' := by
  cases hnow : r.now with
  | false => exact keyed_up ht hb hreaches hrespond ht' hidle hnow
  | true => exact keyed_down ht hb hreaches hrespond ht' hlast hnow

end

end Turn

end VirtualPad
