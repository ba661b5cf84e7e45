import VirtualPad.Proofs.Controls
import VirtualPad.Proofs.Installation
import VirtualPad.Proofs.Latches
import VirtualPad.Proofs.Stability
import VirtualPad.Proofs.Wiring

/-!
# What releases leave in effect

A source that goes up puts no binding into effect, however far the cascade goes: a binding that ends
writes nothing but a release to its target, a variable that is released is a source that goes up,
and no pair listens to a variable.  So the set of bindings in effect only shrinks, and releasing all
bindings by force, one after another, leaves none of them in effect.
-/

namespace VirtualPad

/-- A steady latch answers a release by its end or not at all. -/
theorem Latch.Steady.respond_up {l latch : Latch} {m : Mapping} {source target : Descriptor}
    {forced : Bool} {strength : Float} {r : Response} (hl : l.Steady m target)
    (h : l.respond m source target false strength forced = (latch, some r)) : r.now = false := by
  unfold Latch.respond at h
  dsimp only at h
  split at h
  · obtain ⟨-, hr⟩ := Prod.mk.inj h
    obtain rfl := Option.some.inj hr
    rfl
  · rename_i hmotion
    split at h
    · simp at h
    · split at h
      · simp at h
      · rename_i hsettled
        obtain ⟨-, hr⟩ := Prod.mk.inj h
        obtain rfl := Option.some.inj hr
        show l.wanted m false forced = false
        unfold Latch.wanted
        split
        · rename_i htoggle
          -- A release that switches nothing would have been swallowed.
          cases forced with
          | true => simp [Latch.switched, htoggle]
          | false =>
            have hsteady := hl htoggle (by simpa using hmotion)
            refine absurd ?_ hsettled
            simp [Mapping.isSettled, Latch.wanted, Latch.switched, htoggle, hsteady]
        · rfl

namespace Engine

/-- At most these bindings are in effect.  Variables that are written have no pairs, and latches are
steady. -/
structure ActiveWithin (A : Nat → Prop) (e : Engine) : Prop where
  unpaired (id : Nat) (b : Binding) : e.bindings[id]? = some b →
    (e.descriptor b.mapping.target).cell = .output .var →
    ∀ pair, ¬ e.board.Lists Line.pairs b.mapping.target pair
  steady (id : Nat) (b : Binding) : e.bindings[id]? = some b →
    b.latch.Steady b.mapping (e.descriptor b.mapping.target)
  within (id : Nat) : (e.latch id).active = true → A id

namespace ActiveWithin

variable {A : Nat → Prop} {e e' : Engine}

theorem mono {A' : Nat → Prop} (he : ActiveWithin A e) (hsub : ∀ id, A id → A' id) :
    ActiveWithin A' e :=
  ⟨he.unpaired, he.steady, fun id h => hsub id (he.within id h)⟩

theorem exactly (he : ActiveWithin A e) : ActiveWithin (fun id => (e.latch id).active = true) e :=
  ⟨he.unpaired, he.steady, fun _ h => h⟩

/-- In the same layout, all depends on the latches. -/
theorem of_latches {A' : Nat → Prop} (he : ActiveWithin A e) (hlayout : e'.layout = e.layout)
    (hsteady : ∀ (id : Nat) (b b' : Binding), e.bindings[id]? = some b →
      e'.bindings[id]? = some b' → b'.latch.Steady b.mapping (e.descriptor b.mapping.target))
    (hwithin : ∀ id, (e'.latch id).active = true → A' id) : ActiveWithin A' e' := by
  constructor
  · intro id b' hb' hvar pair hlists
    obtain ⟨b, hb, hmapping, -⟩ := binding_congr hlayout.symm hb'
    rw [← hmapping, descriptor_congr hlayout] at hvar
    rw [← hmapping] at hlists
    exact he.unpaired id b hb hvar pair
      ((lists_congr Wiring.pairs (fun _ => rfl) hlayout _ _).mp hlists)
  · intro id b' hb'
    obtain ⟨b, hb, hmapping, -⟩ := binding_congr hlayout.symm hb'
    rw [← hmapping, descriptor_congr hlayout]
    exact hsteady id b b' hb hb'
  · exact hwithin

/-- With the same latches the same bindings are in effect. -/
theorem congr (he : ActiveWithin A e) (hlayout : e'.layout = e.layout)
    (hbits : ∀ i, (e'.latch i).bits = (e.latch i).bits) : ActiveWithin A e' := by
  refine he.of_latches hlayout (fun id b b' hb hb' => ?_) fun id hactive => he.within id ?_
  · have hsame := hbits id
    rw [latch_of_getElem? hb, latch_of_getElem? hb'] at hsame
    exact (he.steady id b hb).congr hsame
  · rw [← Latch.active_of_bits (hbits id)]
    exact hactive

theorem answered {A' : Nat → Prop} {t t' : Turn} {id : Nat} {b : Binding} {pulse : Pulse}
    {forced : Bool} (ht : ActiveWithin A t.engine) (hlayout : t'.engine.layout = t.engine.layout)
    (h : Turn.Answered t t' id b pulse forced)
    (hothers : ∀ i, i ≠ id → (t.engine.latch i).active = true → A' i)
    (hown : ∀ latch response, b.latch.respond b.mapping (t.sourceOf b) (t.targetOf b) pulse.down
      pulse.strength forced = (latch, response) → latch.active = true → A' id) :
    ActiveWithin A' t'.engine := by
  obtain ⟨hb, -, latch, response, hrespond, hbits⟩ := h
  refine ht.of_latches hlayout (fun i c c' hc hc' => ?_) fun i hactive => ?_
  · obtain ⟨d, hd, -, -, hown⟩ := Turn.binding_of_answered hlayout hb hbits hc'
    obtain rfl : d = c := Option.some.inj (hd.symm.trans hc)
    rcases hown with ⟨rfl, rfl, hsame⟩ | ⟨-, hsame⟩
    · exact ((ht.steady i d hd).respond hrespond).1.congr hsame
    · exact (ht.steady i d hd).congr hsame
  · have hsame := hbits i
    by_cases hi : id = i
    · subst hi
      rw [if_pos rfl] at hsame
      exact hown latch response hrespond ((Latch.active_of_bits hsame).symm.trans hactive)
    · rw [if_neg hi] at hsame
      exact hothers i (Ne.symm hi) ((Latch.active_of_bits hsame).symm.trans hactive)

/-- Anything may come into effect by a move; the rest stays as it should be. -/
theorem move {t t' : Turn} (h : Turn.Move t t') (ht : ActiveWithin (fun _ => True) t.engine) :
    ActiveWithin (fun _ => True) t'.engine := by
  obtain ⟨-, hquiet | ⟨id, b, pulse, forced, hanswered⟩⟩ := h.bits
  · exact ht.congr h.layout hquiet.bits
  · exact ht.answered h.layout hanswered (fun _ _ _ => trivial) fun _ _ _ _ => trivial

theorem mark {t : Turn} (c : Control) (user : User) (down : Bool) (ht : ActiveWithin A t.engine) :
    ActiveWithin A (t.mark c user down).engine :=
  ht.congr (layout_setBoard _ c user down) fun _ => rfl

theorem chore (h : Chore e e') (he : ActiveWithin A e) : ActiveWithin A e' := by
  cases h with
  | note | enable | label | activate | advance => exact he.congr rfl fun _ => rfl
  | remember id user =>
    exact he.congr (layout_mapLatch e id _) (latch_mapLatch_congr Latch.bits rfl)

theorem of_untimed (he : ActiveWithin A e) (h : e'.untimed = e.untimed) : ActiveWithin A e' := by
  refine he.congr (layout_of_untimed h) fun i => ?_
  have hbits := congrArg (fun l : Latch => l.bits) (latch_of_untimed h i)
  exact hbits

/-! ## §1 One release -/

/-- A listener puts nothing into effect when a control without pairs goes up. -/
structure Calms (onVar : Listener) : Prop where
  layout (t : Turn) (c : Control) (pulse : Pulse) :
    (onVar t c pulse).1.engine.layout = t.engine.layout
  up (A : Nat → Prop) (t : Turn) (c : Control) (pulse : Pulse) : pulse.down = false →
    (∀ pair, ¬ t.engine.board.Lists Line.pairs c pair) → ActiveWithin A t.engine →
    ActiveWithin A (onVar t c pulse).1.engine

/-- **A release puts nothing into effect**, once that holds of its first step. -/
theorem runBinding_of_firstStep {A' : Nat → Prop} {onVar : Listener} (hvar : Calms onVar)
    {t : Turn} {id : Nat} {b : Binding} {pulse : Pulse} {forced : Bool}
    (ht : ActiveWithin A t.engine) (hdown : pulse.down = false)
    (hb : t.engine.bindings[id]? = some b) (hreaches : t.Reaches b pulse forced)
    (hfirst : ∀ latch response, b.latch.respond b.mapping (t.sourceOf b) (t.targetOf b) pulse.down
      pulse.strength forced = (latch, response) →
      ActiveWithin A' (t.firstStep id b pulse forced latch response).engine) :
    ActiveWithin A' (t.runBinding onVar id pulse forced).1.engine := by
  refine Turn.runBinding_keeps_of_echo (fun h hquiet ht => ht.congr h.layout hquiet.bits)
    hvar.layout hb hreaches hfirst ?_
  intro latch r hrespond acted echo hperform hacted
  have hlayout := (Turn.Move.act hb hreaches hrespond).layout
  rw [hperform] at hlayout
  obtain ⟨b', hb', hmapping, -⟩ := binding_congr hlayout hb
  obtain ⟨hcell, hup⟩ := Turn.perform_echo _ (congrArg Prod.snd hperform)
  rw [hdown] at hrespond
  refine hvar.up A' acted _ echo (hup ((ht.steady id b hb).respond_up hrespond)) ?_ hacted
  rw [← hmapping]
  refine hacted.unpaired id b' hb' ?_
  rw [hmapping, descriptor_congr hlayout]
  exact hcell

/-- A binding that hears of a release puts nothing into effect. -/
theorem runBinding {onVar : Listener} (hvar : Calms onVar) {t : Turn} (id : Nat) (pulse : Pulse)
    (forced : Bool) (hdown : pulse.down = false) (ht : ActiveWithin A t.engine) :
    ActiveWithin A (t.runBinding onVar id pulse forced).1.engine := by
  by_cases h : ∃ b, t.engine.bindings[id]? = some b ∧ t.Reaches b pulse forced
  · obtain ⟨b, hb, hreaches⟩ := h
    refine ht.runBinding_of_firstStep hvar hdown hb hreaches fun latch response hrespond => ?_
    have hmove := Turn.Move.firstStep hb hreaches hrespond
    refine ht.answered hmove.layout (Turn.answered_firstStep hb hreaches hrespond)
      (fun i _ hactive => ht.within i hactive) fun latch response hrespond hactive => ?_
    -- Only a press could have brought it into effect.
    rcases ((ht.steady id b hb).respond hrespond).2 hactive with hbefore | ⟨hpress, -⟩
    · exact ht.within id (by rw [latch_of_getElem? hb, hbefore])
    · rw [hdown] at hpress
      contradiction
  · rw [Turn.runBinding_of_not_reaches onVar fun b hb hreaches => h ⟨b, hb, hreaches⟩]
    exact ht

/-- **A source without pairs that goes up puts nothing into effect.** -/
theorem calms_feed (room : Nat) : Calms (Turn.feed room) := by
  induction room with
  | zero => exact ⟨fun _ _ _ => rfl, fun _ _ _ _ _ _ ht => ht⟩
  | succ room ih =>
    refine ⟨Turn.feed_layout (room + 1), fun A t c pulse hdown hunpaired ht => ?_⟩
    cases hline : t.engine.board.line? c with
    | none =>
      rw [Turn.feed_none _ t c pulse hline]
      exact ht
    | some line =>
      rw [Turn.feed_succ room t c pulse hline]
      dsimp only
      -- Nothing hears of it through a pair, so the chain and the watchers are all there is.
      have hpairs : line.pairs = [] :=
        List.eq_nil_iff_forall_not_mem.mpr fun pair hpair => hunpaired pair ⟨line, hline, hpair⟩
      have hmarked := ht.mark c (t.stateUser c pulse.user) pulse.down
      have hrun := Turn.foldl_keeps _ (fun t' id ht' => ht'.runBinding (A := A) ih id
        { pulse with user := t.stateUser c pulse.user } false hdown) _ line.chain hmarked
      rw [hpairs]
      split
      · refine Turn.foldl_keeps _ (fun t' id ht' => ?_) _ line.watchers hrun
        unfold Turn.review
        split
        · exact ht'
        · split
          · exact runBinding ih id _ true rfl ht'
          · exact ht'
      · exact hrun

/-! ## §2 Releasing everything -/

/-- A forced release takes the binding out of what is in effect. -/
theorem forceRelease (t : Turn) (id : Nat) (ht : ActiveWithin A t.engine) :
    ActiveWithin (fun i => A i ∧ i ≠ id) (Engine.forceRelease t id).engine := by
  refine of_untimed ?_ (untimed_stopTimer _ id)
  split
  · rename_i hlatched
    cases hb : t.engine.bindings[id]? with
    | none =>
      rw [latch, hb] at hlatched
      contradiction
    | some b =>
      refine ht.runBinding_of_firstStep (calms_feed cascadeRoom) rfl hb (.inl rfl)
        fun latch response hrespond => ?_
      have hmove := Turn.Move.firstStep hb (.inl rfl) hrespond
      refine ht.answered hmove.layout (Turn.answered_firstStep hb (.inl rfl) hrespond)
        (fun i hi hactive => ⟨ht.within i hactive, hi⟩) fun latch response hrespond hactive => ?_
      rw [(Latch.respond_forced hrespond).1] at hactive
      contradiction
  · rename_i hfree
    refine ⟨ht.unpaired, ht.steady, fun i hactive => ⟨ht.within i hactive, ?_⟩⟩
    rintro rfl
    simp [Latch.isLatched, hactive] at hfree

/-- Forced releases one after another take all of the bindings out. -/
theorem forceReleases (ids : List Nat) {t : Turn} (ht : ActiveWithin A t.engine) :
    ActiveWithin (fun i => A i ∧ i ∉ ids) (ids.foldl Engine.forceRelease t).engine := by
  induction ids generalizing A t with
  | nil => exact ht.mono fun i hi => ⟨hi, List.not_mem_nil⟩
  | cons id rest ih =>
    refine (ih (ht.forceRelease t id)).mono fun i hi => ⟨hi.1.1, ?_⟩
    intro hmem
    rcases List.mem_cons.mp hmem with hsame | hrest
    · exact hi.1.2 hsame
    · exact hi.2 hrest

/-- **After everything is released nothing is in effect.** -/
theorem released (e : Engine) (time : Nat) (he : ActiveWithin A e) :
    ActiveWithin (fun _ => False)
      ((List.range e.bindings.size).foldl Engine.forceRelease { engine := e, time }).engine := by
  have hgone := forceReleases (List.range e.bindings.size) (t := { engine := e, time }) he.exactly
  refine hgone.mono fun i hi => hi.2 (List.mem_range.mpr ?_)
  by_contra hout
  have hactive := hi.1
  rw [latch_of_le (Nat.not_lt.mp hout)] at hactive
  contradiction

/-- Also when the pads have been emptied and the turn has been committed. -/
theorem forceReleaseAll (e : Engine) (time : Nat) (he : ActiveWithin A e) :
    ActiveWithin (fun _ => False) (e.forceReleaseAll time) := by
  refine Turn.commit_keeps chore _ ?_
  dsimp only
  rw [Turn.engine_updatePads]
  exact (he.released e time).congr (layout_write _ _ (PadBank.count_change _ _ _)) fun _ => rfl

/-! ## §3 After an installation -/

theorem ofInstall (e : Engine) (config : Config) (time : Nat) :
    ActiveWithin A (e.install config time) := by
  constructor
  · intro id b hb hvar pair hlists
    rw [install_board] at hlists
    rw [install_descriptor] at hvar
    -- Variables are custom controls, and pairs consist of built-in ones.
    have hbuiltin := Switchboard.component_builtin
      (((Switchboard.wires_ofMappings _ _).pairs _ _).mp hlists).1
    rw [(Vocabulary.of_var _ hvar).1] at hbuiltin
    contradiction
  · intro id b hb
    rw [(install_binding hb).2]
    exact fun _ _ => rfl
  · intro id hactive
    rw [install_latch] at hactive
    contradiction

end ActiveWithin

end Engine

end VirtualPad
