import Mathlib.Logic.Relation
import VirtualPad.Proofs.Moves

/-!
# The steps of a turn

Whatever happens in a turn happens in small steps: a latch changes, a timer is started or stopped, a
control moves on the board, pads or one output are written to, motion is added up, a command is
requested, a key is sent once more.  `Turn.Step` lists them, each with what the engine has checked
before it makes the step, and `Turn.Steps` is a series of them.

The moves say what one binding does on its own.  The steps say less about why something happens,
but they see the whole turn: what the host is going to be told, and what has been requested.
-/

namespace VirtualPad

/-- A way to write to a pad. -/
inductive Pad.Writing : (Pad → Pad × Bool) → Prop
  | write (cell : PadCell) (slot : Slot) (c : Contribution) :
      Writing fun p => p.write cell slot c
  | add (cell : PadCell) (slot : Slot) (amount : Float) (replaces : Bool) :
      Writing fun p => p.add cell slot amount replaces
  | resetAdds (cell : PadCell) : Writing fun p => p.resetAdds cell
  | rotate (stick : Fin 2) (delta : Pad → Float) (clockwise : Bool) :
      Writing fun p => p.rotate stick (delta p) clockwise
  | releaseAll : Writing Pad.releaseAll
  | connect : Writing fun p => ({ p with connected := !p.connected }, true)

namespace Turn

/-- Something that happens within a turn. -/
inductive Step : Turn → Turn → Prop
  | latch (t : Turn) (id : Nat) (change : Latch → Latch) : Step t (t.mapLatch id change)
  | plan (t : Turn) (id : Nat) (plan : TimerPlan) :
      Step t (t.mapEngine fun e => e.followPlan id plan)
  | lapse (t : Turn) (use : TimerUse) : Step t (t.mapEngine fun e => e.lapse use)
  | mark (t : Turn) (c : Control) (user : User) (down : Bool) : Step t (t.mark c user down)
  | pads (t : Turn) (users : List User) {change : Pad → Pad × Bool} (h : Pad.Writing change) :
      Step t (t.updatePads users change)
  | output (t : Turn) {kind : OutputKind} {target : Control} (slot : Slot) (down replaces : Bool)
      (hkind : (t.engine.descriptor target).cell = .output kind) :
      Step t (t.writeOutput kind target slot down replaces).1
  | pointer (t : Turn) (m : Motion Float) : Step t (t.movePointer m)
  | wheel (t : Turn) (m : Motion Float) : Step t (t.turnWheel m)
  /-- A command is requested by a binding that exists. -/
  | request (t : Turn) {r : Request} (hid : r.mapping < t.engine.bindings.size) :
      Step t (t.request r)
  /-- A key that is held is sent once more. -/
  | resend (t : Turn) {key : Control} {cell : ButtonCell}
      (hkind : (t.engine.descriptor key).cell = .output .keyboard)
      (hcell : t.engine.outputs[key]? = some cell) (hheld : ButtonCell.pressed cell = true) :
      Step t (t.tell (.key key true))

/-- What happens within a turn. -/
abbrev Steps : Turn → Turn → Prop := Relation.ReflTransGen Step

/-! ## §1 One binding and what comes of it -/

/-- A review releases the binding or leaves it. -/
theorem review_cases {P : Turn → Prop} {onVar : Listener} {t : Turn} {id : Nat} (hleave : P t)
    (hrelease : P (t.release onVar id)) : P (t.review onVar id) := by
  unfold review
  split
  · exact hleave
  · split
    · exact hrelease
    · exact hleave

/-- A pair moves or stays. -/
theorem followPair_cases {P : Turn → Prop} {onPair : Listener} {pulse : Pulse} {t : Turn}
    {pair : Control} (hstay : P t) (hmove : ∀ down, P (onPair t pair { pulse with down }).1) :
    P (followPair onPair pulse t pair).1 := by
  unfold followPair
  split
  · exact hstay
  · split
    · exact hmove _
    · exact hstay

section

variable {R : Turn → Turn → Prop} (hrefl : ∀ t, R t t)
  (htrans : ∀ {t t' t'' : Turn}, R t t' → R t' t'' → R t t'')

include hrefl htrans

theorem foldl_rel {α : Type} {run : Turn → α → Turn} (hrun : ∀ t item, R t (run t item)) (t : Turn)
    (items : List α) : R t (items.foldl run t) := by
  induction items generalizing t with
  | nil => exact hrefl t
  | cons item rest ih => exact htrans (hrun t item) (ih _)

/-- **The induction over cascades.** What holds between the turns before and after a binding runs,
however deep the cascade below it, holds between the turns before and after a source moves. -/
theorem feed_rel (hmark : ∀ t c user down, R t (mark t c user down))
    (hbinding : ∀ room, (∀ t c pulse, R t (feed room t c pulse).1) →
      ∀ t id pulse forced, R t (t.runBinding (feed room) id pulse forced).1)
    (room : Nat) (t : Turn) (c : Control) (pulse : Pulse) : R t (feed room t c pulse).1 := by
  -- What a binding or a pair feeds has less room left.
  induction room generalizing t c pulse with
  | zero => exact hrefl t
  | succ room ih =>
    cases hline : t.engine.board.line? c with
    | none =>
      rw [feed_none _ t c pulse hline]
      exact hrefl t
    | some line =>
      rw [feed_succ room t c pulse hline]
      dsimp only
      -- The chain runs, the pairs follow and the watchers are reviewed: three series of such runs.
      have hrun : ∀ (pulse : Pulse) t', R t' (line.chain.foldl (fun t id =>
          (t.runBinding (feed room) id pulse false).1) t') := fun pulse t' =>
        foldl_rel hrefl htrans (fun t id => hbinding room ih t id pulse false) t' line.chain
      have hfollowed : ∀ (pulse : Pulse) t', R t' (line.pairs.foldl (fun t pair =>
          (followPair (feed room) pulse t pair).1) t') := fun pulse t' =>
        foldl_rel hrefl htrans (fun t pair => followPair_cases (P := R t) (hrefl t) fun down =>
          ih t pair _) t' line.pairs
      have hreviewed : ∀ t', R t' (line.watchers.foldl (review (feed room)) t') := fun t' =>
        foldl_rel hrefl htrans (fun t id => review_cases (P := R t) (hrefl t)
          (hbinding room ih t id _ true)) t' line.watchers
      have hmarked := hmark t c (t.stateUser c pulse.user) pulse.down
      split
      · exact htrans hmarked (htrans (hrun _ _) (htrans (hfollowed _ _) (hreviewed _)))
      · exact htrans hmarked (htrans (hrun _ _) (hfollowed _ _))

end

/-- A binding that runs for a pulse ignores it, swallows it, or answers it: then it takes its first
step, the cascade below it runs, and what is left is done. -/
theorem runBinding_cases {P : Turn → Prop} {onVar : Listener} {t : Turn} {id : Nat} {pulse : Pulse}
    {forced : Bool}
    (hignore : (∀ b, t.engine.bindings[id]? = some b → ¬ t.Reaches b pulse forced) → P t)
    (hswallow : ∀ b latch, t.engine.bindings[id]? = some b → t.Reaches b pulse forced →
      b.latch.respond b.mapping (t.sourceOf b) (t.targetOf b) pulse.down pulse.strength forced =
        (latch, none) → P (t.firstStep id b pulse forced latch none))
    (hanswer : ∀ b latch r, t.engine.bindings[id]? = some b → t.Reaches b pulse forced →
      b.latch.respond b.mapping (t.sourceOf b) (t.targetOf b) pulse.down pulse.strength forced =
        (latch, some r) →
      P ((relay onVar b.mapping.target (t.firstStep id b pulse forced latch (some r))
        (t.firstEcho id b pulse forced latch (some r))).settle id b.mapping (t.sourceOf b)
          (t.targetOf b) r)) :
    P (t.runBinding onVar id pulse forced).1 := by
  by_cases h : ∃ b, t.engine.bindings[id]? = some b ∧ t.Reaches b pulse forced
  · obtain ⟨b, hb, hreaches⟩ := h
    cases hrespond : b.latch.respond b.mapping (t.sourceOf b) (t.targetOf b) pulse.down
      pulse.strength forced with
    | mk latch response =>
    -- The guard lets the pulse through, so the latch responds and the response is carried out.
    have hrun : (t.runBinding onVar id pulse forced).1 = (t.mapLatch id fun _ => latch).carryOut
        onVar id b.mapping (t.sourceOf b) (t.targetOf b) pulse.user forced response := by
      unfold runBinding
      rw [hb]
      dsimp only
      rw [if_neg]
      · show (t.mapLatch id fun _ => (b.latch.respond b.mapping (t.sourceOf b) (t.targetOf b)
          pulse.down pulse.strength forced).1).carryOut onVar id b.mapping (t.sourceOf b)
          (t.targetOf b) pulse.user forced (b.latch.respond b.mapping (t.sourceOf b) (t.targetOf b)
          pulse.down pulse.strength forced).2 = _
        rw [hrespond]
      · rcases hreaches with rfl | haccepts
        · simp
        · simp only [sourceOf, targetOf] at haccepts
          simp [haccepts]
    rw [hrun]
    cases response with
    | none => exact hswallow b latch hb hreaches hrespond
    | some r => exact hanswer b latch r hb hreaches hrespond
  · rw [runBinding_of_not_reaches onVar fun b hb hreaches => h ⟨b, hb, hreaches⟩]
    exact hignore fun b hb hreaches => h ⟨b, hb, hreaches⟩

/-! ## §2 The steps of a binding -/

theorem Step.layout {t t' : Turn} (h : Step t t') : t'.engine.layout = t.engine.layout := by
  cases h with
  | latch id change => exact Engine.layout_mapLatch _ _ _
  | plan id plan => exact Engine.layout_of_untimed (Engine.untimed_followPlan _ _ _)
  | lapse use => exact Engine.layout_of_untimed (Engine.untimed_lapse _ _)
  | mark c user down => exact Engine.layout_setBoard _ c user down
  | pads users h =>
    rw [engine_updatePads]
    exact Engine.layout_write _ t.engine.outputs (PadBank.count_change _ _ _)
  | output slot down replaces hkind =>
    rw [engine_writeOutput]
    split
    · rfl
    · exact Engine.layout_write _ _ rfl
  | pointer | wheel | request | resend => rfl

theorem Steps.layout {t t' : Turn} (h : Steps t t') : t'.engine.layout = t.engine.layout := by
  induction h with
  | refl => rfl
  | tail _ hstep ih => exact hstep.layout.trans ih

/-- No step makes another user the active one, nor does it switch the mappings on or off. -/
theorem Steps.gates {t t' : Turn} (h : Steps t t') : t'.engine.activeUser = t.engine.activeUser ∧
    t'.engine.disabled = t.engine.disabled := by
  have huntimed : ∀ {e e' : Engine}, e'.untimed = e.untimed →
      e'.activeUser = e.activeUser ∧ e'.disabled = e.disabled := fun h => by
    have huser := congrArg Engine.activeUser h
    have hsame := congrArg Engine.disabled h
    exact ⟨huser, hsame⟩
  induction h with
  | refl => exact ⟨rfl, rfl⟩
  | @tail t₁ t₂ _ hstep ih =>
    have hlast : t₂.engine.activeUser = t₁.engine.activeUser ∧
        t₂.engine.disabled = t₁.engine.disabled := by
      cases hstep with
      | plan id plan => exact huntimed (Engine.untimed_followPlan _ id plan)
      | lapse use => exact huntimed (Engine.untimed_lapse _ use)
      | pads users h =>
        rw [engine_updatePads]
        exact ⟨rfl, rfl⟩
      | output slot down replaces hkind =>
        rw [engine_writeOutput]
        split <;> exact ⟨rfl, rfl⟩
      | latch | mark | pointer | wheel | request | resend => exact ⟨rfl, rfl⟩
    exact ⟨hlast.1.trans ih.1, hlast.2.trans ih.2⟩

/-- What waits for the end of the turn goes on waiting. -/
theorem Steps.queue {t t' : Turn} (h : Steps t t') : t'.engine.queue = t.engine.queue := by
  induction h with
  | refl => rfl
  | @tail t₁ t₂ _ hstep ih =>
    refine Eq.trans ?_ ih
    cases hstep with
    | plan id plan => exact (congrArg Engine.queue (Engine.untimed_followPlan _ id plan) :)
    | lapse use => exact (congrArg Engine.queue (Engine.untimed_lapse _ use) :)
    | pads users h => rw [engine_updatePads]
    | output slot down replaces hkind =>
      rw [engine_writeOutput]
      split <;> rfl
    | latch | mark | pointer | wheel | request | resend => rfl

variable (t : Turn)

theorem steps_giveCommand (id : Nat) (command : Command) (r : Response) (forced : Bool) :
    Steps t (t.giveCommand id command r forced) := by
  unfold giveCommand
  split
  · exact .refl
  · rename_i b hb
    have hid : id < t.engine.bindings.size := (Array.getElem?_eq_some_iff.mp hb).1
    have hrequests : ∀ (pressed : Bool) (users : List User) (t' : Turn), t'.engine = t.engine →
        Steps t' (users.foldl (fun t user => t.request
          { command, user, pressed, payload := b.mapping.payload, mapping := id }) t') := by
      intro pressed users
      induction users with
      | nil => exact fun _ _ => .refl
      | cons user rest ih =>
        intro t' hsame
        exact .head (.request t' (by rw [hsame]; exact hid)) (ih _ hsame)
    exact iteInduction (fun _ => hrequests _ _ t rfl) fun _ => .refl

theorem steps_writeTarget {id : Nat} {target : Descriptor}
    (htarget : ∀ b, t.engine.bindings[id]? = some b → target = t.targetOf b) (source : Descriptor)
    (down : Bool) (strength : Float) :
    Steps t (t.writeTarget id source target down strength).1 := by
  unfold writeTarget
  split
  · exact .refl
  · rename_i b hb
    dsimp only
    split
    · split
      · exact .single (.pointer t _)
      · exact .refl
    · split
      · exact .single (.wheel t _)
      · exact .refl
    · exact .single (.pads t _ (.write _ _ _))
    · -- The output is written by the kind of the target that the binding has now.
      rename_i kind slot hcell _
      rw [htarget b hb] at hcell
      exact .single (.output t slot down _ hcell)
    · exact .refl

theorem steps_rise (id : Nat) (m : Mapping) (target : Descriptor) (user : User) :
    Steps t (t.rise id m target user) := by
  have hlatch : Step t _ := .latch t id fun l =>
    { l with sourceUser := user, applied := t.engine.targetUsers m.targetUser }
  unfold rise
  dsimp only
  split
  · split
    · exact .tail (.single hlatch) (.pads _ _ (.resetAdds _))
    · exact .single hlatch
  · exact .single hlatch

theorem steps_perform {id : Nat} {target : Descriptor}
    (htarget : ∀ b, t.engine.bindings[id]? = some b → target = t.targetOf b) (m : Mapping)
    (source : Descriptor) (user : User) (r : Response) (forced : Bool) :
    Steps t (t.perform id m source target user r forced).1 := by
  have hrise : Steps t (if r.now && !r.was then t.rise id m target user else t) := by
    split
    · exact steps_rise t id m target user
    · exact .refl
  unfold perform
  generalize (if r.now && !r.was then t.rise id m target user else t) = risen at hrise ⊢
  dsimp only
  split
  · exact hrise.trans (steps_giveCommand risen id _ r forced)
  · split
    · have hstrength : Steps t (if r.now then
          risen.mapLatch id fun l => { l with strength := r.strength } else risen) := by
        split
        · exact hrise.tail (.latch risen id _)
        · exact hrise
      generalize (if r.now then
        risen.mapLatch id fun l => { l with strength := r.strength } else risen) = set
        at hstrength ⊢
      refine hstrength.trans (steps_writeTarget set (fun b' hb' => ?_) source _ _)
      -- The target is still what it was before the latch changed.
      obtain ⟨b, hb, hmapping, -⟩ := Engine.binding_congr hstrength.layout.symm hb'
      rw [htarget b hb]
      exact targetOf_congr hstrength.layout.symm hmapping
    · exact hrise

theorem steps_firstStep {id : Nat} {b : Binding} (hb : t.engine.bindings[id]? = some b)
    (pulse : Pulse) (forced : Bool) (latch : Latch) (response : Option Response) :
    Steps t (t.firstStep id b pulse forced latch response) := by
  have hlatch : Step t _ := .latch t id fun _ => latch
  cases response with
  | none => exact .single hlatch
  | some r =>
    refine Relation.ReflTransGen.trans (.single hlatch) (steps_perform _ (fun b' hb' => ?_) _ _ _ r forced)
    obtain ⟨b'', hb'', hmapping, -⟩ := Engine.binding_congr hlatch.layout.symm hb'
    obtain rfl : b = b'' := Option.some.inj (hb.symm.trans hb'')
    exact targetOf_congr hlatch.layout.symm hmapping

theorem steps_settle (id : Nat) (m : Mapping) (source target : Descriptor) (r : Response) :
    Steps t (t.settle id m source target r) := by
  have hplan := Step.plan t id (m.timerPlan source target t.engine.settings r.was r.now)
  unfold settle
  dsimp only
  split
  · exact .single hplan
  · exact .tail (.single hplan) (.latch _ id _)

theorem steps_relay {onVar : Listener} (hvar : ∀ t c pulse, Steps t (onVar t c pulse).1)
    (target : Control) (echo : Option Pulse) : Steps t (relay onVar target t echo) := by
  cases echo with
  | none => exact .refl
  | some pulse => exact hvar t target pulse

theorem steps_runBinding {onVar : Listener} (hvar : ∀ t c pulse, Steps t (onVar t c pulse).1)
    (id : Nat) (pulse : Pulse) (forced : Bool) :
    Steps t (t.runBinding onVar id pulse forced).1 := by
  refine runBinding_cases (fun _ => .refl) (fun b latch hb _ _ => ?_) fun b latch r hb _ _ => ?_
  · exact steps_firstStep t hb pulse forced latch none
  · have hfirst := steps_firstStep t hb pulse forced latch (some r)
    exact (hfirst.trans (steps_relay _ hvar _ _)).trans (steps_settle _ id _ _ _ r)

/-! ## §3 The steps of a whole turn -/

/-- **A source that moves** takes only such steps, however far the cascade goes. -/
theorem steps_feed (room : Nat) (c : Control) (pulse : Pulse) :
    Steps t (feed room t c pulse).1 :=
  feed_rel (fun _ => .refl) .trans (fun t c user down => .single (.mark t c user down))
    (fun _ hbelow t id pulse forced => steps_runBinding t hbelow id pulse forced) room t c pulse

theorem steps_repeatKey {id : Nat} {target : Descriptor}
    (htarget : ∀ b, t.engine.bindings[id]? = some b → target = t.targetOf b) :
    Steps t (t.repeatKey id target) := by
  unfold repeatKey
  split
  · exact .refl
  · rename_i b hb
    refine iteInduction (fun hagain => ?_) fun _ => .refl
    rw [Bool.and_eq_true, beq_iff_eq, htarget b hb] at hagain
    obtain ⟨hkind, hheld⟩ := hagain
    -- A key without a cell is not held, so it is not sent again.
    cases hcell : t.engine.outputs[b.mapping.target]? with
    | none =>
      rw [hcell] at hheld
      contradiction
    | some cell =>
      rw [hcell] at hheld
      exact .single (.resend t hkind hcell hheld)

theorem steps_goOn (id : Nat) (target : Descriptor) : Steps t (t.goOn id target) := by
  unfold goOn
  split
  · exact .refl
  · dsimp only
    split
    · exact .single (.pointer t _)
    · exact .single (.wheel t _)
    · split
      · exact .single (.pads t _ (.add _ _ _ _))
      · exact .refl
    · exact .refl

theorem steps_turnStick (id : Nat) (target : Descriptor) : Steps t (t.turnStick id target) := by
  unfold turnStick
  split
  · exact .single (.pads t _ (.rotate _ _ _))
  · exact .refl

theorem steps_blink {id : Nat} {target : Descriptor}
    (htarget : ∀ b, t.engine.bindings[id]? = some b → target = t.targetOf b) (source : Descriptor) :
    Steps t (t.blink id source target).1 := by
  have hlatch := Step.latch t id fun l => { l with lit := !l.lit }
  unfold blink
  dsimp only
  split
  · exact .single hlatch
  · refine Relation.ReflTransGen.trans (.single hlatch) (steps_writeTarget _ (fun b' hb' => ?_) source _ _)
    obtain ⟨b, hb, hmapping, -⟩ := Engine.binding_congr hlatch.layout.symm hb'
    rw [htarget b hb]
    exact targetOf_congr hlatch.layout.symm hmapping

/-- **A timer that goes off** takes only such steps. -/
theorem steps_tick (use : TimerUse) : Steps t (t.tick use) := by
  unfold tick
  dsimp only
  split
  · exact .refl
  · rename_i b hb
    -- First the timer is dealt with, and the target of its binding stays what it was.
    have hlapse := Step.lapse t use
    have htarget : ∀ b', (t.mapEngine fun e => e.lapse use).engine.bindings[use.binding]? =
        some b' → t.targetOf b = (t.mapEngine fun e => e.lapse use).targetOf b' := by
      intro b' hb'
      obtain ⟨b'', hb'', hmapping, -⟩ := Engine.binding_congr hlapse.layout.symm hb'
      obtain rfl : b = b'' := Option.some.inj (hb.symm.trans hb'')
      exact targetOf_congr hlapse.layout.symm hmapping
    refine Relation.ReflTransGen.trans (.single hlapse) ?_
    cases use.kind with
    | turbo =>
      have hblink := steps_blink _ htarget (t.engine.descriptor b.mapping.source)
      exact hblink.trans (steps_relay _ (fun t c pulse => steps_feed t cascadeRoom c pulse) _ _)
    | release => exact steps_runBinding _ (fun t c pulse => steps_feed t cascadeRoom c pulse) _ _ _
    | repeating => exact steps_goOn _ _ _
    | rotate => exact steps_turnStick _ _ _
    | keyRepeatDelay | keyRepeat => exact steps_repeatKey _ htarget

theorem steps_forceRelease (id : Nat) : Steps t (Engine.forceRelease t id) := by
  unfold Engine.forceRelease
  refine Relation.ReflTransGen.tail ?_ (.plan _ id .stop)
  split
  · exact steps_runBinding _ (fun t c pulse => steps_feed t cascadeRoom c pulse) _ _ _
  · exact .refl

/-- **Releasing several bindings by force** takes only such steps. -/
theorem steps_forceReleases (ids : List Nat) : Steps t (ids.foldl Engine.forceRelease t) :=
  foldl_rel (fun _ => .refl) .trans steps_forceRelease t ids

end Turn

end VirtualPad
