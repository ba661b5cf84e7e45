import VirtualPad.Proofs.HostEdges

/-!
# What a turn tells of a key

What the host is told in a turn waits until the turn is committed.  `Turn.told` is what the host has
been told about one control, together with what waits.  It grows by what is written to the cell of the
control, and by nothing else: a binding whose target is another control tells nothing about it, whatever
it does.
-/

namespace VirtualPad

namespace Turn

variable {t t' : Turn} {k : Control} {id : Nat} {b : Binding}

/-! ## §1 Writing to outputs -/

/-- What the host has been told about a control, and is going to be told at the end of the turn. -/
def told (t : Turn) (k : Control) : List Bool :=
  edges k (t.engine.journal.events.toList ++ t.effects.toList)

theorem told_congr (hevents : t'.engine.journal.events = t.engine.journal.events)
    (heffects : t'.effects = t.effects) : t'.told k = t.told k := by
  unfold told
  rw [hevents, heffects]

theorem told_of_untimed (h : t'.engine.untimed = t.engine.untimed) (heffects : t'.effects = t.effects) :
    t'.told k = t.told k :=
  told_congr (congrArg (fun e : Engine => e.journal.events) h :) heffects

theorem told_tell (t : Turn) (event : HostEvent) (k : Control) :
    (t.tell event).told k = t.told k ++ (event.edge? k).toList := by
  show edges k (t.engine.journal.events.toList ++ (t.effects.push event).toList) = _
  rw [Array.toList_push, ← List.append_assoc, edges_append]
  unfold told edges
  cases hedge : event.edge? k <;> simp [hedge]

theorem told_updatePads (t : Turn) (users : List User) (change : Pad → Pad × Bool) :
    (t.updatePads users change).told k = t.told k := by
  refine told_congr ?_ (effects_updatePads t users change)
  rw [engine_updatePads]

/-- Committing a turn tells what has waited until then. -/
theorem told_commit (t : Turn) (time : Nat) (k : Control) :
    Turn.told { engine := t.commit, time } k = t.told k := by
  show edges k (t.commit.journal.events.toList ++ []) = _
  rw [List.append_nil, edges_commit]
  rfl

/-- Writing to another output tells nothing about the key. -/
theorem told_writeOutput_of_ne (t : Turn) (kind : OutputKind) {target : Control} (hne : target ≠ k)
    (slot : Slot) (down replaces : Bool) :
    (t.writeOutput kind target slot down replaces).1.told k = t.told k := by
  have hother : ∀ (t : Turn) (event : HostEvent), event.edge? k = none → (t.tell event).told k = t.told k := by
    intro t event hevent
    rw [told_tell, hevent, Option.toList_none, List.append_nil]
  unfold writeOutput
  cases t.engine.outputs[target]? with
  | none => rfl
  | some before =>
    dsimp only
    cases kind with
    | var => rfl
    | keyboard | mouseButton | customKey =>
      dsimp only
      split
      · refine (hother _ _ ?_).trans rfl
        exact if_neg hne
      · rfl

/-- A key of the keyboard is told whenever its cell changes, and on every press of it. -/
theorem told_writeOutput (t : Turn) (hkey : (t.engine.descriptor k).cell = .output .keyboard)
    (slot : Slot) (down replaces : Bool) :
    let t' := (t.writeOutput .keyboard k slot down replaces).1
    t'.told k = t.told k ++
      if t'.engine.keyHeld k ≠ t.engine.keyHeld k ∨ down = true ∧ t'.engine.keyHeld k = true then
        [t'.engine.keyHeld k] else [] := by
  intro t'
  have htold : Cell.isTold (t.engine.descriptor k).cell = true := by rw [hkey]; rfl
  -- A key without a cell is not held, and writing to it sends nothing.
  cases hbefore : t.engine.outputs[k]? with
  | none =>
    have hsame : t' = t := by
      show (t.writeOutput .keyboard k slot down replaces).1 = t
      unfold writeOutput
      rw [hbefore]
    have hup : t.engine.keyHeld k = false := by
      simp [Engine.keyHeld, hbefore]
    rw [hsame, hup]
    simp
  | some before =>
    obtain ⟨after, hafter⟩ : ∃ after, ButtonCell.set before slot down replaces = after := ⟨_, rfl⟩
    have hstood : t.engine.keyHeld k = before.pressed := by
      simp [Engine.keyHeld, hbefore, htold]
    have hstands : t'.engine.keyHeld k = after.pressed := by
      have hengine := t.engine_writeOutput .keyboard k slot down replaces
      rw [hbefore] at hengine
      rw [show t'.engine = _ from hengine, Engine.keyHeld_insert, if_pos rfl, htold, hafter,
        Bool.true_and]
    have hwritten : t' = if before.differs after || (down && after.pressed) then
        (t.mapEngine fun e => { e with outputs := e.outputs.insert k after }).tell (.key k after.pressed)
        else t.mapEngine fun e => { e with outputs := e.outputs.insert k after } := by
      show (t.writeOutput .keyboard k slot down replaces).1 = _
      unfold writeOutput
      rw [hbefore]
      dsimp only
      rw [hafter]
    -- It is sent if it moves, and again if it is pressed while it is down.
    have hsent : (before.differs after || (down && after.pressed)) = true ↔
        after.pressed ≠ before.pressed ∨ down = true ∧ after.pressed = true := by
      rw [Bool.or_eq_true, Bool.and_eq_true, ButtonCell.differs_iff]
    rw [hstands, hstood]
    by_cases hnews : after.pressed ≠ before.pressed ∨ down = true ∧ after.pressed = true
    · rw [if_pos hnews, hwritten, if_pos (hsent.mpr hnews), told_tell]
      exact congrArg₂ (· ++ ·) rfl (congrArg Option.toList (if_pos rfl))
    · rw [if_neg hnews, hwritten, if_neg fun h => hnews (hsent.mp h), List.append_nil]
      rfl

/-! ## §2 What the parts of a turn tell -/

theorem told_giveCommand (t : Turn) (id : Nat) (command : Command) (r : Response) (forced : Bool) :
    (t.giveCommand id command r forced).told k = t.told k := by
  have hrequests : ∀ (users : List User) (ask : User → Request) (t' : Turn),
      (users.foldl (fun t user => t.request (ask user)) t').told k = t'.told k := by
    intro users ask
    induction users with
    | nil => exact fun _ => rfl
    | cons user rest ih => exact fun t' => (ih _).trans rfl
  unfold giveCommand
  split
  · rfl
  · dsimp only
    split
    · split
      · exact hrequests _ _ t
      · rfl
    · split
      · exact hrequests _ _ t
      · rfl

theorem told_rise (t : Turn) (id : Nat) (m : Mapping) (target : Descriptor) (user : User) :
    (t.rise id m target user).told k = t.told k := by
  unfold rise
  dsimp only
  split
  · split
    · exact (told_updatePads _ _ _).trans rfl
    · rfl
  · rfl

/-- The binding has another target than the key, if there is a binding of that number. -/
def SparesKey (t : Turn) (id : Nat) (k : Control) : Prop :=
  ∀ b, t.engine.bindings[id]? = some b → b.mapping.target ≠ k

theorem SparesKey.congr (h : t.SparesKey id k) (hlayout : t'.engine.layout = t.engine.layout) :
    t'.SparesKey id k := by
  intro b' hb'
  obtain ⟨b, hb, hmapping, -⟩ := Engine.binding_congr hlayout.symm hb'
  rw [← hmapping]
  exact h b hb

theorem told_writeTarget (h : t.SparesKey id k) (source target : Descriptor) (down : Bool)
    (strength : Float) : (t.writeTarget id source target down strength).1.told k = t.told k := by
  unfold writeTarget
  split
  · rfl
  · rename_i b hb
    dsimp only
    split
    · split <;> rfl
    · split <;> rfl
    · exact told_updatePads _ _ _
    · exact told_writeOutput_of_ne _ _ (h b hb) _ _ _
    · rfl

theorem told_perform (h : t.SparesKey id k) (m : Mapping) (source target : Descriptor) (user : User)
    (r : Response) (forced : Bool) :
    (t.perform id m source target user r forced).1.told k = t.told k := by
  obtain ⟨hrise, hspares⟩ : (if r.now && !r.was then t.rise id m target user else t).told k = t.told k ∧
      (if r.now && !r.was then t.rise id m target user else t).SparesKey id k := by
    split
    · exact ⟨told_rise t id m target user, h.congr (steps_rise t id m target user).layout⟩
    · exact ⟨rfl, h⟩
  unfold perform
  generalize (if r.now && !r.was then t.rise id m target user else t) = risen at hrise hspares ⊢
  dsimp only
  split
  · exact (told_giveCommand _ _ _ _ _).trans hrise
  · split
    · obtain ⟨hset, hspares⟩ : (if r.now then risen.mapLatch id fun l => { l with strength := r.strength }
          else risen).told k = t.told k ∧ (if r.now then
          risen.mapLatch id fun l => { l with strength := r.strength } else risen).SparesKey id k := by
        split
        · exact ⟨hrise, hspares.congr (Engine.layout_mapLatch _ _ _)⟩
        · exact ⟨hrise, hspares⟩
      exact (told_writeTarget hspares _ _ _ _).trans hset
    · exact hrise

theorem told_firstStep (h : t.SparesKey id k) (b : Binding) (pulse : Pulse) (forced : Bool)
    (latch : Latch) (response : Option Response) :
    (t.firstStep id b pulse forced latch response).told k = t.told k := by
  cases response with
  | none => rfl
  | some r =>
    have hset : (t.mapLatch id fun _ => latch).SparesKey id k := h.congr (Engine.layout_mapLatch _ _ _)
    exact (told_perform hset _ _ _ _ _ _).trans rfl

/-- What is left to do after a response tells nothing. -/
theorem told_settle (t : Turn) (id : Nat) (m : Mapping) (source target : Descriptor) (r : Response) :
    (t.settle id m source target r).told k = t.told k := by
  have hplan : (t.mapEngine fun e => e.followPlan id
      (m.timerPlan source target t.engine.settings r.was r.now)).told k = t.told k :=
    told_of_untimed (Engine.untimed_followPlan _ _ _) rfl
  unfold settle
  dsimp only
  split
  · exact hplan
  · exact hplan

theorem told_blink (h : t.SparesKey id k) (source target : Descriptor) :
    (t.blink id source target).1.told k = t.told k := by
  have hlit : (t.mapLatch id fun l => { l with lit := !l.lit }).SparesKey id k :=
    h.congr (Engine.layout_mapLatch _ _ _)
  unfold blink
  dsimp only
  split
  · rfl
  · exact (told_writeTarget hlit _ _ _ _).trans rfl

theorem told_goOn (t : Turn) (id : Nat) (target : Descriptor) : (t.goOn id target).told k = t.told k := by
  unfold goOn
  split
  · rfl
  · dsimp only
    split
    · rfl
    · rfl
    · split
      · exact told_updatePads _ _ _
      · rfl
    · rfl

theorem told_turnStick (t : Turn) (id : Nat) (target : Descriptor) :
    (t.turnStick id target).told k = t.told k := by
  unfold turnStick
  split
  · exact told_updatePads _ _ _
  · rfl

theorem told_repeatKey_of_ne (h : t.SparesKey id k) (target : Descriptor) :
    (t.repeatKey id target).told k = t.told k := by
  unfold repeatKey
  split
  · rfl
  · rename_i b hb
    have hother : (t.tell (.key b.mapping.target true)).told k = t.told k := by
      rw [told_tell, show (HostEvent.key b.mapping.target true).edge? k = none from if_neg (h b hb),
        Option.toList_none, List.append_nil]
    exact iteInduction (motive := fun t' : Turn => t'.told k = t.told k) (fun _ => hother) fun _ => rfl

/-- A key that repeats is sent as long as it is held. -/
theorem told_repeatKey (hb : t.engine.bindings[id]? = some b) (hkey : (t.targetOf b).cell = .output .keyboard) :
    (t.repeatKey id (t.targetOf b)).told b.mapping.target =
      t.told b.mapping.target ++ if t.engine.keyHeld b.mapping.target then [true] else [] := by
  have hheld : t.engine.keyHeld b.mapping.target =
      ((t.engine.outputs[b.mapping.target]?).map ButtonCell.pressed).getD false := by
    unfold Engine.keyHeld
    rw [show (t.engine.descriptor b.mapping.target).cell = _ from hkey]
    rfl
  have hsends : t.repeatKey id (t.targetOf b) =
      if t.engine.keyHeld b.mapping.target then t.tell (.key b.mapping.target true) else t := by
    unfold repeatKey
    rw [hb, hheld]
    dsimp only
    rw [hkey]
    cases t.engine.outputs[b.mapping.target]? <;> simp
  rw [hsends]
  split
  · rw [told_tell, show (HostEvent.key b.mapping.target true).edge? b.mapping.target = some true from
      if_pos rfl]
    rfl
  · rw [List.append_nil]

end Turn

end VirtualPad
