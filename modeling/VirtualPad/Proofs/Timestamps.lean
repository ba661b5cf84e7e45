import VirtualPad.Proofs.Commits

/-!
# The times that snapshots bear

A turn has a time, and the snapshots that it commits bear that time.  The requests that are carried out
after an event are carried out at the time of the event.  So whatever is committed because of an event,
or of a tick, bears the time of that event or tick.

The main result is `Engine.stamped_handle`.
-/

namespace VirtualPad

/-! ## §1 Turns -/

namespace Turn

variable {t t' : Turn}

theorem time_updatePads (t : Turn) (users : List User) (change : Pad → Pad × Bool) :
    (t.updatePads users change).time = t.time := by
  unfold updatePads
  induction users generalizing t with
  | nil => rfl
  | cons user rest ih =>
    rw [List.foldl_cons, ih]
    unfold updatePad noteChange
    dsimp only
    split
    · split <;> rfl
    · rfl

theorem time_writeOutput (t : Turn) (kind : OutputKind) (target : Control) (slot : Slot)
    (down replaces : Bool) : (t.writeOutput kind target slot down replaces).1.time = t.time := by
  unfold writeOutput
  cases t.engine.outputs[target]? with
  | none => rfl
  | some before =>
    cases kind with
    | var => rfl
    | keyboard | mouseButton | customKey =>
      dsimp only
      split <;> rfl

/-- No time passes within a turn. -/
theorem Step.time (h : Step t t') : t'.time = t.time := by
  cases h with
  | latch | plan | lapse | mark | pointer | wheel | request | resend => rfl
  | pads users _ => exact time_updatePads _ users _
  | output slot down replaces => exact time_writeOutput _ _ _ slot down replaces

theorem Steps.time (h : Steps t t') : t'.time = t.time := by
  induction h with
  | refl => rfl
  | tail _ hstep ih => exact hstep.time.trans ih

end Turn

namespace Engine

/-! ## §2 Events -/

variable {e e' e'' : Engine} {time : Nat}

/-- What is committed between two moments bears one time. -/
def Stamped (time : Nat) (e e' : Engine) : Prop :=
  ∃ news, e'.journal.snapshots.toList = e.journal.snapshots.toList ++ news ∧
    ∀ s ∈ news, s.timestamp = time

namespace Stamped

theorem of_same (h : e'.journal.snapshots = e.journal.snapshots) : Stamped time e e' :=
  ⟨[], by simp [h], nofun⟩

theorem trans (h : Stamped time e e') (h' : Stamped time e' e'') : Stamped time e e'' := by
  obtain ⟨news, hnews, htimes⟩ := h
  obtain ⟨more, hmore, htimes'⟩ := h'
  refine ⟨news ++ more, by rw [hmore, hnews, List.append_assoc], fun s hs => ?_⟩
  exact (List.mem_append.mp hs).elim (htimes s) (htimes' s)

theorem commitPads (time : Nat) (users : List User) (e : Engine) :
    Stamped time e (users.foldl (Turn.commitPad time) e) := by
  induction users generalizing e with
  | nil => exact of_same rfl
  | cons user rest ih =>
    have hfirst : Stamped time e (Turn.commitPad time e user) :=
      ⟨[((e.pads.pad user).commit time).snapshot user], by simp [Turn.commitPad], by
        simp [Pad.snapshot, Pad.commit]⟩
    exact hfirst.trans (ih _)

/-- A turn commits at its time, and only when it ends. -/
theorem turn {lastTime : Nat} {t : Turn}
    (h : Turn.Steps { engine := { e with lastTime }, time } t) : Stamped time e t.commit := by
  have hbefore : Stamped time e t.engine :=
    of_same ((Turn.Noted.start User.first e lastTime time).steps h).snapshots
  have hcommitted := commitPads time t.changed t.engine
  have htime : t.time = time := h.time
  refine (hbefore.trans hcommitted).trans (of_same ?_)
  unfold Turn.commit
  rw [htime]
  dsimp only
  split <;> rfl

theorem obey (e : Engine) (r : Request) (time : Nat) : Stamped time e (e.obey r time) := by
  have hactivate : ∀ (e : Engine) (user : User), Stamped time e (e.setActiveUser user) := by
    intro e user
    unfold setActiveUser
    split <;> exact of_same rfl
  unfold Engine.obey
  cases r.command with
  | toggleDisable =>
    dsimp only
    split
    · exact of_same rfl
    · obtain ⟨t, hsteps, hend⟩ := steps_forceReleaseAll e time
      rw [hend]
      exact (turn hsteps).trans (of_same rfl)
  | setActiveUser => exact hactivate e _
  | holdActiveUser =>
    have hremember : ∀ before : Option User, Stamped time e
        (e.mapLatch r.mapping fun l => { l with restoreUser := before }) := fun _ => of_same rfl
    dsimp only
    split
    · exact of_same rfl
    · split
      · exact (hremember _).trans (hactivate _ _)
      · split
        · exact of_same rfl
        · exact (hremember none).trans (hactivate _ _)
  | toggleConnected =>
    dsimp only
    split
    · exact turn (.single (.pads _ [r.user] .connect))
    · exact of_same rfl
  | reload | loadConfig => exact of_same rfl

theorem obeyAll (time bound : Nat) (e : Engine) : Stamped time e (Engine.obeyAll time bound e) := by
  induction bound generalizing e with
  | zero => exact of_same rfl
  | succ bound ih =>
    unfold Engine.obeyAll
    cases e.queue with
    | nil => exact of_same rfl
    | cons r rest =>
      have htaken : Stamped time e { e with queue := rest } := of_same rfl
      exact (htaken.trans (obey _ r time)).trans (ih _)

end Stamped

theorem steps_turnOf? {event : Event} {t : Turn} (h : e.turnOf? event = some t) :
    Turn.Steps { engine := { e with lastTime := event.time }, time := event.time } t := by
  cases event with
  | input source _ down strength time =>
    simp only [turnOf?, Option.dite_none_right_eq_some, Option.some.injEq] at h
    obtain ⟨-, rfl⟩ := h
    exact Turn.steps_feed _ _ source _
  | motion source _ magnitude time =>
    simp only [turnOf?, Option.dite_none_right_eq_some, Option.ite_none_right_eq_some,
      Option.some.injEq] at h
    obtain ⟨-, -, rfl⟩ := h
    exact Turn.steps_feed _ _ source _
  | timer token time =>
    obtain ⟨use, -, rfl⟩ := Option.map_eq_some_iff.mp h
    exact Turn.steps_tick _ use

/-- **What an event leads to is committed at its time.** -/
theorem stamped_handle (e : Engine) (event : Event) : Stamped event.time e (e.handle event) := by
  rw [handle_eq]
  cases hturn : e.turnOf? event with
  | none => exact .of_same rfl
  | some t => exact (Stamped.turn (steps_turnOf? hturn)).trans (.obeyAll _ _ _)

end Engine

end VirtualPad
