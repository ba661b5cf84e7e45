import Mathlib.Order.Fin.Basic
import VirtualPad.Proofs.Fittings
import VirtualPad.Proofs.Looks

/-!
# What the readers are told

Whoever reads a pad is told of each version of it, once and in order.  `Engine.Told` says so between
any two moments: what has been told in between counts the version up, and the last of it is what the
pad looks like now.  If nothing has been told, the pad looks the way it did.

A turn notes the pads that it changes and commits each of them once, at its end.  So all that has to
be kept in mind during a turn is that an unnoted pad still looks the same (`Turn.Noted`).

* `Deed.told`: a deed tells of each pad at most once.
* `nothing_lost`: no operation changes what a pad looks like without telling its readers.
* `versions_per_event`: an event tells of a pad once for its own turn, and once more for each of its
  requests that shows the pad anew.
-/

namespace VirtualPad

namespace Engine

/-- What the readers of a pad have been told so far. -/
def heard (e : Engine) (user : Nat) : List Snapshot :=
  e.journal.snapshots.toList.filter fun s => s.user == user

/-- Between two moments the readers of a pad are told of every version of it. -/
structure Told (user : User) (e e' : Engine) (told : List Snapshot) : Prop where
  heard : e'.heard user = e.heard user ++ told
  versions : told.map Snapshot.version = List.range' ((e.pads.pad user).version + 1) told.length
  version : (e'.pads.pad user).version = (e.pads.pad user).version + told.length
  /-- Nothing has happened to the pad if nothing is told. -/
  quiet : told = [] → (e'.pads.pad user).label = (e.pads.pad user).label ∧
    (e.pads.pad user).Alike (e'.pads.pad user)
  /-- The last that is told is what the pad looks like. -/
  last : ∀ s ∈ told.getLast?, (s.version, s.timestamp) = (e'.pads.pad user).label ∧
    s.Agrees ((e'.pads.pad user).snapshot user)

namespace Told

variable {user : User} {e e' e'' : Engine} {told told' : List Snapshot}

/-- Neither the pads nor the readers have heard of anything. -/
theorem of_same (hpads : e'.pads = e.pads)
    (hsnapshots : e'.journal.snapshots = e.journal.snapshots) : Told user e e' [] := by
  refine ⟨by simp [Engine.heard, hsnapshots], rfl, by simp [hpads], fun _ => ?_, by simp⟩
  rw [hpads]
  exact ⟨rfl, .refl _⟩

theorem refl (user : User) (e : Engine) : Told user e e [] := of_same rfl rfl

/-- What is told between three moments is told in two parts. -/
theorem trans (h : Told user e e' told) (h' : Told user e' e'' told') :
    Told user e e'' (told ++ told') where
  heard := by rw [h'.heard, h.heard, List.append_assoc]
  versions := by
    have hstart : (e.pads.pad user).version + told.length + 1 =
        (e.pads.pad user).version + 1 + told.length := by omega
    rw [List.map_append, h.versions, h'.versions, h.version, hstart, List.length_append,
      List.range'_append_1]
  version := by rw [h'.version, h.version, List.length_append, Nat.add_assoc]
  quiet hnothing := by
    obtain ⟨hfirst, hthen⟩ := List.append_eq_nil_iff.mp hnothing
    obtain ⟨hlabel, halike⟩ := h.quiet hfirst
    obtain ⟨hlabel', halike'⟩ := h'.quiet hthen
    exact ⟨hlabel'.trans hlabel, halike.trans halike'⟩
  last s hs := by
    cases told' with
    | nil =>
      -- Nothing more was told, so the pad still looks like the last of the first part.
      obtain ⟨hlabel, halike⟩ := h'.quiet rfl
      rw [List.append_nil] at hs
      obtain ⟨hs, hagrees⟩ := h.last s hs
      refine ⟨hs.trans hlabel.symm, ?_⟩
      have hnow := halike.agrees user user
      exact hagrees.trans hnow
    | cons next rest =>
      apply h'.last s
      simpa using hs

/-- Afterwards the pads stay the same, and nothing more is told. -/
theorem keep (h : Told user e e' told) (hpads : e''.pads = e'.pads)
    (hsnapshots : e''.journal.snapshots = e'.journal.snapshots) : Told user e e'' told := by
  have hmore := h.trans (of_same hpads hsnapshots)
  rwa [List.append_nil] at hmore

end Told

end Engine

/-! ## §1 Turns -/

namespace Turn

/-- The pads after one of them has been written to. -/
theorem pad_updatePad (t : Turn) (user : User) (change : Pad → Pad × Bool) (other : User) :
    (t.updatePad user change).engine.pads.pad other =
      if other = user then (change (t.engine.pads.pad user)).1 else t.engine.pads.pad other := by
  rw [engine_updatePad]
  by_cases hother : other = user
  · simp [PadBank.pad, PadBank.set, hother]
  · have hplace : user.val ≠ other.val := fun h => hother (Fin.ext h.symm)
    simp [PadBank.pad, PadBank.set, hother, hplace]

/-- A pad that is written to is noted if the change can be seen, and if it was not noted before. -/
theorem changed_updatePad (t : Turn) (user : User) (change : Pad → Pad × Bool) :
    (t.updatePad user change).changed =
      if (change (t.engine.pads.pad user)).2 && !t.changed.contains user then
        t.changed ++ [user] else t.changed := by
  cases hseen : (change (t.engine.pads.pad user)).2 <;>
    by_cases hin : user ∈ t.changed <;> simp [Turn.updatePad, noteChange, hseen, hin, mapEngine]

theorem mem_changed_updatePad (t : Turn) (user : User) (change : Pad → Pad × Bool) (other : User) :
    other ∈ (t.updatePad user change).changed ↔
      other ∈ t.changed ∨ other = user ∧ (change (t.engine.pads.pad user)).2 = true := by
  rw [changed_updatePad]
  cases hseen : (change (t.engine.pads.pad user)).2 with
  | false => simp
  | true =>
    by_cases hin : user ∈ t.changed
    · have hthere : other = user → other ∈ t.changed := fun h => h ▸ hin
      simpa [hin] using hthere
    · simp [hin]

theorem nodup_changed_updatePad {t : Turn} (h : t.changed.Nodup) (user : User)
    (change : Pad → Pad × Bool) : (t.updatePad user change).changed.Nodup := by
  rw [changed_updatePad]
  split
  · rename_i hnew
    simp only [Bool.and_eq_true, Bool.not_eq_true', List.contains_eq_mem,
      decide_eq_false_iff_not] at hnew
    rw [List.nodup_append]
    refine ⟨h, by simp, ?_⟩
    rintro a ha b hb rfl
    exact hnew.2 (List.mem_singleton.mp hb ▸ ha)
  · exact h

/-- During a turn that has begun at the engine `e`, a pad that is not noted looks the way it did.
Nothing has been committed so far. -/
structure Noted (user : User) (e : Engine) (t : Turn) : Prop where
  nodup : t.changed.Nodup
  label : (t.engine.pads.pad user).label = (e.pads.pad user).label
  alike : user ∉ t.changed → (e.pads.pad user).Alike (t.engine.pads.pad user)
  snapshots : t.engine.journal.snapshots = e.journal.snapshots

namespace Noted

variable {user : User} {e : Engine} {t t' : Turn}

theorem start (user : User) (e : Engine) (lastTime time : Nat) :
    Noted user e { engine := { e with lastTime }, time } :=
  ⟨List.nodup_nil, rfl, fun _ => .refl _, rfl⟩

theorem congr (ht : Noted user e t) (hchanged : t'.changed = t.changed)
    (hpads : t'.engine.pads = t.engine.pads)
    (hsnapshots : t'.engine.journal.snapshots = t.engine.journal.snapshots) : Noted user e t' where
  nodup := hchanged ▸ ht.nodup
  label := by rw [hpads, ht.label]
  alike huser := by
    rw [hchanged] at huser
    rw [hpads]
    exact ht.alike huser
  snapshots := hsnapshots.trans ht.snapshots

theorem of_untimed {change : Engine → Engine}
    (huntimed : (change t.engine).untimed = t.engine.untimed) (ht : Noted user e t) :
    Noted user e (t.mapEngine change) := by
  have hpads := congrArg Engine.pads huntimed
  have hsnapshots := congrArg (fun e => e.journal.snapshots) huntimed
  exact ht.congr rfl hpads hsnapshots

/-- A pad that is written to is noted, unless the change cannot be seen. -/
theorem updatePad {change : Pad → Pad × Bool} (ht : Noted user e t) {other : User}
    (h : other = user → ∀ p, (change p).1.label = p.label ∧
      ((change p).2 = false → p.Alike (change p).1)) :
    Noted user e (t.updatePad other change) where
  nodup := nodup_changed_updatePad ht.nodup other change
  label := by
    rw [pad_updatePad, ← ht.label]
    split
    · rename_i hsame
      subst hsame
      exact (h rfl _).1
    · rfl
  alike huser := by
    rw [mem_changed_updatePad, not_or, not_and, Bool.not_eq_true] at huser
    obtain ⟨hbefore, hunseen⟩ := huser
    rw [pad_updatePad]
    split
    · rename_i hsame
      subst hsame
      exact (ht.alike hbefore).trans ((h rfl _).2 (hunseen rfl))
    · exact ht.alike hbefore
  snapshots := by
    rw [engine_updatePad]
    exact ht.snapshots

theorem updatePads {change : Pad → Pad × Bool} (h : Pad.Writing change) (ht : Noted user e t)
    (users : List User) : Noted user e (t.updatePads users change) := by
  induction users generalizing t with
  | nil => exact ht
  | cons first rest ih => exact ih (ht.updatePad fun _ p => ⟨h.label p, h.alike p⟩)

theorem writeOutput (ht : Noted user e t) (kind : OutputKind) (target : Control) (slot : Slot)
    (down replaces : Bool) : Noted user e (t.writeOutput kind target slot down replaces).1 := by
  unfold Turn.writeOutput
  cases t.engine.outputs[target]? with
  | none => exact ht
  | some before =>
    -- The host may be told of the output; no pad is looked at.
    cases kind <;> dsimp only <;> try split
    all_goals exact ht.congr rfl rfl rfl

/-- **Every step of a turn** notes what it changes. -/
theorem step (h : Step t t') (ht : Noted user e t) : Noted user e t' := by
  cases h with
  | latch | mark | pointer | wheel | request | resend => exact ht.congr rfl rfl rfl
  | plan id plan => exact of_untimed (Engine.untimed_followPlan _ id plan) ht
  | lapse use => exact of_untimed (Engine.untimed_lapse _ use) ht
  | pads users h => exact ht.updatePads h users
  | output slot down replaces => exact ht.writeOutput _ _ slot down replaces

theorem steps (h : Steps t t') (ht : Noted user e t) : Noted user e t' := by
  induction h with
  | refl => exact ht
  | tail _ hstep ih => exact step hstep ih

end Noted

/-- Committing several pads, each once, commits those of them that are on the list. -/
theorem commitPads_spec (time : Nat) {users : List User} (hnodup : users.Nodup) (e : Engine)
    (user : User) :
    (users.foldl (commitPad time) e).pads.pad user =
        (if user ∈ users then (e.pads.pad user).commit time else e.pads.pad user) ∧
      (users.foldl (commitPad time) e).heard user = e.heard user ++
        (if user ∈ users then [((e.pads.pad user).commit time).snapshot user] else []) := by
  induction users generalizing e with
  | nil => simp
  | cons first rest ih =>
    obtain ⟨hfirst, hrest⟩ := List.nodup_cons.mp hnodup
    obtain ⟨hpad, hheard⟩ := ih hrest (commitPad time e first)
    rw [List.foldl_cons, hpad, hheard]
    by_cases hsame : user = first
    · subst hsame
      simp [hfirst, commitPad, Engine.heard, Pad.snapshot, PadBank.pad, PadBank.set]
    · have hplace : first.val ≠ user.val := fun h => hsame (Fin.ext h.symm)
      simp [hsame, commitPad, Engine.heard, Pad.snapshot, PadBank.pad, PadBank.set, hplace]

/-- What a turn tells of a pad when it ends. -/
def tells (t : Turn) (user : User) : List Snapshot :=
  if user ∈ t.changed then [((t.engine.pads.pad user).commit t.time).snapshot user] else []

theorem length_tells (t : Turn) (user : User) : (t.tells user).length ≤ 1 := by
  unfold tells
  split <;> simp

/-- **A turn that ends** tells of each pad that it has noted, and of each of them once. -/
theorem Noted.told {user : User} {e : Engine} {t : Turn} (ht : Noted user e t) :
    Engine.Told user e t.commit (t.tells user) := by
  obtain ⟨hpad, hheard⟩ := commitPads_spec t.time ht.nodup t.engine user
  have hpads : t.commit.pads = (t.changed.foldl (commitPad t.time) t.engine).pads := by
    unfold commit
    dsimp only
    split <;> rfl
  have hsnapshots : t.commit.heard user =
      (t.changed.foldl (commitPad t.time) t.engine).heard user := by
    unfold commit
    dsimp only
    split <;> rfl
  have hbefore : t.engine.heard user = e.heard user := by
    simp [Engine.heard, ht.snapshots]
  have hversion : (t.engine.pads.pad user).version = (e.pads.pad user).version :=
    congrArg Prod.fst ht.label
  rw [hbefore] at hheard
  unfold tells
  -- A user that the turn has noted gets a version and a snapshot; the others keep what they have.
  by_cases hnoted : user ∈ t.changed
  · rw [if_pos hnoted] at hpad hheard ⊢
    constructor
    · exact hsnapshots.trans hheard
    · simp [Pad.snapshot, Pad.commit, hversion]
    · rw [hpads, hpad]
      simp [Pad.commit, hversion]
    · simp
    · rintro s hs
      obtain rfl : _ = s := by simpa using hs
      rw [hpads, hpad]
      exact ⟨rfl, (Pad.Alike.refl _).agrees user user⟩
  · rw [if_neg hnoted] at hpad hheard ⊢
    constructor
    · exact hsnapshots.trans hheard
    · rfl
    · rw [hpads, hpad, hversion]
      rfl
    · intro _
      rw [hpads, hpad]
      exact ⟨ht.label, ht.alike hnoted⟩
    · simp

end Turn

namespace Engine

/-! ## §2 Deeds -/

/-- A deed is an errand, or it is one turn; switching off comes after the turn that releases. -/
theorem Deed.turn_or_errand {e e' : Engine} (h : Deed e e') : Errand e e' ∨
    ∃ (lastTime time : Nat) (t : Turn), Turn.Steps { engine := { e with lastTime }, time } t ∧
      (e' = t.commit ∨ e' = t.commit.switchOff) := by
  cases h with
  | duty h =>
    cases h with
    | errand h => exact .inl h
    | switchOff time =>
      obtain ⟨t, hsteps, hend⟩ := steps_forceReleaseAll e time
      exact .inr ⟨e.lastTime, time, t, hsteps, .inr (congrArg switchOff hend)⟩
    | connect user time =>
      exact .inr ⟨e.lastTime, time, _, .single (.pads _ [user] .connect), .inl rfl⟩
  | feed c pulse time =>
    exact .inr ⟨time, time, _, Turn.steps_feed _ _ c pulse, .inl rfl⟩
  | expire huse time => exact .inr ⟨time, time, _, Turn.steps_tick _ _, .inl rfl⟩
  | release time =>
    obtain ⟨t, hsteps, hend⟩ := steps_forceReleaseAll e time
    exact .inr ⟨e.lastTime, time, t, hsteps, .inl hend⟩

theorem Errand.told {e e' : Engine} (h : Errand e e') (user : User) : Told user e e' [] := by
  cases h with
  | take | forward | enable | activate | remember | pass => exact .of_same rfl rfl

/-- **A deed tells of each pad at most once.** -/
theorem Deed.told {e e' : Engine} (h : Deed e e') (user : User) :
    ∃ told, Told user e e' told ∧ told.length ≤ 1 := by
  rcases h.turn_or_errand with herrand | ⟨lastTime, time, t, hsteps, hend⟩
  · exact ⟨[], herrand.told user, by simp⟩
  · have htold := ((Turn.Noted.start user e lastTime time).steps hsteps).told
    refine ⟨t.tells user, ?_, t.length_tells user⟩
    rcases hend with rfl | rfl
    · exact htold
    · exact htold.keep rfl rfl

theorem Deeds.told {e e' : Engine} (h : Deeds e e') (user : User) :
    ∃ told, Told user e e' told := by
  induction h with
  | refl => exact ⟨[], .refl user e⟩
  | tail _ hdeed ih =>
    obtain ⟨told, htold⟩ := ih
    obtain ⟨more, hmore, -⟩ := hdeed.told user
    exact ⟨told ++ more, htold.trans hmore⟩

/-! ## §3 Nothing is lost -/

/-- What a reader sees of a user's pad, if the user has one. -/
theorem snapshot?_eq_some {e : Engine} {user : Nat} {s : Snapshot} : e.snapshot? user = some s ↔
    ∃ h : user < userLimit, user < e.pads.count ∧ (e.pads.pad ⟨user, h⟩).snapshot user = s := by
  unfold snapshot? PadBank.snapshot?
  constructor
  · intro hs
    split at hs
    · rename_i hlimit
      split at hs
      · rename_i hcount
        exact ⟨hlimit, hcount, Option.some.inj hs⟩
      · simp at hs
    · simp at hs
  · rintro ⟨hlimit, hcount, rfl⟩
    simp [hlimit, hcount, PadBank.pad]

/-- Something happens to an engine from outside that leaves its configuration in place. -/
inductive Happens : Engine → Engine → Prop
  | call (e : Engine) {call : Call} (hcall : ∀ config, call ≠ .reload config) :
      Happens e (e.after call)
  | timer (e : Engine) (token : TimerToken) (time : Nat) : Happens e (e.onTimer token time)

theorem Happens.deeds {e e' : Engine} (h : Happens e e') : Deeds e e' := by
  cases h with
  | call hcall => exact deeds_after e hcall
  | timer token time => exact deeds_onTimer e token time

/-- **Nothing that happens to a pad is lost on its readers.**  They are told of every version in
turn, and the last that they are told is what the pad shows from then on.  A pad that has kept its
version shows what it showed before. -/
theorem nothing_lost {e e' : Engine} (h : Happens e e') {user : Nat} {s : Snapshot}
    (hs : e.snapshot? user = some s) :
    ∃ s' told, e'.snapshot? user = some s' ∧ e'.heard user = e.heard user ++ told ∧
      told.map Snapshot.version = List.range' (s.version + 1) told.length ∧
      s'.version = s.version + told.length ∧
      (s'.version = s.version → s.Agrees s' ∧ s'.timestamp = s.timestamp) ∧
      ∀ last ∈ told.getLast?, last.version = s'.version ∧ last.timestamp = s'.timestamp ∧
        last.Agrees s' := by
  obtain ⟨hlimit, hcount, rfl⟩ := snapshot?_eq_some.mp hs
  obtain ⟨told, htold⟩ := h.deeds.told ⟨user, hlimit⟩
  -- The number of pads is a part of the layout.
  have hcount' : e'.pads.count = e.pads.count := congrArg Layout.users h.deeds.layout
  refine ⟨_, told, snapshot?_eq_some.mpr ⟨hlimit, hcount' ▸ hcount, rfl⟩, htold.heard,
    htold.versions, htold.version, fun hsame => ?_, fun last hlast => ?_⟩
  · have hnothing : told = [] := by
      have hgrown := htold.version
      simp only [Pad.snapshot] at hsame
      apply List.eq_nil_of_length_eq_zero
      omega
    obtain ⟨hlabel, halike⟩ := htold.quiet hnothing
    exact ⟨halike.agrees user user, congrArg Prod.snd hlabel⟩
  · obtain ⟨hlabel, hagrees⟩ := htold.last last hlast
    exact ⟨congrArg Prod.fst hlabel, congrArg Prod.snd hlabel, hagrees⟩

/-- The key A holds a button of the first pad, and disconnects the pad when it is released. -/
def unpluggingConfig : ConfigFile :=
  { mappings :=
      [{ source := "A", target := "PadA" }, { source := "A", target := "ToggleConnected" }] }

/-- The engine after A has been pressed. -/
def unplugging : Engine := (ofConfig unpluggingConfig.compile).after (.input ⟨0x41⟩ 0 true 1 0)

/-- When A is released, the readers are told of two versions, and the second is what they see. -/
theorem nothing_lost_unplugging : Reachable Config.IsCompiled unplugging ∧
    ∃ (s s' : Snapshot) (told : List Snapshot), unplugging.snapshot? 0 = some s ∧
      (unplugging.after (.input ⟨0x41⟩ 0 false 1 1)).snapshot? 0 = some s' ∧
      told.map Snapshot.version = [2, 3] ∧ ∀ last ∈ told.getLast?, last.Agrees s' := by
  have hboth : ((unplugging.snapshot? 0).map Snapshot.version,
      ((unplugging.after (.input ⟨0x41⟩ 0 false 1 1)).snapshot? 0).map Snapshot.version) =
      (some 1, some 3) := by
    decide +kernel
  obtain ⟨hshown, hgrown⟩ := Prod.mk.inj hboth
  obtain ⟨s, hs, hversion⟩ := Option.map_eq_some_iff.mp hshown
  have hreleased : Happens unplugging (unplugging.after (.input ⟨0x41⟩ 0 false 1 1)) :=
    .call unplugging (by simp)
  obtain ⟨s', told, hs', -, hversions, hlength, -, hlast⟩ := nothing_lost hreleased hs
  have htwo : told.length = 2 := by
    rw [hs'] at hgrown
    have hthree : s'.version = 3 := Option.some.inj hgrown
    omega
  refine ⟨(Reachable.compiled _).input .., s, s', told, hs, hs', ?_, fun last h => (hlast last h).2.2⟩
  rw [hversions, hversion, htwo]
  rfl

/-! ## §4 What one event tells -/

/-- An event that the engine is given. -/
inductive Event where
  | input (source : Control) (user : Nat) (down : Bool) (strength : Float) (time : Nat)
  | motion (source : Control) (user : Nat) (magnitude : Float) (time : Nat)
  | timer (token : TimerToken) (time : Nat)

/-- When an event takes place. -/
def Event.time : Event → Nat
  | .input _ _ _ _ time => time
  | .motion _ _ _ time => time
  | .timer _ time => time

/-- The engine after an event. -/
def handle (e : Engine) : Event → Engine
  | .input source user down strength time => (e.processInput source user down strength time).1
  | .motion source user magnitude time => (e.processRelative source user magnitude time).1
  | .timer token time => e.onTimer token time

/-- The turn that an event begins with; an event that goes unheard takes none. -/
def turnOf? (e : Engine) : Event → Option Turn
  | .input source user down strength time =>
    if h : user < userLimit then
      let strength := if strength.isFinite then Scalar.clamp strength 0 1 else 1
      some (Turn.feed (cascadeRoom + 1) { engine := { e with lastTime := time }, time } source
        { user := ⟨user, h⟩, down, strength }).1
    else none
  | .motion source user magnitude time =>
    if h : user < userLimit then
      if magnitude.isFinite then
        some (Turn.feed (cascadeRoom + 1) { engine := { e with lastTime := time }, time } source
          { user := ⟨user, h⟩, down := magnitude != 0, strength := magnitude.abs }).1
      else none
    else none
  | .timer token time =>
    (e.timerUse? token).map fun use =>
      ({ engine := { e with lastTime := time }, time } : Turn).tick use

/-- An event is its turn, and what is requested in it is carried out afterwards. -/
theorem handle_eq (e : Engine) (event : Event) : e.handle event =
    match e.turnOf? event with
    | none => e
    | some t => t.commit.drainQueue event.time := by
  cases event with
  | input source user down strength time =>
    simp only [handle, processInput, turnOf?]
    split <;> rfl
  | motion source user magnitude time =>
    simp only [handle, processRelative, turnOf?]
    split
    · split <;> rfl
    · rfl
  | timer token time =>
    simp only [handle, onTimer, turnOf?]
    cases e.timerUse? token <;> rfl

theorem noted_turnOf? {e : Engine} {event : Event} {t : Turn} (h : e.turnOf? event = some t)
    (user : User) : Turn.Noted user e t := by
  cases event with
  | input source _ down strength time =>
    simp only [turnOf?, Option.dite_none_right_eq_some, Option.some.injEq] at h
    obtain ⟨-, rfl⟩ := h
    exact (Turn.Noted.start user e time time).steps (Turn.steps_feed _ _ source _)
  | motion source _ magnitude time =>
    simp only [turnOf?, Option.dite_none_right_eq_some, Option.ite_none_right_eq_some,
      Option.some.injEq] at h
    obtain ⟨-, -, rfl⟩ := h
    exact (Turn.Noted.start user e time time).steps (Turn.steps_feed _ _ source _)
  | timer token time =>
    obtain ⟨use, -, rfl⟩ := Option.map_eq_some_iff.mp h
    exact (Turn.Noted.start user e time time).steps (Turn.steps_tick _ use)

/-- How often carrying out a request takes a turn that shows the pad of a user anew: switching the
mappings off does, and so does connecting or disconnecting that pad. -/
def repaints (e : Engine) (user : User) (r : Request) : Nat :=
  match r.command with
  | .toggleDisable => if e.disabled then 0 else 1
  | .toggleConnected => if r.user = user ∧ r.user < e.userCount then 1 else 0
  | _ => 0

/-- How often carrying out all requests does so. -/
def repaintsAll (user : User) (time : Nat) : Nat → Engine → Nat
  | 0, _ => 0
  | bound + 1, e =>
    match e.queue with
    | [] => 0
    | r :: rest =>
      let e := { e with queue := rest }
      e.repaints user r + repaintsAll user time bound (e.obey r time)

/-- How often the requests of an event show the pad of a user anew, after the event's own turn. -/
def repaintsAfter (e : Engine) (user : User) (event : Event) : Nat :=
  match e.turnOf? event with
  | none => 0
  | some t =>
    repaintsAll user event.time (t.commit.queue.length + userLimit * t.commit.bindings.size)
      t.commit

theorem Told.setActiveUser {user : User} {e e' : Engine} {told : List Snapshot}
    (h : Told user e e' told) (next : User) : Told user e (e'.setActiveUser next) told := by
  unfold Engine.setActiveUser
  split
  · exact h.keep rfl rfl
  · exact h

/-- **A request** tells of a pad only if it shows the pad anew. -/
theorem told_obey (e : Engine) (r : Request) (time : Nat) (user : User) :
    ∃ told, Told user e (e.obey r time) told ∧ told.length ≤ e.repaints user r := by
  unfold obey repaints
  cases r.command with
  | toggleDisable =>
    dsimp only
    split
    · exact ⟨[], .of_same rfl rfl, Nat.zero_le _⟩
    · -- The forced release is one turn.
      obtain ⟨told, htold, hone⟩ := (Deed.release e time).told user
      exact ⟨told, htold.keep rfl rfl, hone⟩
  | setActiveUser => exact ⟨[], (Told.refl user e).setActiveUser r.user, Nat.zero_le _⟩
  | holdActiveUser =>
    refine ⟨[], ?_, Nat.zero_le _⟩
    have hremember : ∀ before : Option User,
        Told user e (e.mapLatch r.mapping fun l => { l with restoreUser := before }) [] :=
      fun before => .of_same rfl rfl
    dsimp only
    split
    · exact .refl user e
    · split
      · exact (hremember _).setActiveUser r.user
      · split
        · exact .refl user e
        · exact (hremember none).setActiveUser _
  | toggleConnected =>
    dsimp only
    by_cases hpad : r.user < e.userCount
    · rw [if_pos hpad]
      -- The turn notes the pad of the request, and no other one.
      have hnoted := (Turn.Noted.start user e e.lastTime time).updatePads .connect [r.user]
      refine ⟨_, hnoted.told, ?_⟩
      by_cases hsame : r.user = user
      · simpa [hsame, hsame ▸ hpad] using Turn.length_tells _ _
      · have hunnoted : user ∉ (({ engine := e, time } : Turn).updatePads [r.user] fun pad =>
            ({ pad with connected := !pad.connected }, true)).changed := by
          simp [Turn.updatePads, Turn.mem_changed_updatePad, Ne.symm hsame]
        simp [Turn.tells, hunnoted]
    · rw [if_neg hpad]
      exact ⟨[], .refl user e, Nat.zero_le _⟩
  | reload | loadConfig => exact ⟨[], .of_same rfl rfl, Nat.zero_le _⟩

/-- Carrying out all requests tells of a pad as often as they show it anew, at most. -/
theorem told_obeyAll (user : User) (time bound : Nat) (e : Engine) :
    ∃ told, Told user e (obeyAll time bound e) told ∧
      told.length ≤ repaintsAll user time bound e := by
  induction bound generalizing e with
  | zero => exact ⟨[], .refl user e, Nat.le_refl _⟩
  | succ bound ih =>
    unfold obeyAll repaintsAll
    cases hqueue : e.queue with
    | nil => exact ⟨[], .refl user e, Nat.le_refl _⟩
    | cons r rest =>
      obtain ⟨told, htold, hfirst⟩ := told_obey { e with queue := rest } r time user
      obtain ⟨more, hmore, hrest⟩ := ih (({ e with queue := rest } : Engine).obey r time)
      have htaken : Told user e { e with queue := rest } [] := .of_same rfl rfl
      refine ⟨told ++ more, (htaken.trans htold).trans hmore, ?_⟩
      simpa using Nat.add_le_add hfirst hrest

/-- **An event** tells of a pad once at most for its own turn, and beyond that only as often as its
requests show the pad anew.  The version grows by one for each time. -/
theorem versions_per_event (e : Engine) (event : Event) (user : User) :
    ∃ told, (e.handle event).heard user = e.heard user ++ told ∧
      ((e.handle event).pads.pad user).version = (e.pads.pad user).version + told.length ∧
      told.length ≤ 1 + e.repaintsAfter user event := by
  have htold : ∃ told, Told user e (e.handle event) told ∧
      told.length ≤ 1 + e.repaintsAfter user event := by
    rw [handle_eq]
    unfold repaintsAfter
    cases hturn : e.turnOf? event with
    | none => exact ⟨[], .refl user e, Nat.zero_le _⟩
    | some t =>
      obtain ⟨more, hmore, hrest⟩ := told_obeyAll user event.time
        (t.commit.queue.length + userLimit * t.commit.bindings.size) t.commit
      refine ⟨t.tells user ++ more, (noted_turnOf? hturn user).told.trans hmore, ?_⟩
      simpa using Nat.add_le_add (t.length_tells user) hrest
  obtain ⟨told, htold, hbound⟩ := htold
  exact ⟨told, htold.heard, htold.version, hbound⟩

/-- One event that tells of a pad twice: releasing A lets go of the button, and then the pad is
disconnected in a turn of its own. -/
theorem told_twice_unplugging : Reachable Config.IsCompiled unplugging ∧
    (unplugging.pads.pad User.first).version = 1 ∧
    ((unplugging.handle (.input ⟨0x41⟩ 0 false 1 1)).pads.pad User.first).version = 3 ∧
    ((unplugging.handle (.input ⟨0x41⟩ 0 false 1 1)).heard 0).length =
      (unplugging.heard 0).length + 2 := by
  have hrun : ((unplugging.pads.pad User.first).version,
      ((unplugging.handle (.input ⟨0x41⟩ 0 false 1 1)).pads.pad User.first).version,
      ((unplugging.handle (.input ⟨0x41⟩ 0 false 1 1)).heard 0).length) =
      (1, 3, (unplugging.heard 0).length + 2) := by
    decide +kernel
  obtain ⟨hbefore, hrest⟩ := Prod.mk.inj hrun
  exact ⟨(Reachable.compiled _).input .., hbefore, Prod.mk.inj hrest⟩

end Engine

end VirtualPad
