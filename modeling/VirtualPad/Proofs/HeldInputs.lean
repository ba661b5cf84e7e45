import VirtualPad.Proofs.Followers

/-!
# What is held is what the pads show

As long as all mappings are plain and presses come with full strength, an engine stays tidy from its
start (`Engine.Tidy.afterAll`).  What the slots of a tidy engine hold goes by the board alone: a slot
holds a deposit just if the source of the mapping that the slot belongs to is down
(`Engine.Tidy.deposit_eq_some_iff`).  So the pads show what is held, however it came to be held.
-/

namespace VirtualPad

/-- Boards whose lines are down alike show the same as down. -/
theorem Switchboard.isDown_of_lines {b b' : Switchboard}
    (h : b.lines.toList.map (fun p => (p.1, p.2.down)) =
      b'.lines.toList.map fun p => (p.1, p.2.down)) (c : Control) (user : Nat) :
    b.isDown c user = b'.isDown c user := by
  have hdown : ∀ b : Switchboard, b.isDown c user = true ↔
      ∃ down : Mask, (c, down) ∈ b.lines.toList.map (fun p => (p.1, p.2.down)) ∧
        down.has user = true := by
    intro b
    unfold isDown isDown? line?
    simp only [List.mem_map, Prod.mk.injEq, Prod.exists, Std.TreeMap.mem_toList_iff_getElem?_eq_some]
    cases hline : b.lines[c]? with
    | none => simp [hline]
    | some line => simp [hline, Line.isDown]
  rw [Bool.eq_iff_iff, hdown, hdown, h]

/-! ## §1 No commands, no requests -/

/-- No mapping is to a command. -/
def Engine.Commandless (e : Engine) : Prop :=
  ∀ (id : Nat) (b : Binding), e.bindings[id]? = some b →
    ∀ command, (e.descriptor b.mapping.target).cell ≠ .command command

theorem Engine.Commandless.congr {e e' : Engine} (he : e.Commandless)
    (hlayout : e'.layout = e.layout) : e'.Commandless := by
  intro id b' hb'
  obtain ⟨b, hb, hmapping, -⟩ := Engine.binding_congr hlayout.symm hb'
  rw [← hmapping, Engine.descriptor_congr hlayout]
  exact he id b hb

namespace Turn

/-- Without commands no request is made in between. -/
def Silent (t t' : Turn) : Prop :=
  t'.engine.layout = t.engine.layout ∧ (t.engine.Commandless → t'.requests = t.requests)

theorem Silent.refl (t : Turn) : Silent t t := ⟨rfl, fun _ => rfl⟩

theorem Silent.trans {t t' t'' : Turn} (h : Silent t t') (h' : Silent t' t'') : Silent t t'' :=
  ⟨h'.1.trans h.1, fun ht => (h'.2 (ht.congr h.1)).trans (h.2 ht)⟩

theorem silent_settle (t : Turn) (id : Nat) (m : Mapping) (source target : Descriptor)
    (r : Response) : Silent t (t.settle id m source target r) := by
  refine ⟨(t.steps_settle id m source target r).layout, fun _ => ?_⟩
  unfold settle
  dsimp only
  split <;> rfl

theorem silent_firstStep {t : Turn} {id : Nat} {b : Binding} {pulse : Pulse} {forced : Bool}
    {latch : Latch} {response : Option Response} (hb : t.engine.bindings[id]? = some b)
    (hrespond : b.latch.respond b.mapping (t.sourceOf b) (t.targetOf b) pulse.down pulse.strength
      forced = (latch, response)) :
    Silent t (t.firstStep id b pulse forced latch response) := by
  refine ⟨(t.steps_firstStep hb pulse forced latch response).layout, fun ht => ?_⟩
  cases response with
  | none => rfl
  | some r =>
    rw [requests_firstStep hb pulse forced (Latch.respond_applied hrespond) r,
      asks_of_not_command (ht id b hb), List.append_nil]

theorem silent_runBinding {onVar : Listener} (hvar : ∀ t c pulse, Silent t (onVar t c pulse).1)
    (t : Turn) (id : Nat) (pulse : Pulse) (forced : Bool) :
    Silent t (t.runBinding onVar id pulse forced).1 := by
  refine runBinding_cases (P := Silent t) (fun _ => .refl t)
    (fun b latch hb _ hrespond => silent_firstStep hb hrespond) fun b latch r hb _ hrespond => ?_
  refine Silent.trans ((silent_firstStep hb hrespond).trans ?_) (silent_settle _ id _ _ _ r)
  cases t.firstEcho id b pulse forced latch (some r) with
  | none => exact .refl _
  | some echo => exact hvar _ _ echo

/-- The end of a turn labels pads and leaves their cells alone. -/
theorem sameCells_commit (t : Turn) (user : User) :
    (t.commit.pads.pad user).SameCells (t.engine.pads.pad user) := by
  refine commit_keeps (P := fun e => (e.pads.pad user).SameCells (t.engine.pads.pad user))
    (fun {e e'} hchore he => ?_) t ⟨rfl, rfl, rfl⟩
  cases hchore with
  | note | enable | activate | remember | advance => exact he
  | label other pad hsame =>
    by_cases huser : other = user
    · subst huser
      have hset : (e.pads.set other pad).pad other = pad := by simp [PadBank.pad, PadBank.set]
      show ((e.pads.set other pad).pad other).SameCells _
      rw [hset]
      exact ⟨hsame.1.trans he.1, hsame.2.1.trans he.2.1, hsame.2.2.trans he.2.2⟩
    · have hne : other.val ≠ user.val := fun h => huser (Fin.ext h)
      have hset : (e.pads.set other pad).pad user = e.pads.pad user := by
        simp [PadBank.pad, PadBank.set, hne]
      show ((e.pads.set other pad).pad user).SameCells _
      rw [hset]
      exact he

/-- **A source that moves makes no requests** if there are no commands. -/
theorem silent_feed (room : Nat) (t : Turn) (c : Control) (pulse : Pulse) :
    Silent t (feed room t c pulse).1 :=
  feed_rel Silent.refl Silent.trans (fun t c user down =>
    ⟨Engine.layout_setBoard t.engine c user down, fun _ => rfl⟩)
    (fun _ hvar => silent_runBinding hvar) room t c pulse

end Turn

/-! ## §2 Input after input -/

/-- The call presses or releases a control that is no pair, and if it presses it, all the way. -/
def Call.IsFullInput (v : Vocabulary) : Call → Prop
  | .input source _ down strength _ =>
    (down = true → strength = 1) ∧ (v.descriptor source).pair = none
  | _ => False

instance (v : Vocabulary) : (call : Call) → Decidable (call.IsFullInput v)
  | .input _ _ down strength _ => inferInstanceAs (Decidable ((down = true → strength = 1) ∧ _))
  | .motion .. | .runUntil _ | .releaseAll _ | .reload _ => inferInstanceAs (Decidable False)

/-- Such a call installs nothing. -/
theorem Call.IsFullInput.admitted {v : Vocabulary} {call : Call} (h : call.IsFullInput v)
    {admits : Config → Prop} : call.Admitted admits := by
  cases call with
  | input => exact trivial
  | motion | runUntil | releaseAll | reload => exact h.elim

namespace Engine

variable {e e' : Engine}

namespace Tidy

theorem commandless {S : Nat → Prop} (he : Tidy S e) : e.Commandless := by
  intro id b hb command hcommand
  obtain ⟨cell, hcell⟩ := (he.plain id b hb).target
  rw [show (e.descriptor b.mapping.target).cell = .pad cell from hcell] at hcommand
  contradiction

/-- The end of a turn changes no latch and no cell. -/
theorem commit {S : Nat → Prop} {t : Turn} (ht : Tidy S t.engine) : Tidy S t.commit := by
  obtain ⟨pads, queue, remainder, snapshots, events, hcommit, hcount⟩ := t.commit_frame
  refine ht.congr ?_ ?_ (fun id => ?_) t.sameCells_commit
  · rw [hcommit]
    exact layout_write t.engine t.engine.outputs hcount
  · rw [hcommit]
    rfl
  · rw [hcommit]
    rfl

/-- **After a source has been pressed all the way or released** the engine is tidy again, and the
active user is who it was. -/
theorem accept {admits : Config → Prop} (he : Tidy (fun _ => False) e) (hattended : Attended admits e)
    (c : Control) (pulse : Pulse) (time : Nat) (hfull : pulse.down = true → pulse.strength = 1) :
    Tidy (fun _ => False) (e.accept c pulse time).1 ∧
      (e.accept c pulse time).1.activeUser = e.activeUser := by
  let noted : Turn := { engine := { e with lastTime := time }, time }
  have hnoted : Tidy (fun _ => False) noted.engine :=
    he.congr rfl rfl (fun _ => rfl) fun _ => ⟨rfl, rfl, rfl⟩
  have hfed : Tidy (fun _ => False) (Turn.feed (cascadeRoom + 1) noted c pulse).1.engine :=
    hnoted.feed (cascadeRoom - 1) (hattended.operated.wired.congr rfl)
      (fun pair hpair => hattended.inStep hpair _ time) hfull
  have hsteps := noted.steps_feed (cascadeRoom + 1) c pulse
  have hsilent := Turn.silent_feed (cascadeRoom + 1) noted c pulse
  have hqueue : (Turn.feed (cascadeRoom + 1) noted c pulse).1.commit.queue = [] := by
    rw [Turn.queue_commit, hsteps.queue, hsilent.2 hnoted.commandless]
    exact (List.append_nil _).trans hattended.operated.queue_nil
  have haccept : (e.accept c pulse time).1 =
      (Turn.feed (cascadeRoom + 1) noted c pulse).1.commit := drainQueue_of_nil hqueue time
  rw [haccept]
  refine ⟨hfed.commit, ?_⟩
  obtain ⟨_, _, _, _, _, hcommit, -⟩ :=
    (Turn.feed (cascadeRoom + 1) noted c pulse).1.commit_frame
  rw [hcommit]
  exact hsteps.gates.1

theorem after {admits : Config → Prop} (he : Tidy (fun _ => False) e)
    (hattended : Attended admits e) {call : Call} (hcall : call.IsFullInput e.vocabulary) :
    Tidy (fun _ => False) (e.after call) ∧ (e.after call).activeUser = e.activeUser := by
  cases call with
  | motion | runUntil | releaseAll | reload => exact hcall.elim
  | input source user down strength time =>
    unfold Engine.after processInput
    dsimp only
    split
    · refine he.accept hattended source _ time fun hdown => ?_
      have hone : strength = 1 := hcall.1 hdown
      subst hone
      have hclamp : (if (1 : Float).isFinite then Scalar.clamp (1 : Float) 0 1 else 1) = 1 := by
        decide +kernel
      exact hclamp
    · exact ⟨he, rfl⟩

/-- The calls lead from the engine to a tidy one of the same layout. -/
theorem afterAll {admits : Config → Prop} (calls : List Call) (he : Tidy (fun _ => False) e)
    (hattended : Attended admits e) (hcalls : ∀ call ∈ calls, call.IsFullInput e.vocabulary) :
    Tidy (fun _ => False) (e.afterAll calls) ∧ (e.afterAll calls).activeUser = e.activeUser ∧
      Deeds e (e.afterAll calls) := by
  induction calls generalizing e with
  | nil => exact ⟨he, rfl, .refl⟩
  | cons call rest ih =>
    obtain ⟨hcall, hrest⟩ := List.forall_mem_cons.mp hcalls
    obtain ⟨htidy, hactive⟩ := he.after hattended hcall
    have hdeeds : Deeds e (e.after call) := deeds_after e fun config hreload => by
      rw [hreload] at hcall
      exact hcall
    have hvocabulary : (e.after call).vocabulary = e.vocabulary :=
      congrArg Layout.vocabulary hdeeds.layout
    have hafter : Attended admits (e.after call) := by
      cases call with
      | motion | runUntil | releaseAll | reload => exact hcall.elim
      | input source user down strength time =>
        exact hattended.call (hcall.admitted)
          fun c hc => Option.some.inj hc ▸ hcall.2
    obtain ⟨htidy', hactive', hdeeds'⟩ := ih htidy hafter (hvocabulary.symm ▸ hrest)
    exact ⟨htidy', hactive'.trans hactive, hdeeds.trans hdeeds'⟩

end Tidy

/-! ## §3 What the slots hold -/

theorem direct_bind (he : ∀ user, (e.pads.pad user).Direct) (m : Mapping) (user : User) :
    ((e.bind m).pads.pad user).Direct := by
  have hclaim : ∀ (users : List User) (cell : PadCell) (slot : Slot) (b : PadBank),
      (∀ user, (b.pad user).Direct) → ∀ user, ((b.claim users cell slot).pad user).Direct := by
    intro users cell slot
    induction users with
    | nil => exact fun b hb => hb
    | cons first rest ih =>
      intro b hb
      refine ih _ fun other => ?_
      by_cases hsame : first = other
      · subst hsame
        simpa [PadBank.pad, PadBank.set] using (hb first).claim cell slot
      · have hne : first.val ≠ other.val := fun h => hsame (Fin.ext h)
        simpa [PadBank.pad, PadBank.set, hne] using hb other
  simp only [bind, claimSlot]
  split
  · split
    · exact he user
    · exact hclaim _ _ _ _ he user
  · split <;> exact he user
  · exact he user

/-- Every pad is direct when a configuration has been installed. -/
theorem direct_install (e : Engine) (config : Config) (time : Nat) (user : User) :
    ((e.install config time).pads.pad user).Direct := by
  have hreset : ∀ user, (((e.vacate config).inTurn time (resetPads config)).pads.pad user).Direct := by
    intro user
    refine Pad.Direct.congr ?_ (Turn.sameCells_commit _ user)
    rw [pad_resetPads]
    exact Pad.direct_reset _ _ _
  have hbound : ∀ (mappings : List Mapping) (e : Engine), (∀ user, (e.pads.pad user).Direct) →
      ∀ user, ((mappings.foldl bind e).pads.pad user).Direct := by
    intro mappings
    induction mappings with
    | nil => exact fun e he => he
    | cons m rest ih => exact fun e he => ih _ (direct_bind he m)
  exact hbound config.mappings _ hreset user

/-- An engine is tidy when it starts: nothing is down, nothing is in effect and nothing is held. -/
theorem tidy_ofConfig {config : Config}
    (hplain : ∀ m ∈ config.mappings, m.Plain config.vocabulary) :
    Tidy (fun _ => False) (ofConfig config) := by
  have hassigned : Assigned (ofConfig config) := assigned_install _ config 0
  have hidle : ∀ (id : Nat) (b : Binding), (ofConfig config).bindings[id]? = some b →
      b.latch.active = false :=
    fun id b hb => by rw [hassigned.rest id b hb]
  refine ⟨fun id b hb => ?_, install_disabled _ _ _, hassigned.present, fun id b hb hon => ?_,
    fun id b hb _ => ?_, fun user place slot d hd => ?_, ?_⟩
  · rw [show (ofConfig config).vocabulary = config.vocabulary from install_vocabulary _ _ _]
    exact hplain b.mapping (List.mem_of_getElem? (install_binding hb).1)
  · rw [hidle id b hb] at hon
    contradiction
  · have hup : (ofConfig config).followsDown b.mapping = false := isDown_install _ _ _ _ _
    rw [hidle id b hb, hup]
    simp
  · have hnone : (((ofConfig config).pads.pad user).view place).held slot = none :=
      hassigned.empty (.pad user place) slot
    have hsome := Pad.isSome_deposit ((ofConfig config).pads.pad user) place slot
    rw [hd, hnone] at hsome
    contradiction
  · exact direct_install _ config 0

variable {user : User} {place : PadCell} {slot : Slot} {d : Deposit}

/-- What a slot holds is what the mapping it belongs to contributes, while the source is down. -/
theorem Tidy.deposit_eq_some_iff (he : Tidy (fun _ => False) e) (hmirrors : Mirrors e) :
    (e.pads.pad user).deposit place slot = some d ↔
      ∃ (id : Nat) (b : Binding), e.bindings[id]? = some b ∧ b.slot = some slot ∧
        e.Drives b.mapping (.pad user place) ∧ user ∈ e.targetUsers b.mapping.targetUser ∧
        e.followsDown b.mapping = true ∧ b.mapping.contribution.deposit place = some d := by
  -- The slot of a mapping is taken just while it is in effect, and then for the users it means.
  have hlive : ∀ (id : Nat) (b : Binding), e.bindings[id]? = some b → b.slot = some slot →
      e.Drives b.mapping (.pad user place) → (((e.pads.pad user).deposit place slot).isSome = true ↔
        user ∈ e.targetUsers b.mapping.targetUser ∧ e.followsDown b.mapping = true) := by
    intro id b hb hslot hdrives
    have hplain := he.plain id b hb
    have hshows := hmirrors.shows id b hb hplain.add _ slot hslot hdrives
    obtain ⟨⟨cell, hcell, hplace⟩, -⟩ := hdrives
    have hfollows := he.follows id b hb not_false
    rw [contributes_pad hcell hplace] at hshows
    rw [Pad.isSome_deposit]
    refine hshows.trans ⟨fun ⟨hon, huser⟩ => ?_, fun ⟨huser, hdown⟩ => ?_⟩
    · rw [(he.settled id b hb hon.1).2] at huser
      exact ⟨huser, (hfollows.mp hon.1).2⟩
    · have hactive : b.latch.active = true := hfollows.mpr ⟨by rw [hslot]; rfl, hdown⟩
      refine ⟨⟨hactive, fun hturbo => ?_⟩, by rwa [(he.settled id b hb hactive).2]⟩
      rw [hplain.turbo] at hturbo
      contradiction
  constructor
  · intro hd
    obtain ⟨id, b, hb, hslot, hdrives, hdeposit⟩ := he.deposits user place slot d hd
    obtain ⟨huser, hdown⟩ := (hlive id b hb hslot hdrives).mp (by rw [hd]; rfl)
    exact ⟨id, b, hb, hslot, hdrives, huser, hdown, hdeposit⟩
  · rintro ⟨id, b, hb, hslot, hdrives, huser, hdown, hdeposit⟩
    obtain ⟨d', hd'⟩ :=
      Option.isSome_iff_exists.mp ((hlive id b hb hslot hdrives).mpr ⟨huser, hdown⟩)
    -- No other mapping has this slot there.
    obtain ⟨id', b', hb', hslot', hdrives', hdeposit'⟩ := he.deposits user place slot d' hd'
    obtain rfl := hmirrors.apart id id' b b' _ slot hb hb' hslot hslot' hdrives hdrives'
    obtain rfl : b' = b := Option.some.inj (hb'.symm.trans hb)
    exact hd'.trans (hdeposit'.symm.trans hdeposit)

/-- Tidy engines of the same layout hold the same if the same is down. -/
theorem Tidy.deposit_congr (he : Tidy (fun _ => False) e) (hmirrors : Mirrors e)
    (he' : Tidy (fun _ => False) e') (hmirrors' : Mirrors e') (hlayout : e'.layout = e.layout)
    (hactive : e'.activeUser = e.activeUser)
    (hheld : ∀ c u, e'.board.isDown c u = e.board.isDown c u) (user : User) (place : PadCell)
    (slot : Slot) :
    (e'.pads.pad user).deposit place slot = (e.pads.pad user).deposit place slot := by
  refine Option.ext fun d => ?_
  have hrule : ∀ m : Mapping, (e'.Drives m (.pad user place) ∧ user ∈ e'.targetUsers m.targetUser ∧
      e'.followsDown m = true) ↔ (e.Drives m (.pad user place) ∧ user ∈ e.targetUsers m.targetUser ∧
      e.followsDown m = true) := by
    intro m
    unfold followsDown
    rw [drives_congr hlayout, targetUsers_congr hlayout hactive, followed_congr hlayout hactive,
      hheld]
  rw [he'.deposit_eq_some_iff hmirrors', he.deposit_eq_some_iff hmirrors]
  constructor
  · rintro ⟨id, b', hb', hslot, hdrives, huser, hdown, hdeposit⟩
    obtain ⟨b, hb, hmapping, hsame⟩ := binding_congr hlayout.symm hb'
    obtain ⟨hdrives, huser, hdown⟩ := (hrule b'.mapping).mp ⟨hdrives, huser, hdown⟩
    rw [← hmapping] at hdrives huser hdown hdeposit
    exact ⟨id, b, hb, hsame.trans hslot, hdrives, huser, hdown, hdeposit⟩
  · rintro ⟨id, b, hb, hslot, hdrives, huser, hdown, hdeposit⟩
    obtain ⟨b', hb', hmapping, hsame⟩ := binding_congr hlayout hb
    obtain ⟨hdrives, huser, hdown⟩ := (hrule b.mapping).mpr ⟨hdrives, huser, hdown⟩
    rw [← hmapping] at hdrives huser hdown hdeposit
    exact ⟨id, b', hb', hsame.trans hslot, hdrives, huser, hdown, hdeposit⟩

/-- **The pads show what is held, not how it came to be held.**  All mappings are plain, the host presses
all the way and moves no pair itself.  Then two series of inputs after which the same is down end with
the same buttons, triggers and axes on every pad. -/
theorem controls_of_held {file : ConfigFile}
    (hplain : ∀ m ∈ file.compile.mappings, m.Plain file.compile.vocabulary)
    {calls calls' : List Call}
    (hcalls : ∀ call ∈ calls, call.IsFullInput file.compile.vocabulary)
    (hcalls' : ∀ call ∈ calls', call.IsFullInput file.compile.vocabulary)
    (hheld : ∀ c user, ((ofConfig file.compile).afterAll calls').board.isDown c user =
      ((ofConfig file.compile).afterAll calls).board.isDown c user) (user : Nat) :
    (((ofConfig file.compile).afterAll calls').snapshot? user).map Snapshot.controls =
      (((ofConfig file.compile).afterAll calls).snapshot? user).map Snapshot.controls := by
  have hstart : Attended Config.IsCompiled (ofConfig file.compile) := .start ⟨file, rfl⟩
  have hvocabulary : (ofConfig file.compile).vocabulary = file.compile.vocabulary :=
    install_vocabulary _ _ 0
  -- After either series the bindings follow what is down, and the cells mirror the bindings.
  have hends : ∀ calls : List Call, (∀ call ∈ calls, call.IsFullInput file.compile.vocabulary) →
      Tidy (fun _ => False) ((ofConfig file.compile).afterAll calls) ∧
        Mirrors ((ofConfig file.compile).afterAll calls) ∧
        ((ofConfig file.compile).afterAll calls).activeUser = (ofConfig file.compile).activeUser ∧
        Deeds (ofConfig file.compile) ((ofConfig file.compile).afterAll calls) := by
    intro calls hcalls
    obtain ⟨htidy, hactive, hdeeds⟩ :=
      (tidy_ofConfig hplain).afterAll calls hstart (hvocabulary.symm ▸ hcalls)
    have hmirrored := (mirrored_stable Config.IsCompiled).afterAll _ calls
      (fun call hcall => (hcalls call hcall).admitted) hstart.operated.mirrored
    exact ⟨htidy, hmirrored.mirrors, hactive, hdeeds⟩
  obtain ⟨htidy, hmirrors, hactive, hdeeds⟩ := hends calls hcalls
  obtain ⟨htidy', hmirrors', hactive', hdeeds'⟩ := hends calls' hcalls'
  have hlayout := hdeeds'.layout.trans hdeeds.layout.symm
  generalize (ofConfig file.compile).afterAll calls = e at *
  generalize (ofConfig file.compile).afterAll calls' = e' at *
  have hcount : e'.pads.count = e.pads.count := congrArg Layout.users hlayout
  unfold Engine.snapshot? PadBank.snapshot?
  rw [hcount]
  split
  · rename_i huser
    split
    · exact congrArg some ((htidy'.direct ⟨user, huser⟩).controls (htidy.direct ⟨user, huser⟩)
        (htidy.deposit_congr hmirrors htidy' hmirrors' hlayout (hactive'.trans hactive.symm) hheld
          ⟨user, huser⟩)
        (fun index => (hdeeds'.sameFittings.shape ⟨user, huser⟩ index).trans
          (hdeeds.sameFittings.shape ⟨user, huser⟩ index).symm) user)
    · rfl
  · rfl

/-- Half to the left on A, to the upper left alone on B, and a quarter of all that on Shift. -/
def steeringConfig : ConfigFile :=
  { mappings :=
      [{ source := "A", target := "LStickLeft", strength := some 0.5 },
        { source := "B", target := "LStickUpLeft", options := ["replace"] },
        { source := "Shift", target := "LStickMod", strength := some 0.25 }] }

/-- The engine on this configuration. -/
def steering : Engine := ofConfig steeringConfig.compile

/-- A control of the first user goes all the way down or up. -/
def moving (c : UInt16) (down : Bool) : Call := .input ⟨c⟩ 0 down 1 0

/-- A, B and left Shift are pressed one after another. -/
def straight : List Call := [moving 0x41 true, moving 0x42 true, moving 0xA0 true]

/-- The same are held in the end, but right Shift has come and gone, B has gone up in between and A
has repeated. -/
def roundabout : List Call :=
  [moving 0xA1 true, moving 0x42 true, moving 0xA0 true, moving 0xA1 false, moving 0x41 true,
    moving 0x42 false, moving 0x41 true, moving 0x42 true]

/-- Both ways lead to the same stick, which is held out at a quarter in both directions. -/
theorem controls_of_held_steering :
    (∀ c user, (steering.afterAll roundabout).board.isDown c user =
      (steering.afterAll straight).board.isDown c user) ∧
    ((steering.afterAll straight).snapshot? 0).map Snapshot.controls =
      some (0, (0, 0), (-0.25, 0.25, 0, 0)) ∧
    ((steering.afterAll roundabout).snapshot? 0).map Snapshot.controls =
      ((steering.afterAll straight).snapshot? 0).map Snapshot.controls := by
  have hinputs : (∀ m ∈ steeringConfig.compile.mappings, m.Plain steeringConfig.compile.vocabulary) ∧
      (∀ call ∈ straight, call.IsFullInput steeringConfig.compile.vocabulary) ∧
      ∀ call ∈ roundabout, call.IsFullInput steeringConfig.compile.vocabulary := by
    decide +kernel
  have hstate : (steering.afterAll roundabout).board.lines.toList.map (fun p => (p.1, p.2.down)) =
        (steering.afterAll straight).board.lines.toList.map (fun p => (p.1, p.2.down)) ∧
      ((steering.afterAll straight).snapshot? 0).map Snapshot.controls =
        some (0, (0, 0), (-0.25, 0.25, 0, 0)) := by
    decide +kernel
  obtain ⟨hplain, hcalls, hcalls'⟩ := hinputs
  have hheld := Switchboard.isDown_of_lines hstate.1
  exact ⟨hheld, hstate.2, controls_of_held hplain hcalls hcalls' hheld 0⟩

end Engine

end VirtualPad
