import VirtualPad.Proofs.Commits
import VirtualPad.Proofs.Neutral

/-!
# What a version stands for

A reader may keep the version of a pad and take the pad for unchanged as long as the version is the
same, also across reloads.  For the buttons, triggers and sticks of a pad that is right.  Whether the
pad is connected is another matter: a configuration with fewer users hides the pad, and it is
connected or disconnected there without anybody being told.

* `told_reload`: a reload tells of a pad that the new configuration shows, like any other operation.
* `hidden_install`: a pad that the new configuration hides is emptied, and keeps its version.
* `same_version`: what two snapshots with the same version have in common.
-/

namespace VirtualPad

/-! ## §1 Resetting and claiming -/

namespace Pad

/-- The mask is zero only if no button is pressed. -/
theorem unpressed_of_mask {p : Pad} (h : p.buttonMask = 0) (index : Fin 15) :
    ButtonCell.pressed (p.button index) = false := by
  -- The mask only grows, so it was zero from the start and no button has added to it.
  have hnone : ∀ (cells : List (ButtonCell × Nat)) (mask : Nat), cells.foldl
      (fun mask cell => if ButtonCell.pressed cell.1 then mask + twoTo cell.2 else mask) mask = 0 →
      mask = 0 ∧ ∀ cell ∈ cells, ButtonCell.pressed cell.1 = false := by
    intro cells
    induction cells with
    | nil => simp
    | cons cell rest ih =>
      intro mask hmask
      obtain ⟨hfirst, hrest⟩ := ih _ hmask
      have hbit : 0 < twoTo cell.2 := Nat.two_pow_pos cell.2
      cases hpressed : ButtonCell.pressed cell.1 with
      | true =>
        simp only [hpressed, if_true] at hfirst
        omega
      | false =>
        simp only [hpressed] at hfirst
        exact ⟨hfirst, List.forall_mem_cons.mpr ⟨hpressed, hrest⟩⟩
  have hmem : (p.button index, index.val) ∈ p.buttons.toList.zipIdx := by
    rw [List.mem_zipIdx_iff_getElem?]
    simp [button]
  exact (hnone _ 0 h).2 _ hmem

/-- A pad that is reset shows what a new pad shows. -/
theorem sameControls_reset (p : Pad) (shape : StickShape) (connected : Bool) :
    SameControls {} (p.reset shape connected).1 := by
  refine ⟨fun _ => rfl, fun _ => .refl _, fun index => ?_⟩
  simp [reset, stick]

/-- So does a pad without contributions. -/
theorem Neutral.sameControls {p : Pad} (hp : p.Neutral) : SameControls {} p := by
  refine ⟨fun index => ?_, fun index => ?_, fun index => ?_⟩
  · rw [hp.buttons index, unpressed_of_mask (p := {}) rfl]
  · rw [(hp.triggers index).1]
    simp [trigger]
  · rw [(hp.sticks index).1, (hp.sticks index).2]
    simp [stick]

/-- If it is not seen that a pad is reset, the pad looks the same afterwards. -/
theorem reset_alike (p : Pad) (shape : StickShape) (connected : Bool)
    (h : (p.reset shape connected).2 = false) : p.Alike (p.reset shape connected).1 := by
  have hsame : ((p.reset shape connected).1.snapshot 0).sameValues (p.snapshot 0) = true := by
    simpa [reset] using h
  simp only [Snapshot.sameValues, Pad.snapshot, Bool.and_eq_true, beq_iff_eq] at hsame
  obtain ⟨⟨⟨hconnected, hbuttons⟩, htriggers⟩, haxes⟩ := hsame
  -- Pairs compare part by part.
  change (_ && _) = true at htriggers
  change (_ && (_ && (_ && _))) = true at haxes
  rw [Bool.and_eq_true] at htriggers
  simp only [Bool.and_eq_true] at haxes
  obtain ⟨hleft, hright⟩ := htriggers
  obtain ⟨hleftX, hleftY, hrightX, hrightY⟩ := haxes
  refine ⟨⟨fun index => ?_, Fin.forall_fin_two.mpr ⟨?_, ?_⟩, Fin.forall_fin_two.mpr ⟨?_, ?_⟩⟩,
    hconnected.symm⟩
  · -- No button of a pad that was reset is pressed.
    have hempty : (p.reset shape connected).1.buttonMask = 0 := rfl
    rw [unpressed_of_mask hempty, unpressed_of_mask (hbuttons.symm.trans hempty)]
  · exact .symm (.inr hleft)
  · exact .symm (.inr hright)
  · exact ⟨.symm (.inr hleftX), .symm (.inr hleftY)⟩
  · exact ⟨.symm (.inr hrightX), .symm (.inr hrightY)⟩

/-- Giving slots of a stick away does not move it. -/
theorem shown_claimParts (s : Stick) (parts : List (Axis × Side)) (slot : Slot) :
    (mapParts s parts fun c => c.claim slot).x = s.x ∧
      (mapParts s parts fun c => c.claim slot).y = s.y := by
  induction parts generalizing s with
  | nil => exact ⟨rfl, rfl⟩
  | cons part rest ih =>
    have hpart : (s.mapSide part.1 part.2 fun c => c.claim slot).x = s.x ∧
        (s.mapSide part.1 part.2 fun c => c.claim slot).y = s.y := by
      cases part.1 <;> exact ⟨rfl, rfl⟩
    exact ⟨(ih _).1.trans hpart.1, (ih _).2.trans hpart.2⟩

/-- Giving a slot away does not change what a pad looks like. -/
theorem claim_alike (p : Pad) (cell : PadCell) (slot : Slot) : p.Alike (p.claim cell slot) := by
  cases cell with
  | button index => exact setButton_alike p index rfl
  | trigger index | triggerModifier index => exact setTrigger_alike p index (.refl _)
  | stickModifier index | rotateModifier index => exact setStick_alike p index ⟨.refl _, .refl _⟩
  | direction index axis side | diagonal index x y =>
    apply setStick_alike
    rw [(shown_claimParts _ _ slot).1, (shown_claimParts _ _ slot).2]
    exact ⟨.refl _, .refl _⟩

theorem label_claim (p : Pad) (cell : PadCell) (slot : Slot) :
    (p.claim cell slot).label = p.label := by
  cases cell <;> rfl

end Pad

namespace Engine

/-! ## §2 Installing and reloading -/

variable {user : User} {e e' : Engine}

/-- Giving slots away is nothing to the readers of the pads. -/
theorem told_claim (users : List User) (cell : PadCell) (slot : Slot) (user : User) (e : Engine) :
    Told user e { e with pads := e.pads.claim users cell slot } [] := by
  have hpad : ∀ b : PadBank, ((b.claim users cell slot).pad user).label = (b.pad user).label ∧
      (b.pad user).Alike ((b.claim users cell slot).pad user) := by
    intro b
    unfold PadBank.claim
    induction users generalizing b with
    | nil => exact ⟨rfl, .refl _⟩
    | cons first rest ih =>
      obtain ⟨hlabel, halike⟩ := ih (b.set first ((b.pad first).claim cell slot))
      by_cases hsame : first.val = user.val
      · obtain rfl := Fin.ext hsame
        have hfirst : (b.set first ((b.pad first).claim cell slot)).pad first =
            (b.pad first).claim cell slot := by
          simp [PadBank.pad, PadBank.set]
        rw [hfirst] at hlabel halike
        exact ⟨hlabel.trans (Pad.label_claim _ cell slot), (Pad.claim_alike _ cell slot).trans halike⟩
      · have hother : (b.set first ((b.pad first).claim cell slot)).pad user = b.pad user := by
          simp [PadBank.pad, PadBank.set, hsame]
        rw [hother] at hlabel halike
        exact ⟨hlabel, halike⟩
  obtain ⟨hlabel, halike⟩ := hpad e.pads
  exact ⟨by simp [heard], rfl, congrArg Prod.fst hlabel, fun _ => ⟨hlabel, halike⟩, by simp⟩

theorem told_bind (e : Engine) (m : Mapping) (user : User) : Told user e (e.bind m) [] := by
  simp only [bind, claimSlot]
  split
  · split
    · exact .of_same rfl rfl
    · exact (told_claim _ _ _ user e).keep rfl rfl
  · split <;> exact .of_same rfl rfl
  · exact .of_same rfl rfl

theorem Told.bindAll {told : List Snapshot} (h : Told user e e' told) (mappings : List Mapping) :
    Told user e (mappings.foldl bind e') told := by
  induction mappings generalizing e' with
  | nil => exact h
  | cons m rest ih =>
    have hbound := h.trans (told_bind e' m user)
    rw [List.append_nil] at hbound
    exact ih hbound

/-- How a pad is reset: the readers hear of it if the pad is one of the first `count`. -/
def resetting (config : Config) (count : Nat) (user : User) (p : Pad) : Pad × Bool :=
  let (pad, changed) := p.reset (config.padOf user).stickShape (config.padOf user).connected
  (pad, changed && decide (user < count))

theorem resetPads_eq (config : Config) (t : Turn) : resetPads config t =
    (List.finRange userLimit).foldl
      (fun t user => t.updatePad user (resetting config t.engine.userCount user)) t := rfl

/-- Resetting one pad does not change how many there are. -/
theorem count_resetting (config : Config) (t : Turn) (first : User) :
    (t.updatePad first (resetting config t.engine.userCount first)).engine.userCount =
      t.engine.userCount := by
  rw [Turn.engine_updatePad]
  rfl

/-- After the pads have been reset, each of them is as it is when switched on. -/
theorem pad_resetPads (config : Config) (t : Turn) (user : User) :
    (resetPads config t).engine.pads.pad user = ((t.engine.pads.pad user).reset
      (config.padOf user).stickShape (config.padOf user).connected).1 := by
  -- A pad that has been reset stays as it is, should it be reset again.
  have hpads : ∀ (users : List User) (t : Turn), (users.foldl (fun t user =>
      t.updatePad user (resetting config t.engine.userCount user)) t).engine.pads.pad user =
      if user ∈ users then ((t.engine.pads.pad user).reset (config.padOf user).stickShape
        (config.padOf user).connected).1 else t.engine.pads.pad user := by
    intro users
    induction users with
    | nil => simp
    | cons first rest ih =>
      intro t
      rw [List.foldl_cons, ih, Turn.pad_updatePad]
      by_cases hsame : user = first
      · subst hsame
        simp [Pad.reset, resetting]
      · simp [hsame]
  rw [resetPads_eq, hpads, if_pos (List.mem_finRange user)]

/-- While the pads are reset, those that the configuration shows are noted. -/
theorem noted_resetPads (config : Config) {t : Turn} (ht : Turn.Noted user e t)
    (huser : user < t.engine.userCount) : Turn.Noted user e (resetPads config t) := by
  rw [resetPads_eq]
  generalize List.finRange userLimit = users
  induction users generalizing t with
  | nil => exact ht
  | cons first rest ih =>
    apply ih
    · apply ht.updatePad
      rintro rfl p
      refine ⟨rfl, fun hunseen => ?_⟩
      apply Pad.reset_alike
      simpa [resetting, huser] using hunseen
    · rw [count_resetting]
      exact huser

/-- The pads that it does not show are not. -/
theorem unnoted_resetPads (config : Config) {t : Turn} (ht : user ∉ t.changed)
    (huser : t.engine.userCount ≤ user) : user ∉ (resetPads config t).changed := by
  rw [resetPads_eq]
  generalize List.finRange userLimit = users
  induction users generalizing t with
  | nil => exact ht
  | cons first rest ih =>
    apply ih
    · rw [Turn.mem_changed_updatePad, not_or]
      refine ⟨ht, ?_⟩
      rintro ⟨rfl, hseen⟩
      simp [resetting, Nat.not_lt.mpr huser] at hseen
    · rw [count_resetting]
      exact huser

/-- The turn that an installation begins with notes what it has to. -/
theorem noted_vacate (e : Engine) (config : Config) (time : Nat) (user : User) :
    Turn.Noted user e { engine := e.vacate config, time } :=
  ⟨List.nodup_nil, rfl, fun _ => .refl _, rfl⟩

/-- **A pad that the new configuration shows** is installed like in any other turn. -/
theorem told_install (e : Engine) (config : Config) (time : Nat)
    (huser : user < clampUsers config.settings.users) :
    ∃ told, Told user e (e.install config time) told :=
  ⟨_, (noted_resetPads config (noted_vacate e config time user) huser).told.bindAll config.mappings⟩

/-- **A pad that it hides** is emptied, and keeps its version. -/
theorem hidden_install (e : Engine) (config : Config) (time : Nat)
    (huser : clampUsers config.settings.users ≤ user) :
    ((e.install config time).pads.pad user).label = (e.pads.pad user).label ∧
      Pad.SameControls {} ((e.install config time).pads.pad user) := by
  have hpad := pad_resetPads config { engine := e.vacate config, time } user
  have hunnoted := unnoted_resetPads config (t := { engine := e.vacate config, time })
    List.not_mem_nil huser
  -- There is a first user in every configuration.
  have hfirst := noted_resetPads config (noted_vacate e config time User.first)
    (Nat.le_max_left 1 _)
  have hinstall : e.install config time =
      config.mappings.foldl bind (resetPads config { engine := e.vacate config, time }).commit := rfl
  rw [hinstall]
  generalize resetPads config { engine := e.vacate config, time } = t at hpad hunnoted hfirst ⊢
  -- From the turn as it stands when all pads have been reset, nothing more is told.
  have hreset : Turn.Noted user t.engine t := ⟨hfirst.nodup, rfl, fun _ => .refl _, rfl⟩
  have htold := hreset.told.bindAll config.mappings
  obtain ⟨hlabel, halike⟩ := htold.quiet (by simp [Turn.tells, hunnoted])
  rw [hpad] at hlabel halike
  exact ⟨hlabel, (Pad.sameControls_reset _ _ _).trans halike.toSameControls⟩

theorem told_freed (e : Engine) (user : User) : ∃ told, Told user e e.freed told := by
  obtain ⟨told, htold⟩ := (deeds_releaseAll e e.lastTime).told user
  have hcancel : ∀ (uses : List TimerUse) (e : Engine),
      (uses.foldl (fun e t => e.ask (.cancel t.token)) e).pads = e.pads ∧
        (uses.foldl (fun e t => e.ask (.cancel t.token)) e).journal.snapshots =
          e.journal.snapshots := by
    intro uses
    induction uses with
    | nil => exact fun e => ⟨rfl, rfl⟩
    | cons use rest ih => exact fun e => ih (e.ask (.cancel use.token))
  obtain ⟨hpads, hsnapshots⟩ := hcancel _ (e.releaseAll e.lastTime)
  exact ⟨told, htold.keep hpads hsnapshots⟩

/-- **A pad that the new configuration shows** is reloaded like in any other operation. -/
theorem told_reload (e : Engine) (config : Config) (huser : user < clampUsers config.settings.users) :
    ∃ told, Told user e (e.reload config) told := by
  obtain ⟨first, hfirst⟩ := told_freed e user
  obtain ⟨second, hsecond⟩ := told_install e.freed config e.lastTime huser
  obtain ⟨third, hthird⟩ := (duties_reload e config).deeds.told user
  exact ⟨_, (hfirst.trans hsecond).trans hthird⟩

theorem count_reload (e : Engine) (config : Config) :
    (e.reload config).userCount = clampUsers config.settings.users := by
  have hlayout := (duties_reload e config).deeds.layout
  exact (congrArg Layout.users hlayout).trans (count_install _ config _)

/-! ## §3 Runs -/

/-- One thing after another happens to an engine, reloads among them. -/
inductive Run (admits : Config → Prop) : Engine → Engine → Prop
  | refl (e : Engine) : Run admits e e
  | happens {e e' e'' : Engine} (h : Run admits e e') (hnext : Happens e' e'') : Run admits e e''
  | reload {e e' : Engine} {config : Config} (h : Run admits e e') (hconfig : admits config) :
      Run admits e (e'.reload config)

theorem Run.operated {admits : Config → Prop} (h : Run admits e e') (he : Operated admits e) :
    Operated admits e' := by
  induction h with
  | refl => exact he
  | @happens e' e'' _ hnext ih =>
    cases hnext with
    | @call call hcall =>
      refine .call ?_ ih
      cases call with
      | reload config => exact absurd rfl (hcall config)
      | input | motion | runUntil | releaseAll => trivial
    | timer token time => exact .timer token time ih
  | @reload e' config _ hconfig ih =>
    have hcall : (Call.reload config).Admitted admits := hconfig
    exact ih.call hcall

/-- **While a pad is shown all along**, its readers are told of every version. -/
theorem Run.told {admits : Config → Prop} (h : Run admits e e')
    (hshown : ∀ {config}, admits config → user < clampUsers config.settings.users) :
    ∃ told, Told user e e' told := by
  induction h with
  | refl => exact ⟨[], .refl user e⟩
  | happens _ hnext ih =>
    obtain ⟨told, htold⟩ := ih
    obtain ⟨more, hmore⟩ := hnext.deeds.told user
    exact ⟨told ++ more, htold.trans hmore⟩
  | reload _ hconfig ih =>
    obtain ⟨told, htold⟩ := ih
    obtain ⟨more, hmore⟩ := told_reload _ _ (hshown hconfig)
    exact ⟨told ++ more, htold.trans hmore⟩

/-- As long as a pad keeps its version, it keeps what it shows; and while it is hidden, it shows
nothing. -/
structure Kept (user : User) (e e' : Engine) : Prop where
  version : (e.pads.pad user).version ≤ (e'.pads.pad user).version
  controls : (e'.pads.pad user).version = (e.pads.pad user).version →
    (e.pads.pad user).SameControls (e'.pads.pad user)
  hidden : (e'.pads.pad user).version = (e.pads.pad user).version → e'.userCount ≤ user →
    Pad.SameControls {} (e'.pads.pad user)

namespace Kept

variable {e'' : Engine}

theorem told {told : List Snapshot} (h : Kept user e e') (htold : Told user e' e'' told)
    (hcount : e''.userCount ≤ user → e'.userCount ≤ user) : Kept user e e'' := by
  have hversion := htold.version
  have hbefore := h.version
  -- The version is the old one only if it has been so all along, and nothing has been told.
  have hback : (e''.pads.pad user).version = (e.pads.pad user).version →
      (e'.pads.pad user).version = (e.pads.pad user).version ∧
        (e'.pads.pad user).SameControls (e''.pads.pad user) := by
    intro hsame
    have hnothing : told = [] := by
      apply List.eq_nil_of_length_eq_zero
      omega
    exact ⟨by omega, (htold.quiet hnothing).2.toSameControls⟩
  constructor
  · omega
  · intro hsame
    obtain ⟨hsame', hkept⟩ := hback hsame
    exact (h.controls hsame').trans hkept
  · intro hsame hhidden
    obtain ⟨hsame', hkept⟩ := hback hsame
    exact (h.hidden hsame' (hcount hhidden)).trans hkept

theorem deeds (h : Kept user e e') (hdeeds : Deeds e' e'') : Kept user e e'' := by
  obtain ⟨told, htold⟩ := hdeeds.told user
  have hcount : e''.userCount = e'.userCount := congrArg Layout.users hdeeds.layout
  exact h.told htold fun hhidden => hcount ▸ hhidden

/-- A reload keeps a pad if it shows it, and if it hides it as well. -/
theorem reload (h : Kept user e e') (he' : Operated Config.IsCompiled e') (config : Config) :
    Kept user e (e'.reload config) := by
  by_cases hshown : user < clampUsers config.settings.users
  · obtain ⟨told, htold⟩ := told_reload e' config hshown
    refine h.told htold fun hhidden => ?_
    rw [count_reload] at hhidden
    omega
  · -- Everything is released first, so a pad that was shown up to now shows nothing any more.
    have hneutral := neutral_releaseAll he'.releasable e'.lastTime
    have hreleased := h.deeds (deeds_releaseAll e' e'.lastTime)
    rw [← freed_eq he'.releasable] at hneutral hreleased
    have hempty : (e'.freed.pads.pad user).version = (e.pads.pad user).version →
        Pad.SameControls {} (e'.freed.pads.pad user) := by
      intro hsame
      by_cases hwas : user < e'.freed.userCount
      · exact (hneutral.pads user hwas).neutral.sameControls
      · exact hreleased.hidden hsame (Nat.not_lt.mp hwas)
    obtain ⟨hlabel, hreset⟩ := hidden_install e'.freed config e'.lastTime (Nat.not_lt.mp hshown)
    have hversion : ((e'.freed.install config e'.lastTime).pads.pad user).version =
        (e'.freed.pads.pad user).version := congrArg Prod.fst hlabel
    have hinstalled : Kept user e (e'.freed.install config e'.lastTime) := by
      constructor
      · rw [hversion]
        exact hreleased.version
      · intro hsame
        rw [hversion] at hsame
        exact ((hreleased.controls hsame).trans (hempty hsame).symm).trans hreset
      · exact fun _ _ => hreset
    exact hinstalled.deeds (duties_reload e' config).deeds

end Kept

theorem Run.kept (h : Run Config.IsCompiled e e') (he : Operated Config.IsCompiled e)
    (huser : user < e.userCount) : Kept user e e' := by
  induction h with
  | refl => exact ⟨Nat.le_refl _, fun _ => .refl _, fun _ hhidden => absurd huser (Nat.not_lt.mpr hhidden)⟩
  | happens _ hnext ih => exact ih.deeds hnext.deeds
  | reload hrun hconfig ih => exact ih.reload (hrun.operated he) _

/-- **The same version means the same values**, whatever happens in between and whatever is loaded: the
buttons, the triggers and the sticks are the same.  And if every configuration in between shows the
pad, it is connected just if it was connected before. -/
theorem same_version (he : Operated Config.IsCompiled e) (h : Run Config.IsCompiled e e') {user : Nat}
    {s s' : Snapshot} (hs : e.snapshot? user = some s) (hs' : e'.snapshot? user = some s')
    (hversion : s'.version = s.version) :
    s.SameControls s' ∧
      (Run (fun config => user < clampUsers config.settings.users) e e' → s.Agrees s') := by
  obtain ⟨hlimit, hcount, rfl⟩ := snapshot?_eq_some.mp hs
  obtain ⟨_, -, rfl⟩ := snapshot?_eq_some.mp hs'
  have hkept : Kept ⟨user, hlimit⟩ e e' := h.kept he hcount
  refine ⟨(hkept.controls hversion).snapshot user user, fun hshown => ?_⟩
  obtain ⟨told, htold⟩ : ∃ told, Told ⟨user, hlimit⟩ e e' told := hshown.told id
  have hnothing : told = [] := by
    have hgrown := htold.version
    simp only [Pad.snapshot] at hversion
    apply List.eq_nil_of_length_eq_zero
    omega
  exact (htold.quiet hnothing).2.agrees user user

/-- Two pads, of which the second is disconnected to begin with. -/
def apartConfig : ConfigFile :=
  { general := { users := some 2 }
    pads := [{}, { connected := some false }] }

/-- One pad. -/
def aloneConfig : ConfigFile := { general := { users := some 1 } }

/-- Two pads that are connected. -/
def togetherConfig : ConfigFile := { general := { users := some 2 } }

/-- The engine that starts with two pads, the second of them disconnected. -/
def apart : Engine := ofConfig apartConfig.compile

/-- The engine after the second pad was hidden and shown again. -/
def rejoined : Engine := (apart.reload aloneConfig.compile).reload togetherConfig.compile

theorem run_rejoined : Run Config.IsCompiled apart rejoined :=
  .reload (.reload (.refl apart) ⟨aloneConfig, rfl⟩) ⟨togetherConfig, rfl⟩

/-- What a reader sees of the second pad at the start, after it was hidden and shown again, and after
the first configuration was loaded once more. -/
theorem second_pad : ((apart.snapshot? 1).map fun s => (s.version, s.connected)) = some (1, false) ∧
    ((rejoined.snapshot? 1).map fun s => (s.version, s.connected)) = some (1, true) ∧
    (((apart.reload apartConfig.compile).snapshot? 1).map fun s => (s.version, s.connected)) =
      some (1, false) := by
  have hthree : (((apart.snapshot? 1).map fun s => (s.version, s.connected)),
      ((rejoined.snapshot? 1).map fun s => (s.version, s.connected)),
      ((apart.reload apartConfig.compile).snapshot? 1).map fun s => (s.version, s.connected)) =
      (some (1, false), some (1, true), some (1, false)) := by
    decide +kernel
  obtain ⟨hfirst, hrest⟩ := Prod.mk.inj hthree
  exact ⟨hfirst, Prod.mk.inj hrest⟩

/-- The buttons, triggers and sticks of the second pad are still the same when it is shown again.  If
the first configuration is loaded once more instead, everything is. -/
theorem same_version_apart : ∃ s s' s'' : Snapshot, apart.snapshot? 1 = some s ∧
    rejoined.snapshot? 1 = some s' ∧ (apart.reload apartConfig.compile).snapshot? 1 = some s'' ∧
    s.SameControls s' ∧ s.Agrees s'' := by
  obtain ⟨hfirst, hrejoined, hagain⟩ := second_pad
  obtain ⟨s, hs, hlabel⟩ := Option.map_eq_some_iff.mp hfirst
  obtain ⟨s', hs', hlabel'⟩ := Option.map_eq_some_iff.mp hrejoined
  obtain ⟨s'', hs'', hlabel''⟩ := Option.map_eq_some_iff.mp hagain
  have hversion : s.version = 1 := congrArg Prod.fst hlabel
  have hstart : Operated Config.IsCompiled apart := .start ⟨apartConfig, rfl⟩
  have hcontrols := same_version hstart run_rejoined hs hs'
    ((congrArg Prod.fst hlabel').trans hversion.symm)
  have hall := same_version hstart (.reload (.refl apart) ⟨apartConfig, rfl⟩) hs hs''
    ((congrArg Prod.fst hlabel'').trans hversion.symm)
  have hshown : Run (fun config => 1 < clampUsers config.settings.users) apart
      (apart.reload apartConfig.compile) := .reload (.refl apart) (by decide +kernel)
  exact ⟨s, s', s'', hs, hs', hs'', hcontrols.1, hall.2 hshown⟩

/-- A pad that comes back connected although it was disconnected, under the version that its readers
know: it was reset while it was hidden. -/
theorem reconnected_unheard : Operated Config.IsCompiled apart ∧
    Run Config.IsCompiled apart rejoined ∧ ∃ s s' : Snapshot, apart.snapshot? 1 = some s ∧
      rejoined.snapshot? 1 = some s' ∧ s'.version = s.version ∧ s.connected = false ∧
      s'.connected = true := by
  obtain ⟨hfirst, hrejoined, -⟩ := second_pad
  obtain ⟨s, hs, hlabel⟩ := Option.map_eq_some_iff.mp hfirst
  obtain ⟨s', hs', hlabel'⟩ := Option.map_eq_some_iff.mp hrejoined
  have hsame : s'.version = s.version :=
    (congrArg Prod.fst hlabel').trans (congrArg Prod.fst hlabel).symm
  exact ⟨.start ⟨apartConfig, rfl⟩, run_rejoined, s, s', hs, hs', hsame, congrArg Prod.snd hlabel,
    congrArg Prod.snd hlabel'⟩

end Engine

end VirtualPad
