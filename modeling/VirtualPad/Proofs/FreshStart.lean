import VirtualPad.Proofs.GuisedCalls
import VirtualPad.Proofs.HostEdges

/-!
# Fresh starts

A configuration that is put in place of another one leaves nothing of the old one behind.  The engine
is the one that would have been started on the new configuration, and all it keeps of its past is the
active user, if there still is one of that number, its clock, and what it has told others: versions and
times of the pads, numbers of timers, the journal.

* `dressed_install`: an installation ends at the same engine wherever it begins, apart from these.
* `reload_eq`: a reload is an installation onto an engine that holds nothing.
* `fresh_start`: what this means for everything that happens afterwards.
-/

namespace VirtualPad

namespace PadBank

/-- Banks are the same if they show equally many pads and have the same pad for each user. -/
theorem ext_pad {b b' : PadBank} (hcount : b.count = b'.count)
    (hpads : ∀ user, b.pad user = b'.pad user) : b = b' := by
  have hvectors : b.pads = b'.pads := by
    apply Vector.ext
    intro place hplace
    exact hpads ⟨place, hplace⟩
  cases b
  cases b'
  exact congrArg₂ PadBank.mk hvectors hcount

variable (b : PadBank) (labels : User → Nat × Nat)

theorem relabel_label : (b.relabel fun user => (b.pad user).label) = b :=
  ext_pad rfl fun user => b.pad_relabel _ user

theorem relabel_relabel (before : User → Nat × Nat) :
    (b.relabel before).relabel labels = b.relabel labels := by
  apply ext_pad rfl
  intro user
  simp [Pad.relabel]

end PadBank

namespace Engine

/-! ## §1 What an installation hands on -/

/-- The versions and the times of the pads. -/
def labels (e : Engine) (user : User) : Nat × Nat := (e.pads.pad user).label

/-- The engine with the past of another one: with its active user, its clock, and with what others
have been told. -/
def inDress (e past : Engine) : Engine :=
  { e with
    pads := e.pads.relabel past.labels
    clock := past.clock
    lastToken := past.lastToken
    activeUser := past.activeUser
    lastTime := past.lastTime
    journal := past.journal }

variable (e past : Engine)

/-- Only the last dress counts. -/
theorem inDress_inDress (later : Engine) : (e.inDress past).inDress later = e.inDress later := by
  unfold inDress
  dsimp only
  rw [PadBank.relabel_relabel]

/-- Pads that have been labelled have these labels. -/
theorem labels_eq {e : Engine} {b : PadBank} {labels : User → Nat × Nat}
    (h : e.pads = b.relabel labels) : e.labels = labels := by
  funext user
  simp [Engine.labels, h, Pad.relabel, Pad.label]

theorem inDress_self : e.inDress (e.inDress past) = e.inDress past := by
  have hlabels : (e.inDress past).labels = past.labels := labels_eq rfl
  unfold inDress
  rw [← hlabels]
  rfl

/-- What an engine wears is its own. -/
theorem eq_inDress {e e' past : Engine} (h : e' = e.inDress past) : e' = e.inDress e' := by
  rw [h, inDress_self]

theorem bind_inDress (m : Mapping) : (e.inDress past).bind m = (e.bind m).inDress past := by
  have hvocabulary : (e.inDress past).vocabulary = e.vocabulary := rfl
  rw [bind_relabel hvocabulary rfl rfl m, bind_eq e m]
  rfl

theorem bindAll_inDress (mappings : List Mapping) :
    mappings.foldl bind (e.inDress past) = (mappings.foldl bind e).inDress past := by
  induction mappings generalizing e with
  | nil => rfl
  | cons m rest ih =>
    rw [List.foldl_cons, bind_inDress, ih]
    rfl

end Engine

/-! ## §2 Switching on -/

namespace Config

/-- The pads as they are when switched on. -/
def newPads (config : Config) : PadBank where
  pads := Vector.ofFn fun user =>
    (Pad.reset {} (config.padOf user).stickShape (config.padOf user).connected).1
  count := clampUsers config.settings.users

/-- The engine before anything is bound. -/
def blank (config : Config) : Engine :=
  { Engine.vacate {} config with pads := config.newPads }

/-- The engine with all mappings bound, and without a past. -/
def plain (config : Config) : Engine := config.mappings.foldl Engine.bind config.blank

end Config

namespace Turn

/-- Committing a pad gives it another label. -/
theorem relabel_commitPad (time : Nat) (e : Engine) (first : User) (labels : User → Nat × Nat) :
    (commitPad time e first).pads.relabel labels = e.pads.relabel labels := by
  refine PadBank.ext_pad (Eq.refl e.pads.count) fun user => ?_
  by_cases hsame : first.val = user.val
  · obtain rfl := Fin.ext hsame
    simp [commitPad, PadBank.pad, PadBank.set, PadBank.relabel, Pad.commit, Pad.relabel]
  · simp [commitPad, PadBank.pad, PadBank.set, PadBank.relabel, hsame]

theorem commitPads_eq (time : Nat) (users : List User) (e : Engine) :
    ∃ labels snapshots, users.foldl (commitPad time) e = { e with
      pads := e.pads.relabel labels
      journal := { e.journal with snapshots } } := by
  induction users generalizing e with
  | nil =>
    have hlabels : e.pads.relabel e.labels = e.pads := e.pads.relabel_label
    refine ⟨e.labels, e.journal.snapshots, ?_⟩
    rw [hlabels]
    rfl
  | cons first rest ih =>
    obtain ⟨labels, snapshots, hrest⟩ := ih (commitPad time e first)
    refine ⟨labels, snapshots, ?_⟩
    rw [List.foldl_cons, hrest, relabel_commitPad]
    rfl

/-- A turn that has only written to pads commits them, and that is all. -/
theorem commit_pads {t : Turn} (heffects : t.effects = #[]) (hmoved : t.moved = false)
    (hrequests : t.requests = []) :
    ∃ labels snapshots, t.commit = { t.engine with
      pads := t.engine.pads.relabel labels
      journal := { t.engine.journal with snapshots } } := by
  obtain ⟨labels, snapshots, hcommitted⟩ := commitPads_eq t.time t.changed t.engine
  refine ⟨labels, snapshots, ?_⟩
  unfold commit
  rw [hcommitted, heffects, hmoved, hrequests]
  simp [tellHost]

end Turn

namespace Engine

/-- Resetting the pads moves neither the pointer nor the wheel. -/
theorem moved_resetPads (config : Config) (t : Turn) : (resetPads config t).moved = t.moved := by
  apply resetPads_same
  intro t user change
  simp only [Turn.updatePad]
  split
  · unfold Turn.noteChange
    split <;> rfl
  · rfl

/-- The turn that an installation begins with switches the pads on, and writes to nothing else. -/
theorem inTurn_resetPads (e : Engine) (config : Config) (time : Nat) :
    ∃ labels snapshots, (e.vacate config).inTurn time (resetPads config) = { e.vacate config with
      pads := config.newPads.relabel labels
      journal := { e.journal with snapshots } } := by
  have heffects := resetPads_same Turn.effects_updatePad config { engine := e.vacate config, time }
  have hrequests := resetPads_same Turn.requests_updatePad config { engine := e.vacate config, time }
  have hmoved := moved_resetPads config { engine := e.vacate config, time }
  have hpad := pad_resetPads config { engine := e.vacate config, time }
  obtain ⟨pads, hwritten, hcount⟩ := resetPads_frame config { engine := e.vacate config, time }
  unfold inTurn
  generalize resetPads config { engine := e.vacate config, time } = t at *
  obtain ⟨labels, snapshots, hcommit⟩ := Turn.commit_pads heffects hmoved hrequests
  -- A pad that is reset depends on the old one by its label only.
  have hpads : t.engine.pads.relabel labels = config.newPads.relabel labels := by
    have hnew : ∀ user, config.newPads.pad user =
        (Pad.reset {} (config.padOf user).stickShape (config.padOf user).connected).1 := by
      intro user
      simp [Config.newPads, PadBank.pad]
    refine PadBank.ext_pad ?_ fun user => ?_
    · rw [hwritten]
      exact hcount
    · rw [PadBank.pad_relabel, PadBank.pad_relabel, hnew, hpad]
      rfl
  refine ⟨labels, snapshots, ?_⟩
  rw [hcommit, hpads, hwritten]
  rfl

/-- **An installation** ends at the same engine wherever it begins, apart from the dress. -/
theorem dressed_install (e : Engine) (hqueue : e.queue = []) (config : Config) (time : Nat) :
    e.install config time = config.plain.inDress (e.install config time) := by
  obtain ⟨labels, snapshots, hturn⟩ := inTurn_resetPads e config time
  have hlabels := labels_eq (congrArg Engine.pads hturn)
  have hblank : (e.vacate config).inTurn time (resetPads config) =
      config.blank.inDress ((e.vacate config).inTurn time (resetPads config)) := by
    unfold inDress
    rw [hlabels, hturn]
    simp [Config.blank, vacate, hqueue]
  have hbound := bindAll_inDress config.blank ((e.vacate config).inTurn time (resetPads config))
    config.mappings
  rw [← hblank] at hbound
  exact eq_inDress hbound

/-- An installation tells nobody but the readers of the pads. -/
theorem install_eq (e : Engine) (config : Config) (time : Nat) :
    ∃ bindings outputs pads snapshots, e.install config time = { e.vacate config with
      bindings, outputs, pads
      journal := { e.journal with snapshots } } := by
  obtain ⟨labels, snapshots, hturn⟩ := inTurn_resetPads e config time
  obtain ⟨bindings, pads, outputs, hbound, -⟩ :=
    bindAll_frame config.mappings ((e.vacate config).inTurn time (resetPads config))
  rw [hturn] at hbound
  refine ⟨bindings, outputs, pads, snapshots, ?_⟩
  unfold install
  rw [hturn, hbound]

variable {e : Engine}

/-- **A reload** is an installation: once everything has been released there is nothing to cancel, and
no request waits. -/
theorem reload_eq (he : Operated Config.IsCompiled e) (config : Config) :
    e.reload config = (e.releaseAll e.lastTime).install config e.lastTime := by
  have hqueue := queue_releaseAll he.measured e.lastTime
  show (e.freed.install config e.lastTime).drainQueue e.lastTime = _
  rw [freed_eq he.releasable]
  apply drainQueue_of_nil
  rw [queue_install, hqueue]

/-- So a reload ends at the same engine as a start, apart from the dress. -/
theorem dressed_reload (he : Operated Config.IsCompiled e) (config : Config) :
    e.reload config = (ofConfig config).inDress (e.reload config) := by
  have hqueue := queue_releaseAll he.measured e.lastTime
  have hreload := dressed_install _ hqueue config e.lastTime
  have hstart := dressed_install { pads := PadBank.ofCount config.settings.users } rfl config 0
  change ofConfig config = config.plain.inDress (ofConfig config) at hstart
  rw [← reload_eq he] at hreload
  rw [hstart, inDress_inDress]
  exact hreload

/-! ## §3 Afterwards -/

/-- The answers to several calls in a row. -/
def answers (e : Engine) : List Call → List Bool
  | [] => []
  | call :: rest => e.answer call :: (e.after call).answers rest

end Engine

/-- What a pad shows, without its version and its time. -/
def Snapshot.unlabelled (s : Snapshot) : Snapshot := { s with version := 0, timestamp := 0 }

theorem PadBank.unlabelled_relabel (b : PadBank) (labels : User → Nat × Nat) (user : Nat) :
    ((b.relabel labels).snapshot? user).map Snapshot.unlabelled =
      (b.snapshot? user).map Snapshot.unlabelled := by
  unfold snapshot?
  by_cases hlimit : user < userLimit
  · have hpad : (b.relabel labels).pads[user] = b.pads[user].relabel (labels ⟨user, hlimit⟩) :=
      b.pad_relabel labels ⟨user, hlimit⟩
    simp only [hlimit, dite_true, count_relabel, hpad]
    split <;> rfl
  · simp [hlimit]

theorem Clock.timers_of_unarmed {c : Clock} (h : ∀ token, c.isArmed token = false) :
    c.timers = [] := by
  apply List.eq_nil_iff_forall_not_mem.mpr
  intro t ht
  have harmed : c.isArmed t.token = true := List.any_eq_true.mpr ⟨t, ht, by simp⟩
  rw [h] at harmed
  contradiction

namespace Engine

/-- Whatever is called, the engines give the same answers, tell the host the same, and show the same
pads apart from versions and times. -/
structure SameCourse (e e' : Engine) (calls : List Call) : Prop where
  answers : e'.answers calls = e.answers calls
  events : ∃ told, (e.afterAll calls).journal.events = e.journal.events ++ told ∧
    (e'.afterAll calls).journal.events = e'.journal.events ++ told
  snapshots (user : Nat) : ((e'.afterAll calls).snapshot? user).map Snapshot.unlabelled =
    ((e.afterAll calls).snapshot? user).map Snapshot.unlabelled

namespace Disguised

variable {past : Past} {e e' : Engine}

theorem snapshot? (h : Disguised past e e') (user : Nat) :
    (e'.snapshot? user).map Snapshot.unlabelled = (e.snapshot? user).map Snapshot.unlabelled := by
  obtain ⟨g, rfl, rfl⟩ := h
  exact e.pads.unlabelled_relabel g.labels user

theorem afterAll (h : Disguised past e e') (calls : List Call) :
    Disguised past (e.afterAll calls) (e'.afterAll calls) ∧ e'.answers calls = e.answers calls := by
  induction calls generalizing e e' with
  | nil => exact ⟨h, rfl⟩
  | cons call rest ih =>
    obtain ⟨hnext, hanswer⟩ := h.after call
    obtain ⟨hend, hanswers⟩ := ih hnext
    refine ⟨hend, ?_⟩
    simp only [Engine.answers, hanswer, hanswers]

/-- **An engine in disguise** runs the same course as the one without. -/
theorem sameCourse (h : Disguised past e e') (hquiet : e.journal.events = #[]) (calls : List Call) :
    SameCourse e e' calls := by
  obtain ⟨hend, hanswers⟩ := h.afterAll calls
  refine ⟨hanswers, ⟨(e.afterAll calls).journal.events, ?_, ?_⟩, hend.snapshot?⟩
  · simp [hquiet]
  · have hbefore : e'.journal.events = past.events := by
      obtain ⟨g, rfl, rfl⟩ := h
      simp [under, hquiet]
    rw [hbefore]
    obtain ⟨g, rfl, hunder⟩ := hend
    rw [hunder]
    rfl

end Disguised

/-- A new engine for a configuration, with an active user and the time of a clock. -/
def startedAs (config : Config) (activeUser : User) (now : Nanoseconds) : Engine :=
  { ofConfig config with activeUser, clock := { now } }

/-- What an engine has behind it. -/
def past (e : Engine) : Past where
  tokens := e.lastToken
  armings := e.clock.armings
  requests := e.journal.requests
  events := e.journal.events

/-- A new engine has no timers, and has told nobody anything but the readers of the pads. -/
theorem start_past (config : Config) : (ofConfig config).timers = [] ∧
    (ofConfig config).lastToken = 0 ∧ (ofConfig config).journal.events = #[] ∧
    (ofConfig config).journal.requests = #[] := by
  obtain ⟨bindings, outputs, pads, snapshots, hinstall⟩ :=
    install_eq { pads := PadBank.ofCount config.settings.users } config 0
  unfold ofConfig
  rw [hinstall]
  exact ⟨rfl, rfl, rfl, rfl⟩

/-- Its bindings know no timers. -/
theorem shift_start (config : Config) (tokens : TimerToken) :
    (ofConfig config).bindings.map (fun b => b.shift tokens) = (ofConfig config).bindings := by
  have hshift : ∀ b : Binding, b.latch = {} → b.shift tokens = b := by
    rintro ⟨mapping, slot, latch⟩ rfl
    rfl
  apply Array.ext
  · simp
  · intro id hmapped hbound
    obtain ⟨-, hrest⟩ := install_binding (Array.getElem?_eq_getElem hbound)
    rw [Array.getElem_map]
    exact hshift _ hrest

/-- An engine in the dress of a new one is a new engine in disguise. -/
theorem disguised_of_dressed {config : Config} (hdress : e = (ofConfig config).inDress e)
    (htimers : e.clock.timers = []) :
    Disguised e.past (startedAs config e.activeUser e.clock.now) e := by
  obtain ⟨hnone, htoken, hevents, hrequests⟩ := start_past config
  refine ⟨{ e.past with labels := e.labels, lastTime := e.lastTime, snapshots := e.journal.snapshots },
    rfl, ?_⟩
  have hclock : e.clock = { now := e.clock.now, armings := e.clock.armings } := by
    rw [← htimers]
  conv_lhs => rw [hdress]
  simp [inDress, under, startedAs, past, Clock.shift, shift_start, hnone, htoken, hevents, hrequests,
    ← hclock]

/-! ## §4 Reloading -/

/-- An engine that has been reloaded is as good as new: `left` is the engine when everything had been
released under the old configuration. -/
structure FreshStart (left : Engine) (config : Config) (e : Engine) : Prop where
  /-- The state is that of a new engine, apart from what an installation hands on. -/
  state : e = (ofConfig config).inDress e
  /-- The active user stays if there still is one of that number. -/
  activeUser : e.activeUser =
    if left.activeUser < clampUsers config.settings.users then left.activeUser else User.first
  unarmed (token : TimerToken) : e.clock.isArmed token = false
  queue : e.queue = []
  remainder : e.remainder = MotionRemainder.none
  /-- So it runs the course of a new engine with the same active user and the same time. -/
  course (calls : List Call) : SameCourse (startedAs config e.activeUser e.clock.now) e calls

/-- **A reload is a fresh start.** -/
theorem fresh_start (he : Reachable Config.IsCompiled e) (config : Config) :
    FreshStart (e.releaseAll e.lastTime) config (e.reload config) := by
  have hdress := dressed_reload he.operated config
  have hqueue := queue_releaseAll he.operated.measured e.lastTime
  have hneutral := neutral_releaseAll he.operated.releasable e.lastTime
  -- The release has stopped all timers.
  have hrelease : (Call.releaseAll e.lastTime).Admitted Config.IsCompiled := trivial
  have hunarmed : ∀ token, (e.releaseAll e.lastTime).clock.isArmed token = false :=
    (he.call hrelease).timersAgree.isArmed hneutral.timers
  obtain ⟨bindings, outputs, pads, snapshots, hinstall⟩ :=
    install_eq (e.releaseAll e.lastTime) config e.lastTime
  rw [← reload_eq he.operated] at hinstall
  have hclock : (e.reload config).clock = (e.releaseAll e.lastTime).clock := by
    rw [hinstall]
    rfl
  rw [← hclock] at hunarmed
  constructor
  · exact hdress
  · rw [hinstall]
    rfl
  · exact hunarmed
  · rw [hinstall]
    exact hqueue
  · rw [hinstall]
    rfl
  · exact (disguised_of_dressed hdress (Clock.timers_of_unarmed hunarmed)).sameCourse
      (start_past config).2.2.1

/-- A stick is turning when the same configuration is put in place once more, and begins anew. -/
theorem fresh_start_turning : Reachable Config.IsCompiled turning ∧
    (turning.latch 1).timer.isSome = true ∧
    FreshStart (turning.releaseAll turning.lastTime) turningConfig.compile
      (turning.reload turningConfig.compile) := by
  have hreachable : Reachable Config.IsCompiled turning := (Reachable.compiled _).input ..
  have hturns : (turning.latch 1).timer.isSome = true := by
    decide +kernel
  exact ⟨hreachable, hturns, fresh_start hreachable turningConfig.compile⟩

end Engine

end VirtualPad
