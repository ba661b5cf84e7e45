import VirtualPad.Proofs.Assignment
import VirtualPad.Proofs.Fittings
import VirtualPad.Proofs.Footprints
import VirtualPad.Proofs.Requests

/-!
# Every lookup finds something

Numbers of bindings and users are kept in many places: the lines of the board list bindings, timers
and requests name them, latches remember users, and mappings name users as they were configured.
They are used later, when the configuration may have been replaced.

`Engine.InOrder` says that all of these numbers are numbers of something.  It holds after every
installation and is kept by every deed, so it holds at every moment between two turns; within a turn
the layout stays.  Hence whatever an engine that runs compiled configurations looks up is there, and
no slot is given away twice (`Engine.sound_of_visited`).
-/

namespace VirtualPad

/-- What is looked up is there, and a slot that is claimed is free. -/
def Visit.Sound : Visit → Prop
  | .source _ _ _ _ => True
  | .binding id count => id < count
  | .pad user => user < userLimit
  | .part index count => index < count
  | .claim taken => taken = false

theorem PadCell.sound_part (cell : PadCell) : cell.part.Sound := by
  cases cell <;> exact Fin.isLt _

theorem sound_visitsPads {users : List Nat} {part : Visit}
    (husers : ∀ user ∈ users, user < userLimit) (hpart : part.Sound) :
    ∀ v ∈ visitsPads users part, v.Sound := by
  intro v hv
  obtain ⟨user, huser, hv⟩ := List.mem_flatMap.mp hv
  rcases List.mem_pair.mp hv with rfl | rfl
  · exact husers user huser
  · exact hpart

theorem Visit.OfPad.sound {v : Visit} (h : v.OfPad) : v.Sound := by
  rcases h with ⟨user, rfl⟩ | ⟨cell, rfl⟩
  · exact user.isLt
  · exact cell.sound_part

/-! ## §1 Cascades -/

namespace Turn

/-- What hears of a pulse finds what it looks up, on a board that knows its listeners. -/
def Sounds (scout : Scout) : Prop :=
  ∀ (t : Turn) (c : Control) (pulse : Pulse), t.engine.Wired → ∀ v ∈ scout t c pulse, v.Sound

variable {scout : Scout} (hscout : Sounds scout) {t : Turn}

include hscout

theorem sound_visitsEcho (target : Control) (hwired : t.engine.Wired) (echo : Option Pulse) :
    ∀ v ∈ visitsEcho scout target t echo, v.Sound := by
  cases echo with
  | none => exact List.forall_mem_nil _
  | some pulse => exact hscout t target pulse hwired

/-- A binding that exists is found, and so is all that running it comes by. -/
theorem sound_visitsBinding (hwired : t.engine.Wired) {id : Nat} (hid : id < t.engine.bindings.size)
    (pulse : Pulse) (forced : Bool) : ∀ v ∈ t.visitsBinding scout id pulse forced, v.Sound := by
  by_cases h : ∃ b, t.engine.bindings[id]? = some b ∧ t.Reaches b pulse forced
  · obtain ⟨b, hb, hreaches⟩ := h
    rw [visitsBinding_of_reaches scout hb hreaches rfl]
    refine List.forall_mem_cons.mpr ⟨hid, List.forall_mem_append.mpr ⟨?_, ?_⟩⟩
    · exact fun v hv => (ofPad_visitsFirst t id b pulse _ _ v hv).sound
    · refine sound_visitsEcho hscout _ (hwired.congr ?_) _
      exact (t.steps_firstStep hb pulse forced _ _).layout
  · rw [visitsBinding_of_not_reaches scout fun b hb hreaches => h ⟨b, hb, hreaches⟩]
    exact List.forall_mem_singleton.mpr hid

theorem sound_visitsReview (hwired : t.engine.Wired) {id : Nat} (hid : id < t.engine.bindings.size) :
    ∀ v ∈ t.visitsReview scout id, v.Sound := by
  unfold visitsReview
  refine List.forall_mem_cons.mpr ⟨hid, ?_⟩
  split
  · exact List.forall_mem_nil _
  · split
    · exact sound_visitsBinding hscout hwired hid _ true
    · exact List.forall_mem_nil _

theorem sound_visitsPair (hwired : t.engine.Wired) (pulse : Pulse) (pair : Control) :
    ∀ v ∈ visitsPair scout pulse t pair, v.Sound := by
  unfold visitsPair
  split
  · exact List.forall_mem_nil _
  · split
    · exact hscout t pair _ hwired
    · exact List.forall_mem_nil _

omit hscout

/-- Where the layout stays as it is, all items of a walk find what they look up. -/
theorem sound_visitsWalk {α : Type} {run : Turn → α → Turn} {visits : Turn → α → List Visit}
    (items : List α) {layout : Layout}
    (hrun : ∀ (t : Turn) (item : α), (run t item).engine.layout = t.engine.layout)
    (hvisits : ∀ t : Turn, t.engine.layout = layout → ∀ item ∈ items,
      ∀ v ∈ visits t item, v.Sound)
    (ht : t.engine.layout = layout) : (items.foldl run t).engine.layout = layout ∧
      ∀ v ∈ visitsWalk run visits t items, v.Sound :=
  visitsWalk_along (P := fun t : Turn => t.engine.layout = layout) (G := fun _ => True)
    (fun t item hitem ht _ => ⟨(hrun t item).trans ht, hvisits t ht item hitem⟩) ht
    fun _ _ => trivial

/-- **Wherever a cascade leads**, the bindings that are listed exist. -/
theorem sound_visitsFeed (room : Nat) : Sounds (visitsFeed room) := by
  -- What a binding or a pair feeds has less room left.
  induction room with
  | zero => exact fun t c pulse _ => List.forall_mem_singleton.mpr trivial
  | succ room ih =>
    intro t c pulse hwired
    cases hline : t.engine.board.line? c with
    | none =>
      rw [visitsFeed_none _ t c pulse hline]
      exact List.forall_mem_singleton.mpr trivial
    | some line =>
      -- The bindings of the chain and the watchers stay where they are.
      have hlisted : ∀ {t' : Turn}, t'.engine.layout = t.engine.layout → ∀ id,
          id ∈ line.chain ∨ id ∈ line.watchers → id < t'.engine.bindings.size := by
        intro t' ht' id hid
        obtain ⟨b, hb⟩ : ∃ b, t.engine.bindings[id]? = some b := by
          rcases hid with hid | hid
          · exact ((hwired.chain c id).mp ⟨line, hline, hid⟩).imp fun _ h => h.1
          · exact ((hwired.watchers c id).mp ⟨line, hline, hid⟩).imp fun _ h => h.1
        rw [Engine.size_congr ht']
        exact (Array.getElem?_eq_some_iff.mp hb).1
      have hfed : ∀ t c pulse, Steps t (feed room t c pulse).1 := fun t c pulse =>
        t.steps_feed room c pulse
      rw [visitsFeed_succ room t c pulse hline]
      dsimp only
      generalize t.own c pulse = own
      have hrun := sound_visitsWalk (t := t.mark c own.user own.down) line.chain
        (fun t' id => (t'.steps_runBinding hfed id own false).layout)
        (fun t' ht' id hid => sound_visitsBinding ih (hwired.congr ht') (hlisted ht' id (.inl hid))
          own false) (Engine.layout_setBoard t.engine c own.user own.down)
      rw [← fst_runChain room t c line own] at hrun
      have hpair : ∀ t' pair,
          (followPair (feed room) own t' pair).1.engine.layout = t'.engine.layout := fun t' pair =>
        followPair_cases (P := fun t : Turn => t.engine.layout = t'.engine.layout) rfl
          fun down => feed_layout room t' pair _
      have hfollowed := sound_visitsWalk line.pairs hpair
        (fun t' ht' pair _ => sound_visitsPair ih (hwired.congr ht') own pair) hrun.1
      rw [← fst_runPairs room t c line own] at hfollowed
      refine List.forall_mem_cons.mpr ⟨trivial, List.forall_mem_append.mpr
        ⟨List.forall_mem_append.mpr ⟨hrun.2, hfollowed.2⟩, ?_⟩⟩
      split
      · refine (sound_visitsWalk line.watchers (fun t' id => ?_) (fun t' ht' id hid =>
          sound_visitsReview ih (hwired.congr ht') (hlisted ht' id (.inr hid))) hfollowed.1).2
        exact review_cases (P := fun t : Turn => t.engine.layout = t'.engine.layout) rfl
          (t'.steps_runBinding hfed id _ true).layout
      · exact List.forall_mem_nil _

/-- The binding of a timer exists. -/
theorem sound_visitsTick {use : TimerUse} (hwired : t.engine.Wired)
    (hid : use.binding < t.engine.bindings.size) : ∀ v ∈ t.visitsTick use, v.Sound := by
  have hlapsed := (Step.lapse t use).layout
  unfold visitsTick
  refine List.forall_mem_cons.mpr ⟨hid, ?_⟩
  dsimp only
  split
  · exact List.forall_mem_nil _
  · rename_i b hb
    cases use.kind with
    | turbo =>
      refine List.forall_mem_append.mpr ⟨?_, ?_⟩
      · split
        · exact List.forall_mem_nil _
        · exact fun v hv => (ofPad_visitsWrite t _ _ v hv).sound
      · refine sound_visitsEcho (sound_visitsFeed cascadeRoom) _ (hwired.congr ?_) _
        obtain ⟨pads, outputs, hblink, hcount⟩ := blink_frame (t.mapEngine fun e => e.lapse use)
          use.binding (t.sourceOf b) (t.targetOf b)
        rw [hblink, Engine.layout_write]
        · exact (Engine.layout_mapLatch _ _ _).trans hlapsed
        · exact hcount
    | release =>
      refine sound_visitsBinding (sound_visitsFeed cascadeRoom) (hwired.congr hlapsed) ?_ _ false
      rw [Engine.size_congr hlapsed]
      exact hid
    | repeating =>
      dsimp only
      split
      · exact fun v hv => (ofPad_visitsWrite t _ _ v hv).sound
      · exact List.forall_mem_nil _
    | rotate =>
      dsimp only
      split
      · exact fun v hv => (ofPad_visitsPads _ _ v hv).sound
      · exact List.forall_mem_nil _
    | keyRepeatDelay | keyRepeat => exact List.forall_mem_nil _

end Turn

/-! ## §2 What is kept between turns -/

namespace Engine

/-- The numbers that the engine keeps are numbers of something. -/
structure InOrder (e : Engine) : Prop where
  wired : e.Wired
  users : e.userCount ≤ userLimit
  requests : ∀ r ∈ e.queue, r.mapping < e.bindings.size
  timers : TimersKnown e

namespace InOrder

variable {e e' : Engine}

/-- The requests of a turn are made by bindings that exist. -/
theorem requests_deed (h : Deed e e') (he : ∀ r ∈ e.queue, r.mapping < e.bindings.size) :
    ∀ r ∈ e'.queue, r.mapping < e'.bindings.size := by
  refine h.keeps (P := fun e => ∀ r ∈ e.queue, r.mapping < e.bindings.size)
    (T := fun t => (∀ r ∈ t.engine.queue, r.mapping < t.engine.bindings.size) ∧
      ∀ r ∈ t.requests, r.mapping < t.engine.bindings.size) ?_ ?_ ?_ ?_ ?_ he
  · exact fun _ _ he => ⟨he, List.forall_mem_nil _⟩
  · intro t t' hstep ⟨hqueue, hrequests⟩
    have hsame : t'.engine.bindings.size = t.engine.bindings.size := size_congr hstep.layout
    have hwaiting := Turn.Steps.queue (.single hstep)
    refine ⟨?_, ?_⟩
    · rw [hwaiting, hsame]
      exact hqueue
    · rw [hsame]
      -- A step asks for one thing at most, in the name of a binding that is there.
      cases hstep with
      | request hid =>
        exact List.forall_mem_append.mpr ⟨hrequests, List.forall_mem_singleton.mpr hid⟩
      | pads users _ =>
        rw [Turn.requests_updatePads]
        exact hrequests
      | output slot down replaces hkind =>
        rw [Turn.requests_writeOutput]
        exact hrequests
      | _ => exact hrequests
  · intro t ht
    obtain ⟨pads, queue, remainder, snapshots, events, hcommit, -⟩ := t.commit_frame
    have hsize : t.commit.bindings.size = t.engine.bindings.size := by rw [hcommit]
    rw [Turn.queue_commit, hsize]
    exact List.forall_mem_append.mpr ht
  · intro e e' herrand he
    cases herrand with
    | take hqueue => exact fun r hr => he r (hqueue ▸ List.mem_cons_of_mem _ hr)
    | remember id user =>
      show ∀ r ∈ e.queue, r.mapping < (e.mapLatch id _).bindings.size
      rw [size_mapLatch]
      exact he
    | forward | enable | activate | pass => exact he
  · exact fun he => he

theorem deed (h : Deed e e') (he : InOrder e) : InOrder e' where
  wired := he.wired.congr h.layout
  users := (congrArg Layout.users h.layout).trans_le he.users
  requests := requests_deed h he.requests
  timers := h.keeps_stable (timersKnown_stable fun _ => True) (fun _ _ he => he) he.timers

theorem deeds (h : Deeds e e') (he : InOrder e) : InOrder e' := by
  induction h with
  | refl => exact he
  | tail _ hlast ih => exact ih.deed hlast

/-- An installation leaves nothing of the old numbers, provided that no request waits. -/
theorem install {config : Config} {time : Nat} (hqueue : (e.install config time).queue = []) :
    InOrder (e.install config time) where
  wired := wired_install e config time
  users := by
    rw [count_install]
    exact Nat.max_le.mpr ⟨by decide, Nat.min_le_left _ _⟩
  requests := by
    rw [hqueue]
    exact List.forall_mem_nil _
  timers := TimersKnown.ofInstall e config time

end InOrder

/-! ## §3 Calls -/

variable {e : Engine}

theorem sound_visitsForceRelease {t : Turn} (hwired : t.engine.Wired) {id : Nat}
    (hid : id < t.engine.bindings.size) : ∀ v ∈ visitsForceRelease t id, v.Sound := by
  refine List.forall_mem_cons.mpr ⟨hid, ?_⟩
  split
  · exact Turn.sound_visitsBinding (Turn.sound_visitsFeed cascadeRoom) hwired hid _ true
  · exact List.forall_mem_nil _

theorem sound_visitsForceReleaseAll (he : InOrder e) (time : Nat) :
    ∀ v ∈ e.visitsForceReleaseAll time, v.Sound := by
  refine List.forall_mem_append.mpr ⟨?_, ?_⟩
  · have hlayout : ({ engine := e, time } : Turn).engine.layout = e.layout := rfl
    refine (Turn.sound_visitsWalk (List.range e.bindings.size)
      (fun t id => (t.steps_forceRelease id).layout) (fun t ht id hid => ?_) hlayout).2
    refine sound_visitsForceRelease (he.wired.congr ht) ?_
    rw [size_congr ht]
    exact List.mem_range.mp hid
  · intro v hv
    obtain ⟨user, huser, rfl⟩ := List.mem_map.mp hv
    exact (List.mem_range.mp huser).trans_le he.users

theorem sound_visitsObey (he : InOrder e) {r : Request} (hr : r.mapping < e.bindings.size)
    (time : Nat) : ∀ v ∈ e.visitsObey r time, v.Sound := by
  refine List.forall_mem_cons.mpr ⟨hr, ?_⟩
  cases r.command with
  | toggleDisable =>
    dsimp only
    split
    · exact List.forall_mem_nil _
    · exact sound_visitsForceReleaseAll he time
  | toggleConnected =>
    dsimp only
    split
    · exact List.forall_mem_singleton.mpr r.user.isLt
    · exact List.forall_mem_nil _
  | setActiveUser | holdActiveUser | reload | loadConfig => exact List.forall_mem_nil _

theorem sound_visitsObeyAll (time bound : Nat) (he : InOrder e) :
    ∀ v ∈ visitsObeyAll time bound e, v.Sound := by
  induction bound generalizing e with
  | zero => exact List.forall_mem_nil _
  | succ bound ih =>
    unfold visitsObeyAll
    split
    · exact List.forall_mem_nil _
    · rename_i r rest hqueue
      have htaken : InOrder { e with queue := rest } := he.deed (.duty (.errand (.take hqueue)))
      refine List.forall_mem_append.mpr ⟨sound_visitsObey htaken ?_ time, ih ?_⟩
      · exact he.requests r (hqueue ▸ List.mem_cons_self)
      · exact htaken.deeds (duties_obey _ r time).deeds

theorem sound_visitsDrain (he : InOrder e) (time : Nat) : ∀ v ∈ e.visitsDrain time, v.Sound :=
  sound_visitsObeyAll time _ he

theorem sound_visitsAccept (he : InOrder e) (source : Control) (pulse : Pulse) (time : Nat) :
    ∀ v ∈ e.visitsAccept source pulse time, v.Sound :=
  List.forall_mem_append.mpr ⟨Turn.sound_visitsFeed _ _ source pulse (he.wired.congr rfl),
    sound_visitsDrain (he.deed (.feed e source pulse time)) time⟩

/-- **A timer that goes off** still belongs to a binding. -/
theorem sound_visitsTimer (he : InOrder e) (token : TimerToken) (time : Nat) :
    ∀ v ∈ e.visitsTimer token time, v.Sound := by
  unfold visitsTimer
  split
  · exact List.forall_mem_nil _
  · rename_i use huse
    have hid : use.binding < e.bindings.size := by
      refine Nat.lt_of_not_le fun hout => ?_
      have htimer := he.timers use (List.mem_of_find?_eq_some huse)
      rw [latch_of_le hout] at htimer
      contradiction
    exact List.forall_mem_append.mpr ⟨Turn.sound_visitsTick (he.wired.congr rfl) hid,
      sound_visitsDrain (he.deed (.expire huse time)) time⟩

theorem sound_visitsDue (limit : Nanoseconds) (bound : Nat) (he : InOrder e) :
    ∀ v ∈ visitsDue limit bound e, v.Sound := by
  induction bound generalizing e with
  | zero => exact List.forall_mem_nil _
  | succ bound ih =>
    unfold visitsDue
    split
    · exact List.forall_mem_nil _
    · rename_i token due clock _
      have hpassed : InOrder { e with clock } := he.deed (.duty (.errand (.pass e clock)))
      exact List.forall_mem_append.mpr ⟨sound_visitsTimer hpassed token _,
        ih (hpassed.deeds (deeds_onTimer _ token _))⟩

theorem sound_visitsReleaseAll (he : InOrder e) (time : Nat) :
    ∀ v ∈ e.visitsReleaseAll time, v.Sound :=
  List.forall_mem_append.mpr ⟨sound_visitsForceReleaseAll he time,
    sound_visitsDrain (he.deed (.release e time)) time⟩

/-! ## §4 Installations -/

/-- A slot that is free for several users is claimed for each of them once. -/
theorem sound_visitsClaims {cell : PadCell} {slot : Slot} {users : List User}
    (hnodup : users.Nodup) {bank : PadBank}
    (hfree : ∀ user ∈ users, ((bank.pad user).owned cell).has slot = false) :
    ∀ v ∈ visitsClaims cell slot bank users, v.Sound := by
  induction users generalizing bank with
  | nil => exact List.forall_mem_nil _
  | cons first rest ih =>
    obtain ⟨hfirst, hrest⟩ := List.nodup_cons.mp hnodup
    refine List.forall_mem_cons.mpr ⟨hfree first List.mem_cons_self, ih hrest fun user huser => ?_⟩
    -- The pads of the other users are as they were.
    have hne : first.val ≠ user.val := fun h => hfirst (Fin.ext h ▸ huser)
    have hother : (bank.set first ((bank.pad first).claim cell slot)).pad user = bank.pad user := by
      simp [PadBank.pad, PadBank.set, hne]
    rw [hother]
    exact hfree user (List.mem_cons_of_mem _ huser)

theorem nodup_slotUsers (e : Engine) (ref : UserRef) : (e.slotUsers ref).Nodup := by
  have hall : (e.targetUsers .everyone).Nodup := (List.nodup_finRange _).filter _
  cases ref with
  | index user =>
    unfold slotUsers targetUsers
    dsimp only
    split
    · exact List.nodup_singleton _
    · exact List.nodup_nil
  | active | everyone => exact hall

/-- A mapping is bound to slots that are free, on pads of users that exist. -/
theorem sound_visitsBind {m : Mapping} (husers : e.userCount ≤ userLimit)
    (hm : ∀ user, m.targetUser = .index user → user < userLimit) :
    ∀ v ∈ e.visitsBind m, v.Sound := by
  unfold visitsBind
  split
  · rename_i cell _
    refine List.forall_mem_append.mpr ⟨sound_visitsPads ?_ cell.sound_part, ?_⟩
    · intro user huser
      cases href : m.targetUser with
      | index u =>
        rw [href] at huser
        obtain rfl := List.mem_singleton.mp huser
        exact hm _ href
      | active | everyone =>
        rw [href] at huser
        exact (List.mem_range.mp huser).trans_le husers
    · split
      · exact List.forall_mem_nil _
      · rename_i slot hslot
        refine sound_visitsClaims (e.nodup_slotUsers m.targetUser) fun user huser => ?_
        have hfree := Mask.has_lowestFree hslot
        rw [← Bool.not_eq_true, PadBank.has_owned] at hfree
        rw [← Bool.not_eq_true, Pad.has_owned]
        exact fun ⟨place, hplace, htaken⟩ => hfree ⟨user, huser, place, hplace, htaken⟩
  · dsimp only
    split
    · exact List.forall_mem_nil _
    · rename_i slot hslot
      exact List.forall_mem_singleton.mpr (Mask.has_lowestFree hslot)
  · exact List.forall_mem_nil _

/-- **No slot of a compiled configuration is given away twice**, and the users of its mappings
exist. -/
theorem sound_visitsInstall (e : Engine) {config : Config} (hconfig : config.IsCompiled)
    (time : Nat) : ∀ v ∈ e.visitsInstall config time, v.Sound := by
  refine List.forall_mem_append.mpr ⟨?_, ?_⟩
  · intro v hv
    obtain ⟨user, huser, rfl⟩ := List.mem_map.mp hv
    exact List.mem_range.mp huser
  · have hstart : ((e.vacate config).inTurn time (resetPads config)).userCount ≤ userLimit := by
      obtain ⟨pads, queue, remainder, snapshots, events, hturn, hcount⟩ := reset_frame e config time
      rw [hturn]
      show pads.count ≤ userLimit
      rw [hcount]
      exact Nat.max_le.mpr ⟨by decide, Nat.min_le_left _ _⟩
    refine (Turn.visitsWalk_along (P := fun e : Engine => e.userCount ≤ userLimit)
      (G := fun _ => True) (fun e m hm he _ => ⟨?_, sound_visitsBind he fun user huser => ?_⟩)
      hstart fun _ _ => trivial).2
    · obtain ⟨pads, outputs, slot, hbind, hcount⟩ := bind_frame e m
      rw [hbind]
      exact hcount.trans_le he
    · exact ((hconfig.checked hm).targetUser user huser).trans_le hconfig.users.2

/-! ## §5 Every run -/

/-- **Between two operations everything is in order.** -/
theorem Operated.inOrder {admits : Config → Prop} (he : Operated admits e) : InOrder e :=
  he.of_deeds (fun {config} _ => InOrder.install (queue_start config)) (fun h he => he.deed h)
    fun {_ config} _ he _ => InOrder.install (queue_reinstall he.measured config)

theorem sound_visitsCall (he : Operated Config.IsCompiled e) {call : Call}
    (hcall : call.Admitted Config.IsCompiled) : ∀ v ∈ e.visitsCall call, v.Sound := by
  have horder := he.inOrder
  unfold visitsCall
  cases call with
  | input source user down strength time =>
    dsimp only
    split
    · exact sound_visitsAccept horder source _ time
    · exact List.forall_mem_nil _
  | motion source user magnitude time =>
    dsimp only
    split
    · split
      · exact sound_visitsAccept horder source _ time
      · exact List.forall_mem_nil _
    · exact List.forall_mem_nil _
  | runUntil ms => exact sound_visitsDue _ _ horder
  | releaseAll time => exact sound_visitsReleaseAll horder time
  | reload config =>
    have hinstalled := InOrder.install (queue_reinstall he.measured config)
    have hreleased := sound_visitsReleaseAll horder e.lastTime
    have hinstall := sound_visitsInstall e.freed hcall e.lastTime
    exact List.forall_mem_append.mpr ⟨List.forall_mem_append.mpr ⟨hreleased, hinstall⟩,
      sound_visitsDrain hinstalled e.lastTime⟩

theorem sound_visitsQuestion (he : InOrder e) (c : Control) (user : Nat) :
    ∀ v ∈ e.visitsQuestion c user, v.Sound := by
  unfold visitsQuestion
  dsimp only
  generalize (if (e.descriptor c).flags.ofUser then user else 0) = user
  split
  · split
    · rename_i huser
      refine List.forall_mem_cons.mpr ⟨huser.trans_le he.users, ?_⟩
      cases (e.descriptor c).padCell? with
      | none => exact List.forall_mem_nil _
      | some cell => exact List.forall_mem_singleton.mpr cell.sound_part
    · exact List.forall_mem_nil _
  · exact List.forall_mem_nil _

/-- An engine that is driven in any way comes by this at some time. -/
inductive Visited (admits : Config → Prop) : Visit → Prop
  | start {config : Config} (hconfig : admits config) {v : Visit} (hv : v ∈ visitsStart config) :
      Visited admits v
  | call {e : Engine} (he : Operated admits e) {call : Call} (hcall : call.Admitted admits)
      {v : Visit} (hv : v ∈ e.visitsCall call) : Visited admits v
  | timer {e : Engine} (he : Operated admits e) (token : TimerToken) (time : Nat) {v : Visit}
      (hv : v ∈ e.visitsTimer token time) : Visited admits v
  | question {e : Engine} (he : Operated admits e) (c : Control) (user : Nat) {v : Visit}
      (hv : v ∈ e.visitsQuestion c user) : Visited admits v

/-- **Every lookup of an engine that runs compiled configurations finds something**, whatever calls
come, in whatever order, and whichever timers are said to go off.  And no slot is claimed that is
taken.  The visits that this is about leave nothing out that changes. -/
theorem sound_of_visited :
    (∀ v : Visit, Visited Config.IsCompiled v → v.Sound) ∧
    (∀ (e : Engine) (call : Call), (∀ config, call ≠ .reload config) →
      Confined (e.visitsCall call) e (e.after call)) ∧
    ∀ (e : Engine) (token : TimerToken) (time : Nat),
      Confined (e.visitsTimer token time) e (e.onTimer token time) := by
  refine ⟨fun v h => ?_, fun e _ hcall => confined_after e hcall, confined_onTimer⟩
  cases h with
  | start hconfig hv => exact sound_visitsInstall _ hconfig 0 v hv
  | call he hcall hv => exact sound_visitsCall he hcall v hv
  | timer he token time hv => exact sound_visitsTimer he.inOrder token time v hv
  | question he c user hv => exact sound_visitsQuestion he.inOrder c user v hv

/-- Tab makes the second user the active one while it is held, and A presses a button of whoever is
active. -/
def handedConfig : ConfigFile :=
  { mappings :=
      [{ source := "Tab", target := "HoldActiveUser@2" }, { source := "A", target := "PadA" }] }

/-- The engine while Tab is held. -/
def handed : Engine := (ofConfig handedConfig.compile).after (.input ⟨0x09⟩ 0 true 1 0)

/-- When A is pressed then, the first button of the second pad is looked up. -/
theorem visits_handed : handed.visitsCall (.input ⟨0x41⟩ 0 true 1 1) =
    [.source ⟨0x41⟩ 9 true none, .binding 1 2, .pad 1, .part 0 15] := by
  decide +kernel

theorem sound_of_visited_handed : Visited Config.IsCompiled (.pad 1) ∧ (Visit.pad 1).Sound := by
  have hreachable : Reachable Config.IsCompiled handed := (Reachable.compiled handedConfig).input ..
  have hpress : (Call.input ⟨0x41⟩ 0 true 1 1).Admitted Config.IsCompiled := trivial
  have hvisited : Visited Config.IsCompiled (.pad 1) := by
    refine .call hreachable.operated hpress ?_
    rw [visits_handed]
    simp
  exact ⟨hvisited, sound_of_visited.1 _ hvisited⟩

end Engine

end VirtualPad
