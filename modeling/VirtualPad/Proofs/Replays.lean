import VirtualPad.Proofs.Beats
import VirtualPad.Proofs.Timestamps
import VirtualPad.Replay

/-!
# What a replay prints

A replay prints page by page.  A page is printed at a time and holds what has come out of the engine
since the last one: first the snapshots of the pads, each under the time at which it was committed, and
then what the host was told, under the time of the page.  `Passage` says what happens to the engine while
a page is filled: ticks of the clock while it waits for the next event, or that event.

Snapshots bear the time of what they come from (`stamped_handle`), ticks come in the order of time and
not before the time that had been reached (`Looping.ordered`), and no timer is overdue between two pages
(`InTime`).  So the lines stand in the order of time.

The main result is `Config.replay_in_order`.
-/

namespace VirtualPad

/-! ## §1 What happens to an engine -/

namespace Engine

/-- An event and the engine that it meets. -/
structure Happening where
  before : Engine
  event : Event

def Event.isTick : Event → Bool
  | .timer _ _ => true
  | .input _ _ _ _ _ | .motion _ _ _ _ => false

namespace Happening

def time (h : Happening) : Nat := h.event.time

def after (h : Happening) : Engine := h.before.handle h.event

/-- The snapshots that are committed because of it. -/
def committed (h : Happening) : List Snapshot :=
  h.after.journal.snapshots.toList.drop h.before.journal.snapshots.size

/-- What is committed comes after what has been committed before, and bears the time of the event. -/
theorem snapshots_after (h : Happening) :
    h.after.journal.snapshots.toList = h.before.journal.snapshots.toList ++ h.committed ∧
      ∀ s ∈ h.committed, s.timestamp = h.time := by
  obtain ⟨news, hnews, htimes⟩ := stamped_handle h.before h.event
  have hsame : h.committed = news := by
    rw [committed, after, hnews, ← Array.length_toList, List.drop_left]
  rw [hsame]
  exact ⟨hnews, htimes⟩

theorem deeds (h : Happening) : Deeds h.before h.after := by
  obtain ⟨before, event⟩ := h
  cases event with
  | input source user down strength time =>
    exact @deeds_after before (.input source user down strength time) nofun
  | motion source user magnitude time =>
    exact @deeds_after before (.motion source user magnitude time) nofun
  | timer token time => exact deeds_onTimer before token time

/-- The readers of a pad are told what is committed of it. -/
theorem told (h : Happening) (user : User) :
    Told user h.before h.after (h.committed.filter fun s => s.user == user) := by
  obtain ⟨told, htold⟩ := h.deeds.told user
  have hheard := htold.heard
  rw [heard, heard, h.snapshots_after.1, List.filter_append] at hheard
  rwa [List.append_cancel_left hheard]

end Happening

variable {e e' last : Engine} {course : List Happening} {limit : Nanoseconds}

/-- It can happen to the engine as it is: an event from outside at any time, and a tick when a timer is
due. -/
inductive Occurs (e : Engine) : Happening → Prop
  | input {event : Event} (hevent : event.isTick = false) : Occurs e ⟨e, event⟩
  | tick {limit due : Nanoseconds} {token : TimerToken} {clock : Clock}
      (hdue : e.clock.nextDue? limit = some (token, due, clock)) :
      Occurs e ⟨{ e with clock }, .timer token (due.toMillis % twoTo 64)⟩

/-- What happens to an engine, in order.  The clock moves on when no timer is due. -/
inductive Passage : Engine → List Happening → Engine → Prop
  | nil (e : Engine) : Passage e [] e
  | next {e last : Engine} {h : Happening} {rest : List Happening} (hoccurs : Occurs e h)
      (hrest : Passage h.after rest last) : Passage e (h :: rest) last
  | pass {e last : Engine} {time : Nanoseconds} {rest : List Happening}
      (hdue : e.clock.nextDue? time = none)
      (hrest : Passage { e with clock := e.clock.advanceTo time } rest last) : Passage e rest last

/-- The clock has moved at most. -/
theorem Occurs.before_eq {h : Happening} (hoccurs : Occurs e h) :
    h.before.pads = e.pads ∧ h.before.journal.snapshots = e.journal.snapshots := by
  cases hoccurs with
  | input _ | tick _ => exact ⟨rfl, rfl⟩

theorem Occurs.told {h : Happening} (hoccurs : Occurs e h) (user : User) :
    Told user e h.after (h.committed.filter fun s => s.user == user) := by
  obtain ⟨hpads, hsnapshots⟩ := hoccurs.before_eq
  exact (Told.of_same hpads hsnapshots).trans (h.told user)

theorem Occurs.snapshots {h : Happening} (hoccurs : Occurs e h) :
    h.after.journal.snapshots.toList = e.journal.snapshots.toList ++ h.committed := by
  rw [← hoccurs.before_eq.2]
  exact h.snapshots_after.1

theorem Passage.snapshots (h : Passage e course last) : last.journal.snapshots.toList =
    e.journal.snapshots.toList ++ course.flatMap Happening.committed := by
  induction h with
  | nil e => simp
  | next hoccurs _ ih => rw [ih, hoccurs.snapshots, List.flatMap_cons, List.append_assoc]
  | pass _ _ ih => exact ih

theorem Passage.told (h : Passage e course last) (user : User) :
    Told user e last ((course.flatMap Happening.committed).filter fun s => s.user == user) := by
  induction h with
  | nil e => exact .refl user e
  | next hoccurs _ ih =>
    rw [List.flatMap_cons, List.filter_append]
    exact (hoccurs.told user).trans ih
  | @pass e last time rest _ _ ih =>
    have hmoved : Told user e { e with clock := e.clock.advanceTo time } [] := .of_same rfl rfl
    exact hmoved.trans ih

/-- Ticks up to a time, and then the clock moves there. -/
theorem TicksUntil.exists_passage {times : List Nat} (h : TicksUntil limit e times last) :
    ∃ course, Passage e course { last with clock := last.clock.advanceTo limit } ∧
      course.map Happening.time = times ∧ ∀ h ∈ course, h.event.isTick = true := by
  induction h with
  | done hdue => exact ⟨[], .pass hdue (.nil _), rfl, nofun⟩
  | tick hdue _ ih =>
    obtain ⟨course, hcourse, htimes, hticks⟩ := ih
    exact ⟨_, .next (.tick hdue) hcourse, congrArg (List.cons _) htimes,
      List.forall_mem_cons.mpr ⟨rfl, hticks⟩⟩

/-- Running the clock up to a time is a course of ticks in order, none before the time that had been
reached and none after the time to be reached. -/
theorem InTime.passage_runUntil (he : InTime e) {ms : Nat} (hms : ms < twoTo 64) :
    ∃ course, Passage e course (e.runUntil ms) ∧ (course.map Happening.time).Pairwise (· ≤ ·) ∧
      ∀ h ∈ course, h.event.isTick = true ∧ e.clock.now.toMillis ≤ h.time ∧ h.time ≤ ms := by
  obtain ⟨times, last, hticks, hrun, -⟩ := he.onTime.ticksUntil he.measured he.queue ms
  obtain ⟨hsorted, hrange⟩ := (he.onTime.looping he.measured he.queue _).ordered hms hticks
  obtain ⟨course, hcourse, rfl, hall⟩ := hticks.exists_passage
  rw [hrun]
  exact ⟨course, hcourse, hsorted, fun h hh => ⟨hall h hh, hrange _ (List.mem_map_of_mem hh)⟩⟩

/-- What has been written down does not matter to what happens next. -/
theorem InTime.blank (he : InTime e) : InTime { e with journal := {} } where
  onTime := ⟨⟨he.onTime.known, he.onTime.issued, he.onTime.steady, he.onTime.single,
    he.onTime.interval⟩, he.onTime.ahead⟩
  measured := ⟨⟨he.measured.mirrored.mirrors.congr rfl he.measured.mirrored.mirrors.present
    he.measured.mirrored.mirrors.blinks (fun _ h => h) (fun _ _ => rfl) fun _ => rfl,
    he.measured.mirrored.settled.congr rfl fun _ => rfl⟩, he.measured.few⟩
  queue := he.queue

end Engine

/-! ## §2 Pages -/

open Engine (Happening Passage InTime)

/-- What is printed at one time: what has come out of an engine in a course of events. -/
structure Page where
  time : Nat
  course : List Happening
  events : List HostEvent

/-- A line that is printed under a time. -/
inductive Entry where
  | shown (s : Snapshot)
  | told (time : Nat) (event : HostEvent)

namespace Entry

def time : Entry → Nat
  | .shown s => s.timestamp
  | .told time _ => time

def text : Entry → String
  | .shown s => timedLine s.timestamp s.text
  | .told time event => timedLine time event.text

end Entry

namespace Page

/-- The snapshots that were committed in the course of the page. -/
def shown (p : Page) : List Snapshot := p.course.flatMap Happening.committed

def entries (p : Page) : List Entry := p.shown.map .shown ++ p.events.map (.told p.time)

end Page

/-- The pages that come out of an engine.  Each begins with nothing written down, and ends with what the
host has been told by then. -/
inductive Pages : Engine → List Page → Engine → Prop
  | none (e : Engine) : Pages e [] e
  | page {e last final : Engine} {time : Nat} {course : List Happening} {rest : List Page}
      (hcourse : Passage e course last) (hrest : Pages { last with journal := {} } rest final) :
      Pages e (⟨time, course, last.journal.events.toList⟩ :: rest) final

theorem Pages.append {e e' e'' : Engine} {pages more : List Page} (h : Pages e pages e')
    (h' : Pages e' more e'') : Pages e (pages ++ more) e'' := by
  induction h with
  | none e => exact h'
  | page hcourse _ ih => exact .page hcourse (ih h')

/-- The versions of a pad that the pages show follow one another. -/
theorem Pages.versions {e last : Engine} {pages : List Page} (h : Pages e pages last) (user : User) :
    (((pages.flatMap Page.shown).filter fun s => s.user == user.val).map Snapshot.version) =
      List.range' ((e.pads.pad user).version + 1)
        ((pages.flatMap Page.shown).filter fun s => s.user == user.val).length := by
  induction h with
  | none e => rfl
  | @page e last final time course rest hcourse _ ih =>
    have htold := hcourse.told user
    have hshown : Page.shown ⟨time, course, last.journal.events.toList⟩ =
        course.flatMap Happening.committed := rfl
    have hstart : (last.pads.pad user).version + 1 = (e.pads.pad user).version + 1 +
        ((course.flatMap Happening.committed).filter fun s => s.user == user.val).length := by
      rw [htold.version]
      omega
    rw [List.flatMap_cons, List.filter_append, List.map_append, List.length_append, hshown,
      ← List.range'_append_1, ← hstart, ih]
    exact congrArg (· ++ _) htold.versions

/-- The lines of some pages stand in the order of time, within bounds, and nothing is printed before it
happens. -/
structure InOrder (start finish : Nat) (pages : List Page) : Prop where
  sorted : ((pages.flatMap Page.entries).map Entry.time).Pairwise (· ≤ ·)
  within : ∀ entry ∈ pages.flatMap Page.entries, start ≤ entry.time ∧ entry.time ≤ finish
  early : ∀ p ∈ pages, ∀ h ∈ p.course, h.time ≤ p.time

theorem InOrder.append {start middle finish : Nat} {pages more : List Page}
    (h : InOrder start middle pages) (h' : InOrder middle finish more) (hstart : start ≤ middle)
    (hfinish : middle ≤ finish) : InOrder start finish (pages ++ more) where
  sorted := by
    rw [List.flatMap_append, List.map_append, List.pairwise_append]
    refine ⟨h.sorted, h'.sorted, fun a ha b hb => ?_⟩
    obtain ⟨first, hfirst, rfl⟩ := List.mem_map.mp ha
    obtain ⟨second, hsecond, rfl⟩ := List.mem_map.mp hb
    exact (h.within first hfirst).2.trans (h'.within second hsecond).1
  within entry hentry := by
    rw [List.flatMap_append, List.mem_append] at hentry
    rcases hentry with hentry | hentry
    · exact ⟨(h.within entry hentry).1, (h.within entry hentry).2.trans hfinish⟩
    · exact ⟨hstart.trans (h'.within entry hentry).1, (h'.within entry hentry).2⟩
  early p hp := (List.mem_append.mp hp).elim (h.early p) (h'.early p)

/-- The times of what is committed are those of what it comes from. -/
theorem Page.shown_inOrder {p : Page} (h : (p.course.map Happening.time).Pairwise (· ≤ ·)) :
    (p.shown.map Snapshot.timestamp).Pairwise (· ≤ ·) := by
  unfold shown
  generalize p.course = course at h
  induction course with
  | nil => exact .nil
  | cons first rest ih =>
    rw [List.map_cons, List.pairwise_cons] at h
    rw [List.flatMap_cons, List.map_append, List.pairwise_append]
    have hfirst : ∀ time ∈ first.committed.map Snapshot.timestamp, time = first.time := by
      intro time htime
      obtain ⟨s, hs, rfl⟩ := List.mem_map.mp htime
      exact first.snapshots_after.2 s hs
    refine ⟨List.pairwise_of_forall_mem_list fun a ha b hb => ?_, ih h.2, fun a ha b hb => ?_⟩
    · rw [hfirst a ha, hfirst b hb]
    · obtain ⟨s, hs, rfl⟩ := List.mem_map.mp hb
      obtain ⟨other, hother, hmem⟩ := List.mem_flatMap.mp hs
      rw [hfirst a ha, other.snapshots_after.2 s hmem]
      exact h.1 _ (List.mem_map_of_mem hother)

/-- A page is in order if its course is, and if it is printed after that. -/
theorem Page.inOrder {p : Page} {start : Nat}
    (hsorted : (p.course.map Happening.time).Pairwise (· ≤ ·))
    (hrange : ∀ h ∈ p.course, start ≤ h.time ∧ h.time ≤ p.time) (hstart : start ≤ p.time) :
    InOrder start p.time [p] := by
  have hshown : ∀ s ∈ p.shown, start ≤ s.timestamp ∧ s.timestamp ≤ p.time := by
    intro s hs
    obtain ⟨h, hh, hmem⟩ := List.mem_flatMap.mp hs
    rw [h.snapshots_after.2 s hmem]
    exact hrange h hh
  have hentries : ∀ entry ∈ p.entries, start ≤ entry.time ∧ entry.time ≤ p.time := by
    intro entry hentry
    rcases List.mem_append.mp hentry with hentry | hentry
    · obtain ⟨s, hs, rfl⟩ := List.mem_map.mp hentry
      exact hshown s hs
    · obtain ⟨event, -, rfl⟩ := List.mem_map.mp hentry
      exact ⟨hstart, Nat.le_refl _⟩
  constructor
  · rw [List.flatMap_singleton, entries, List.map_append, List.map_map, List.map_map,
      List.pairwise_append]
    refine ⟨shown_inOrder hsorted, ?_, fun a ha b hb => ?_⟩
    · exact List.pairwise_map.mpr (List.pairwise_of_forall fun _ _ => Nat.le_refl _)
    · obtain ⟨s, hs, rfl⟩ := List.mem_map.mp ha
      obtain ⟨event, -, rfl⟩ := List.mem_map.mp hb
      exact (hshown s hs).2
  · rwa [List.flatMap_singleton]
  · exact fun q hq => List.mem_singleton.mp hq ▸ fun h hh => (hrange h hh).2

/-! ## §3 Replaying -/

/-- The event that an entry of a script stands for. -/
def ScriptEvent.event (s : ScriptEvent) (c : Control) (user : Nat) : Engine.Event :=
  match s.magnitude with
  | some magnitude => .motion c user magnitude s.time
  | none => .input c user s.down (s.strength.getD 1) s.time

/-- The time of the last event of a script. -/
def Script.lastTime (s : Script) : Nat :=
  match s.inOrder.getLast? with
  | some event => event.time
  | none => 0

theorem Script.inOrder_sorted (s : Script) : s.inOrder.Pairwise fun a b => a.time ≤ b.time := by
  have hmerged : s.inOrder.Pairwise fun a b => decide (a.time ≤ b.time) = true :=
    List.pairwise_mergeSort (fun a b c => by simpa using Nat.le_trans)
      (fun a b => by simpa using Nat.le_total a.time b.time) s.events
  exact hmerged.imp of_decide_eq_true

theorem Script.time_le_lastTime (s : Script) {entry : ScriptEvent} (h : entry ∈ s.inOrder) :
    entry.time ≤ s.lastTime := by
  unfold Script.lastTime
  cases hlast : s.inOrder.getLast? with
  | none =>
    rw [List.getLast?_eq_none_iff.mp hlast] at h
    contradiction
  | some last =>
    obtain ⟨earlier, hsplit⟩ := List.getLast?_eq_some_iff.mp hlast
    have hsorted := s.inOrder_sorted
    rw [hsplit, List.pairwise_append] at hsorted
    rw [hsplit, List.mem_append, List.mem_singleton] at h
    rcases h with h | rfl
    · exact hsorted.2.2 entry h last (List.mem_singleton.mpr rfl)
    · exact Nat.le_refl _

/-- What happens is what an entry of a script stands for. -/
def ScriptEvent.Stands (s : ScriptEvent) (h : Happening) : Prop :=
  ∃ c user, Replay.resolve h.before s = .ok (c, user) ∧ h.event = s.event c user

/-- What happens does so at the times that the entries say. -/
theorem ScriptEvent.times_of_stands {entries : List ScriptEvent} {course : List Happening}
    (h : List.Forall₂ ScriptEvent.Stands entries course) :
    course.map Happening.time = entries.map ScriptEvent.time := by
  induction h with
  | nil => rfl
  | @cons entry first _ _ hstands _ ih =>
    obtain ⟨c, user, -, hevent⟩ := hstands
    have htime : first.time = entry.time := by
      rw [Happening.time, hevent, ScriptEvent.event]
      cases entry.magnitude <;> rfl
    rw [List.map_cons, List.map_cons, htime, ih]

/-- What happens from outside in the course of some pages. -/
def inputs (pages : List Page) : List Happening :=
  (pages.flatMap Page.course).filter fun h => !h.event.isTick

theorem inputs_append (pages more : List Page) :
    inputs (pages ++ more) = inputs pages ++ inputs more := by
  rw [inputs, List.flatMap_append, List.filter_append, inputs, inputs]

namespace Replay

/-- Everything up to a time has been printed. -/
structure Ready (start : Nat) (r : Replay) : Prop where
  inTime : InTime r.engine
  blank : r.engine.journal = {}
  now_eq : r.engine.clock.now = Nanoseconds.ofMillis start

variable {r r' : Replay} {start : Nat}

/-- What has come out of the engine is printed, and nothing else. -/
theorem flush_page {e : Engine} {course : List Happening} (hblank : e.journal = {})
    (hcourse : Passage e course r.engine) (time : Nat) :
    ∃ p : Page, p.time = time ∧ p.course = course ∧ Pages e [p] (r.flush time).engine ∧
      (r.flush time).lines.toList = r.lines.toList ++ p.entries.map Entry.text := by
  refine ⟨⟨time, course, r.engine.journal.events.toList⟩, rfl, rfl, .page hcourse (.none _), ?_⟩
  have hsnapshots : r.engine.journal.snapshots.toList = course.flatMap Happening.committed := by
    rw [hcourse.snapshots, hblank]
    rfl
  simp only [flush, Array.toList_append, Array.toList_map, hsnapshots, Page.entries, Page.shown,
    List.map_append, List.map_map, List.append_assoc]
  rfl

/-- Waiting prints a page of ticks. -/
theorem Ready.waitUntil (hr : Ready start r) {time : Nat} (hstart : start ≤ time)
    (hlimit : time < twoTo 64) :
    ∃ p : Page, Pages r.engine [p] (r.waitUntil time).engine ∧
      (r.waitUntil time).lines.toList = r.lines.toList ++ p.entries.map Entry.text ∧
      InOrder start time [p] ∧ inputs [p] = [] ∧ Ready time (r.waitUntil time) := by
  obtain ⟨course, hcourse, hsorted, hticks⟩ := hr.inTime.passage_runUntil hlimit
  obtain ⟨p, htime, rfl, hpages, hlines⟩ :=
    flush_page (r := { r with engine := r.engine.runUntil time }) hr.blank hcourse time
  have hmillis : r.engine.clock.now.toMillis = start := by
    rw [hr.now_eq]
    exact Nat.mul_div_cancel _ (by decide)
  rw [hmillis] at hticks
  refine ⟨p, hpages, hlines, ?_, ?_, ?_⟩
  · subst htime
    exact Page.inOrder hsorted (fun h hh => (hticks h hh).2) hstart
  · rw [inputs, List.flatMap_singleton, List.filter_eq_nil_iff]
    intro h hh
    rw [(hticks h hh).1]
    exact Bool.false_ne_true
  · have hcall : Call.Admitted Config.IsCompiled (.runUntil time) := trivial
    have hlater : Nanoseconds.ofMillis start ≤ Nanoseconds.ofMillis time :=
      Nat.mul_le_mul_right _ hstart
    refine ⟨(hr.inTime.after hcall).blank, rfl, ?_⟩
    have hnow := (hr.inTime.beats_runUntil time).2.2
    rw [hr.now_eq, Nat.max_eq_right hlater] at hnow
    exact hnow

/-- Feeding an event prints a page of what comes of it. -/
theorem Ready.feed {entry : ScriptEvent} (hr : Ready entry.time r) {c : Control} {user : Nat}
    (hresolve : resolve r.engine entry = .ok (c, user)) :
    ∃ p : Page, Pages r.engine [p] (r.feed entry c user).engine ∧
      (r.feed entry c user).lines.toList = r.lines.toList ++ p.entries.map Entry.text ∧
      InOrder entry.time entry.time [p] ∧ List.Forall₂ ScriptEvent.Stands [entry] (inputs [p]) ∧
      Ready entry.time (r.feed entry c user) := by
  obtain ⟨event, hevent⟩ : ∃ event, event = entry.event c user := ⟨_, rfl⟩
  -- An entry stands for an event from outside, at its time.
  obtain ⟨hinput, htime, call, hsingle, hcall⟩ : event.isTick = false ∧ event.time = entry.time ∧
      ∃ call : Call, call.IsSingle ∧ r.engine.handle event = r.engine.after call := by
    rw [hevent, ScriptEvent.event]
    cases entry.magnitude with
    | some magnitude =>
      exact ⟨rfl, rfl, .motion c user magnitude entry.time, trivial, rfl⟩
    | none => exact ⟨rfl, rfl, .input c user entry.down _ entry.time, trivial, rfl⟩
  have hfed : r.feed entry c user =
      ({ r with engine := r.engine.handle event } : Replay).flush entry.time := by
    rw [hevent, ScriptEvent.event, Replay.feed]
    cases entry.magnitude <;> rfl
  obtain ⟨p, hprinted, hcourse, hpages, hlines⟩ :=
    flush_page (r := { r with engine := r.engine.handle event }) hr.blank
      (.next (.input hinput) (.nil _)) entry.time
  rw [hfed]
  refine ⟨p, hpages, hlines, ?_, ?_, ?_⟩
  · rw [← hprinted]
    refine Page.inOrder ?_ ?_ (Nat.le_refl _)
    · rw [hcourse]
      exact List.pairwise_singleton _ _
    · rw [hcourse, hprinted]
      exact List.forall_mem_singleton.mpr ⟨Nat.le_of_eq htime.symm, Nat.le_of_eq htime⟩
  · have hinputs : inputs [p] = [⟨r.engine, event⟩] := by
      rw [inputs, List.flatMap_singleton, hcourse]
      simp [hinput]
    rw [hinputs]
    exact .cons ⟨c, user, hresolve, hevent⟩ .nil
  · have hnow := @Engine.now_after r.engine call fun ms hrun => by
      rw [hrun] at hsingle
      exact hsingle
    have hstays : (r.engine.handle event).clock.now = r.engine.clock.now := hcall ▸ hnow
    refine ⟨InTime.blank ?_, rfl, hstays.trans hr.now_eq⟩
    exact hcall ▸ hr.inTime.after hsingle.admitted

/-- There is something to say about an entry that cannot be played. -/
theorem resolve_error {e : Engine} {entry : ScriptEvent} {messages : List String}
    (h : resolve e entry = .error messages) : messages ≠ [] := by
  unfold resolve at h
  split at h
  · rw [← Except.error.inj h]
    exact List.cons_ne_nil _ _
  · split at h
    · contradiction
    · contradiction
    · contradiction
    · rw [← Except.error.inj h]
      exact List.cons_ne_nil _ _

/-- **Playing the entries of a script** prints pages in the order of time: for each entry the ticks
before it, and then what comes of it. -/
theorem Ready.play {entries : List ScriptEvent} (hr : Ready start r)
    (hplay : Replay.play entries r = (r', [])) (hsorted : entries.Pairwise fun a b => a.time ≤ b.time)
    (hrange : ∀ entry ∈ entries, start ≤ entry.time ∧ entry.time < twoTo 64) :
    ∃ pages finish, Pages r.engine pages r'.engine ∧
      r'.lines.toList = r.lines.toList ++ (pages.flatMap Page.entries).map Entry.text ∧
      InOrder start finish pages ∧ List.Forall₂ ScriptEvent.Stands entries (inputs pages) ∧
      start ≤ finish ∧ finish = (entries.getLast?.elim start ScriptEvent.time) ∧ Ready finish r' := by
  induction entries generalizing r start with
  | nil =>
    obtain ⟨rfl, -⟩ := Prod.mk.inj hplay
    exact ⟨[], start, .none _, by simp, ⟨.nil, nofun, nofun⟩, .nil, Nat.le_refl _, rfl, hr⟩
  | cons entry rest ih =>
    obtain ⟨hfirst, hrest⟩ := List.pairwise_cons.mp hsorted
    obtain ⟨hentry, hothers⟩ := List.forall_mem_cons.mp hrange
    -- The clock runs until the entry is due, the entry is fed, and the rest is played.
    obtain ⟨p, hpage, hlines, horder, hticks, hwaited⟩ := hr.waitUntil hentry.1 hentry.2
    unfold Replay.play at hplay
    dsimp only at hplay
    cases hresolve : resolve (r.waitUntil entry.time).engine entry with
    | error messages =>
      rw [hresolve] at hplay
      exact absurd (Prod.mk.inj hplay).2 (resolve_error hresolve)
    | ok found =>
      obtain ⟨c, user⟩ := found
      rw [hresolve] at hplay
      obtain ⟨q, hpage', hlines', horder', hstands, hfed⟩ := hwaited.feed hresolve
      obtain ⟨pages, finish, hpages, hlines'', horder'', hstands', hlater, hfinish, hready⟩ :=
        ih hfed hplay hrest fun other hother => ⟨hfirst other hother, (hothers other hother).2⟩
      refine ⟨[p] ++ ([q] ++ pages), finish, hpage.append (hpage'.append hpages), ?_, ?_, ?_,
        hentry.1.trans hlater, ?_, hready⟩
      · rw [hlines'', hlines', hlines]
        simp
      · exact horder.append (horder'.append horder'' (Nat.le_refl _) hlater) hentry.1 hlater
      · rw [inputs_append, inputs_append, hticks, List.nil_append]
        exact List.rel_append hstands hstands'
      · rw [hfinish, List.getLast?_cons]
        cases rest.getLast? <;> rfl

end Replay

/-- An engine on a new configuration has reached no time yet. -/
theorem Replay.ready_start {config : Config} (hconfig : config.IsCompiled) :
    Replay.Ready 0 { engine := { Engine.ofConfig config with journal := {} } } where
  inTime := (InTime.start hconfig).blank
  blank := rfl
  now_eq := by
    obtain ⟨bindings, outputs, pads, queue, remainder, snapshots, events, hinstall, -⟩ :=
      Engine.install_frame ({ pads := PadBank.ofCount config.settings.users } : Engine) config 0
    show (Engine.install _ config 0).clock.now = _
    rw [hinstall]
    rfl

/-- **A replay prints in the order of time.**  Its lines are those of its pages, and then what is left.
The pages hold the events of the script in order, and the ticks before each of them and after the last;
what is committed bears the time of the event or tick it comes from, and is printed no earlier than that.
The versions of a pad that are printed follow one another. -/
theorem Config.replay_in_order {config : Config} (hconfig : config.IsCompiled) {script : Script}
    (hend : script.lastTime + script.tail < twoTo 64) (hplayed : (config.replay script).problem = []) :
    ∃ pages last, Pages { Engine.ofConfig config with journal := {} } pages last ∧
      (config.replay script).lines = (pages.flatMap Page.entries).map Entry.text ++
        last.snapshots.map (fun s => "final " ++ s.text) ∧
      List.Forall₂ ScriptEvent.Stands script.inOrder (inputs pages) ∧
      ((pages.flatMap Page.entries).map Entry.time).Pairwise (· ≤ ·) ∧
      (∀ p ∈ pages, ∀ h ∈ p.course, h.time ≤ p.time ∧ ∀ s ∈ h.committed, s.timestamp = h.time) ∧
      ∀ user : User,
        (((pages.flatMap Page.shown).filter fun s => s.user == user.val).map Snapshot.version) =
          List.range' (((Engine.ofConfig config).pads.pad user).version + 1)
            ((pages.flatMap Page.shown).filter fun s => s.user == user.val).length := by
  have hsorted := script.inOrder_sorted
  have hrange : ∀ entry ∈ script.inOrder, 0 ≤ entry.time ∧ entry.time < twoTo 64 := fun entry hentry =>
    ⟨Nat.zero_le _, Nat.lt_of_le_of_lt (Nat.le_trans (script.time_le_lastTime hentry)
      (Nat.le_add_right _ _)) hend⟩
  unfold Config.replay at hplayed ⊢
  dsimp only at hplayed ⊢
  cases hplay : Replay.play script.inOrder { engine := { Engine.ofConfig config with journal := {} } } with
  | mk r problem =>
    rw [hplay] at hplayed
    cases problem with
    | cons => contradiction
    | nil =>
      obtain ⟨pages, finish, hpages, hlines, horder, hstands, -, hfinish, hready⟩ :=
        (Replay.ready_start hconfig).play hplay hsorted hrange
      have hlast : finish = script.lastTime := by
        rw [hfinish, Script.lastTime]
        cases script.inOrder.getLast? <;> rfl
      subst hlast
      -- After the last entry the clock runs on for the tail.
      obtain ⟨p, hpage, hlines', horder', hticks, -⟩ :=
        hready.waitUntil (Nat.le_add_right _ script.tail) hend
      have hall := horder.append horder' (Nat.zero_le _) (Nat.le_add_right _ _)
      refine ⟨pages ++ [p], _, hpages.append hpage, ?_, ?_, hall.sorted, fun q hq h hh =>
        ⟨hall.early q hq h hh, h.snapshots_after.2⟩, (hpages.append hpage).versions⟩
      · rw [List.flatMap_append, List.map_append, List.flatMap_singleton]
        refine congrArg (· ++ _) (hlines'.trans ?_)
        rw [hlines]
        rfl
      · rw [inputs_append, hticks, List.append_nil]
        exact hstands

/-- The key A makes a button blink. -/
def winkingFile : ConfigFile :=
  { mappings := [{ source := "A", target := "PadA", options := ["turbo"], rate := some 0.1 }] }

/-- The key A is held for a while. -/
def winkingScript : Script :=
  { tail := 30
    events := [{ time := 20, control := "A" }, { time := 250, control := "A", down := false }] }

/-- The ticks of a button that blinks are printed in between the press and the release of the key. -/
theorem Config.replay_in_order_winking : (winkingFile.compile.replay winkingScript).problem = [] ∧
    winkingScript.lastTime + winkingScript.tail = 280 ∧
    ∃ pages last, Pages { Engine.ofConfig winkingFile.compile with journal := {} } pages last ∧
      (winkingFile.compile.replay winkingScript).lines = (pages.flatMap Page.entries).map Entry.text ++
        last.snapshots.map (fun s => "final " ++ s.text) ∧
      ((inputs pages).map Happening.time) = [20, 250] ∧
      ((pages.flatMap Page.entries).map Entry.time).Pairwise (· ≤ ·) := by
  have horder : winkingScript.inOrder = winkingScript.events := List.mergeSort_of_pairwise (by decide)
  have hplayed : (winkingFile.compile.replay winkingScript).problem = [] := by
    rw [Config.replay, horder]
    decide +kernel
  have hend : winkingScript.lastTime + winkingScript.tail = 280 := by
    rw [Script.lastTime, horder]
    rfl
  obtain ⟨pages, last, hpages, hlines, hstands, hsorted, -⟩ :=
    Config.replay_in_order ⟨winkingFile, rfl⟩ (hend ▸ by decide) hplayed
  refine ⟨hplayed, hend, pages, last, hpages, hlines, ?_, hsorted⟩
  rw [horder] at hstands
  exact (ScriptEvent.times_of_stands hstands).trans rfl

end VirtualPad
