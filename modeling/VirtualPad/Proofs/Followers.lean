import VirtualPad.Proofs.CellsMirror
import VirtualPad.Proofs.Deposits
import VirtualPad.Proofs.LatePresses
import VirtualPad.Proofs.Orders
import VirtualPad.Proofs.PassedKeys
import VirtualPad.Proofs.SameVersion

/-!
# Mappings that follow their sources

A plain mapping goes from a control to a part of a pad, with no conditions and no options but forward
and replace.  As long as sources are fed one by one, such a mapping is in effect just while its source
is down for the user it is about, and what it leaves in its slot is always the same.  An engine where
that is so is tidy (`Engine.Tidy`).

While a source moves the board is ahead of the bindings: those on the chain of the source have not
heard of it yet.  Each of them gets into line when it runs (`Tidy.runBinding`), and the pairs that the
source is a part of, which move after it, take theirs along (`Tidy.feed`).
-/

namespace VirtualPad

/-! ## §1 Plain mappings -/

/-- A mapping from a control to a part of a pad, with no conditions and no options but forward and
replace, that is not about everyone. -/
structure Mapping.Plain (v : Vocabulary) (m : Mapping) : Prop where
  unconditional : m.conditions = []
  options (option : MappingOption) : m.options.has option = true →
    option = .forward ∨ option = .replace
  source : m.sourceUser ≠ .everyone
  target : ∃ cell, (v.descriptor m.target).cell = .pad cell

instance (v : Vocabulary) (m : Mapping) : Decidable (m.Plain v) :=
  decidable_of_iff (m.conditions.isEmpty = true ∧
    (∀ option ∈ MappingOption.all, m.options.has option = true →
      option = .forward ∨ option = .replace) ∧
    m.sourceUser ≠ .everyone ∧ (v.descriptor m.target).isPadCell = true) <| by
  have hall : ∀ option, option ∈ MappingOption.all := fun option => by cases option <;> decide
  have htarget : (v.descriptor m.target).isPadCell = true ↔
      ∃ cell, (v.descriptor m.target).cell = .pad cell := by
    simp only [Descriptor.isPadCell, Option.isSome_iff_exists, Descriptor.padCell?_eq_some_iff]
  constructor
  · rintro ⟨hconditions, hoptions, hsource, hcell⟩
    exact ⟨List.isEmpty_iff.mp hconditions, fun option => hoptions option (hall option), hsource,
      htarget.mp hcell⟩
  · intro hm
    exact ⟨List.isEmpty_iff.mpr hm.unconditional, fun option _ => hm.options option, hm.source,
      htarget.mpr hm.target⟩

namespace Mapping.Plain

variable {v : Vocabulary} {m : Mapping} (hm : m.Plain v)

include hm

theorem has_eq_false (option : MappingOption) (hforward : option ≠ .forward)
    (hreplace : option ≠ .replace) : m.options.has option = false := by
  rw [← Bool.not_eq_true]
  intro hhas
  exact (hm.options option hhas).elim hforward hreplace

theorem toggle : m.options.toggle = false := hm.has_eq_false .toggle nofun nofun

theorem turbo : m.options.turbo = false := hm.has_eq_false .turbo nofun nofun

theorem add : m.options.add = false := hm.has_eq_false .add nofun nofun

theorem reset : m.options.reset = false := hm.has_eq_false .reset nofun nofun

end Mapping.Plain

/-- What a plain mapping contributes while it is in effect. -/
def Mapping.contribution (m : Mapping) : Pad.Contribution :=
  { down := true, strength := 1 * m.strength, replaces := m.options.replace, adds := false }

namespace Engine

/-- The user whose presses a mapping follows.  A control without users keeps its state under the first
one. -/
def followed (e : Engine) (m : Mapping) : Nat :=
  if (e.descriptor m.source).flags.ofUser then
    match m.sourceUser with
    | .index user => user
    | .active | .everyone => e.activeUser
  else User.first

/-- The source of a mapping is down for the user whose presses it follows. -/
def followsDown (e : Engine) (m : Mapping) : Bool := e.board.isDown m.source (e.followed m)

theorem followed_congr {e e' : Engine} (hlayout : e'.layout = e.layout)
    (hactive : e'.activeUser = e.activeUser) (m : Mapping) : e'.followed m = e.followed m := by
  unfold followed
  rw [descriptor_congr hlayout, hactive]

/-- A mapping lets the pulses of the user through whom it follows. -/
theorem covers_iff {e : Engine} {m : Mapping} (hm : m.Plain e.vocabulary) {user : User}
    (huser : (e.descriptor m.source).flags.ofUser = false → user = User.first) :
    ((e.descriptor m.source).flags.ofUser = true →
      m.sourceUser.covers user e.activeUser = true) ↔ e.followed m = user := by
  unfold followed
  cases hof : (e.descriptor m.source).flags.ofUser with
  | false => simp [huser hof]
  | true =>
    have hnot := hm.source
    cases hsource : m.sourceUser with
    | everyone => contradiction
    | active =>
      simp only [UserRef.covers, if_true, beq_iff_eq, forall_const]
      exact eq_comm
    | index other =>
      simp only [UserRef.covers, if_true, beq_iff_eq, forall_const]
      exact eq_comm

/-! ## §2 Tidy engines -/

/-- All mappings are plain.  Apart from those in the set, which have not heard yet of what has happened
to their sources, they are in effect just while they have a slot and their source is down.  Whatever
the slots of the pads hold is what their mappings contribute, and the pads show that. -/
structure Tidy (S : Nat → Prop) (e : Engine) : Prop where
  plain (id : Nat) (b : Binding) : e.bindings[id]? = some b → b.mapping.Plain e.vocabulary
  enabled : e.disabled = false
  present : e.activeUser < e.userCount
  settled (id : Nat) (b : Binding) : e.bindings[id]? = some b → b.latch.active = true →
    b.slot.isSome = true ∧ b.latch.applied = e.targetUsers b.mapping.targetUser
  follows (id : Nat) (b : Binding) : e.bindings[id]? = some b → ¬ S id →
    (b.latch.active = true ↔ b.slot.isSome = true ∧ e.followsDown b.mapping = true)
  deposits (user : User) (place : PadCell) (slot : Slot) (d : Deposit) :
    (e.pads.pad user).deposit place slot = some d → ∃ (id : Nat) (b : Binding),
      e.bindings[id]? = some b ∧ b.slot = some slot ∧ e.Drives b.mapping (.pad user place) ∧
      b.mapping.contribution.deposit place = some d
  direct (user : User) : (e.pads.pad user).Direct

namespace Tidy

variable {S S' : Nat → Prop} {e e' : Engine}

/-- An engine with the same mappings and the same board is tidy if its latches and its pads are. -/
theorem of_latches (he : Tidy S e) (hlayout : e'.layout = e.layout) (hscene : e'.scene = e.scene)
    (hsettled : ∀ id b, e.bindings[id]? = some b → (e'.latch id).active = true →
      b.slot.isSome = true ∧ (e'.latch id).applied = e.targetUsers b.mapping.targetUser)
    (hfollows : ∀ id b, e.bindings[id]? = some b → ¬ S' id →
      ((e'.latch id).active = true ↔ b.slot.isSome = true ∧ e.followsDown b.mapping = true))
    (hdeposits : ∀ user place slot d, (e'.pads.pad user).deposit place slot = some d →
      (e.pads.pad user).deposit place slot = some d ∨ ∃ (id : Nat) (b : Binding), e.bindings[id]? = some b ∧
        b.slot = some slot ∧ e.Drives b.mapping (.pad user place) ∧
        b.mapping.contribution.deposit place = some d)
    (hdirect : ∀ user, (e'.pads.pad user).Direct) : Tidy S' e' := by
  obtain ⟨hboard, hgates⟩ := Prod.mk.inj hscene
  obtain ⟨hactive, hdisabled⟩ := Prod.mk.inj hgates
  have hvocabulary : e'.vocabulary = e.vocabulary := congrArg Layout.vocabulary hlayout
  have hcount : e'.userCount = e.userCount := congrArg Layout.users hlayout
  refine ⟨fun id b' hb' => ?_, hdisabled.trans he.enabled, ?_, fun id b' hb' hon => ?_,
    fun id b' hb' hout => ?_, fun user place slot d hd => ?_, hdirect⟩
  · obtain ⟨b, hb, hmapping, -⟩ := binding_congr hlayout.symm hb'
    rw [← hmapping, hvocabulary]
    exact he.plain id b hb
  · rw [hactive, hcount]
    exact he.present
  · obtain ⟨b, hb, hmapping, hslot⟩ := binding_congr hlayout.symm hb'
    rw [← latch_of_getElem? hb'] at hon ⊢
    rw [← hmapping, ← hslot, targetUsers_congr hlayout hactive]
    exact hsettled id b hb hon
  · obtain ⟨b, hb, hmapping, hslot⟩ := binding_congr hlayout.symm hb'
    have hdown : e'.followsDown b.mapping = e.followsDown b.mapping := by
      unfold followsDown
      rw [hboard, followed_congr hlayout hactive]
    rw [← latch_of_getElem? hb', ← hmapping, ← hslot, hdown]
    exact hfollows id b hb hout
  · have howner : ∃ (id : Nat) (b : Binding), e.bindings[id]? = some b ∧ b.slot = some slot ∧
        e.Drives b.mapping (.pad user place) ∧
        b.mapping.contribution.deposit place = some d :=
      (hdeposits user place slot d hd).elim (he.deposits user place slot d) id
    obtain ⟨id, b, hb, hslot, hdrives, hdeposit⟩ := howner
    obtain ⟨b', hb', hmapping, hslot'⟩ := binding_congr hlayout hb
    refine ⟨id, b', hb', hslot'.trans hslot, ?_, hmapping ▸ hdeposit⟩
    rw [hmapping]
    exact (drives_congr hlayout _ _).mpr hdrives

/-- What happens away from the latches and the pads does not matter. -/
theorem congr (he : Tidy S e) (hlayout : e'.layout = e.layout) (hscene : e'.scene = e.scene)
    (hstake : ∀ id, (e'.latch id).stake = (e.latch id).stake)
    (hcells : ∀ user, (e'.pads.pad user).SameCells (e.pads.pad user)) : Tidy S e' := by
  have hactive : ∀ id, (e'.latch id).active = (e.latch id).active :=
    fun id => congrArg Prod.fst (hstake id)
  refine he.of_latches hlayout hscene (fun id b hb hon => ?_) (fun id b hb hout => ?_)
    (fun user place slot d hd => .inl ?_) fun user => (he.direct user).congr (hcells user)
  · have happlied : (e'.latch id).applied = (e.latch id).applied :=
      congrArg (fun stake => stake.2.2) (hstake id)
    rw [hactive] at hon
    rw [happlied, latch_of_getElem? hb]
    rw [latch_of_getElem? hb] at hon
    exact he.settled id b hb hon
  · rw [hactive, latch_of_getElem? hb]
    exact he.follows id b hb hout
  · unfold Pad.deposit at hd ⊢
    rwa [← (hcells user).look]

/-- One binding changes, and writes to the pads. -/
theorem change (he : Tidy S e) {id : Nat} {b : Binding} (hb : e.bindings[id]? = some b)
    (hlayout : e'.layout = e.layout) (hscene : e'.scene = e.scene)
    (hothers : ∀ i, i ≠ id → e'.latch i = e.latch i) (hsub : ∀ i, i ≠ id → S i → S' i)
    (hsettled : (e'.latch id).active = true →
      b.slot.isSome = true ∧ (e'.latch id).applied = e.targetUsers b.mapping.targetUser)
    (hfollows : ¬ S' id → ((e'.latch id).active = true ↔
      b.slot.isSome = true ∧ e.followsDown b.mapping = true))
    (hdeposits : ∀ user place slot d, (e'.pads.pad user).deposit place slot = some d →
      (e.pads.pad user).deposit place slot = some d ∨ b.slot = some slot ∧
        e.Drives b.mapping (.pad user place) ∧ b.mapping.contribution.deposit place = some d)
    (hdirect : ∀ user, (e'.pads.pad user).Direct) : Tidy S' e' := by
  refine he.of_latches hlayout hscene (fun i b' hb' hon => ?_) (fun i b' hb' hout => ?_)
    (fun user place slot d hd => ?_) hdirect
  · by_cases hsame : i = id
    · subst hsame
      obtain rfl := Option.some.inj (hb.symm.trans hb')
      exact hsettled hon
    · rw [hothers i hsame] at hon ⊢
      rw [latch_of_getElem? hb'] at hon ⊢
      exact he.settled i b' hb' hon
  · by_cases hsame : i = id
    · subst hsame
      obtain rfl := Option.some.inj (hb.symm.trans hb')
      exact hfollows hout
    · rw [hothers i hsame, latch_of_getElem? hb']
      exact he.follows i b' hb' fun hin => hout (hsub i hsame hin)
  · exact (hdeposits user place slot d hd).imp_right fun hnew => ⟨id, b, hb, hnew⟩

end Tidy

end Engine

/-! ## §3 One binding -/

namespace Turn

theorem mapLatch_mapLatch (t : Turn) (id : Nat) (first second : Latch → Latch) :
    (t.mapLatch id first).mapLatch id second = t.mapLatch id fun l => second (first l) :=
  congrArg (fun engine => { t with engine }) (t.engine.mapLatch_mapLatch id first second)

/-- **What a binding to a part of a pad does first.** It settles on its users when it comes into effect,
and writes into its slot on their pads if the response says so. -/
theorem engine_firstStep_pad {t : Turn} {id : Nat} {b : Binding} {cell : PadCell} {slot : Slot}
    (hb : t.engine.bindings[id]? = some b) (hcell : (t.targetOf b).cell = .pad cell)
    (hslot : b.slot = some slot) (hreset : b.mapping.options.reset = false)
    (hturbo : b.mapping.options.turbo = false) (pulse : Pulse) (forced : Bool) (latch : Latch)
    (r : Response) :
    ∃ settled : Latch, settled.active = latch.active ∧
      settled.applied = (if r.now && !r.was then t.engine.targetUsers b.mapping.targetUser
        else latch.applied) ∧
      (t.firstStep id b pulse forced latch (some r)).engine =
        (t.engine.mapLatch id fun _ => settled).write
          (if r.emits then t.engine.pads.change settled.applied fun pad => pad.write cell slot
            { down := r.now, strength := r.strength, replaces := b.mapping.options.replace,
              adds := b.mapping.options.add } else t.engine.pads) t.engine.outputs := by
  have hpad : (t.targetOf b).padCell? = some cell := Descriptor.padCell?_eq_some_iff.mpr hcell
  have hrisen : ∃ risen : Latch, risen.active = latch.active ∧
      risen.applied = (if r.now && !r.was then t.engine.targetUsers b.mapping.targetUser
        else latch.applied) ∧
      (if r.now && !r.was then
        (t.mapLatch id fun _ => latch).rise id b.mapping (t.targetOf b) pulse.user
        else t.mapLatch id fun _ => latch) = t.mapLatch id fun _ => risen := by
    split
    · refine ⟨{ latch with
        sourceUser := pulse.user, applied := t.engine.targetUsers b.mapping.targetUser },
        rfl, rfl, ?_⟩
      unfold rise
      rw [hpad]
      dsimp only
      rw [hreset, mapLatch_mapLatch]
      rfl
    · exact ⟨latch, rfl, rfl, rfl⟩
  obtain ⟨risen, hactive, happlied, hrisen⟩ := hrisen
  -- What it writes is written with the strength it has now.
  unfold firstStep perform
  simp only [hcell, hrisen]
  by_cases hemits : r.emits = true
  · have hkept : ∃ kept : Latch, kept.active = risen.active ∧ kept.applied = risen.applied ∧
        (if r.now then (t.mapLatch id fun _ => risen).mapLatch id fun l =>
          { l with strength := r.strength } else t.mapLatch id fun _ => risen) =
          t.mapLatch id fun _ => kept := by
      split
      · exact ⟨{ risen with strength := r.strength }, rfl, rfl, mapLatch_mapLatch _ _ _ _⟩
      · exact ⟨risen, rfl, rfl, rfl⟩
    obtain ⟨kept, hactive', happlied', hkept⟩ := hkept
    refine ⟨kept, hactive'.trans hactive, happlied'.trans happlied, ?_⟩
    have hbound : (t.mapLatch id fun _ => kept).engine.bindings[id]? =
        some { b with latch := kept } := by
      rw [engine_mapLatch, Engine.getElem?_mapLatch, if_pos rfl, hb]
      rfl
    rw [if_pos hemits, if_pos hemits, hkept, hturbo]
    unfold writeTarget
    rw [hbound]
    simp only [hcell, hslot, Bool.not_false, Bool.true_or, Bool.and_true, engine_updatePads]
    rfl
  · rw [if_neg hemits]
    simp only [if_neg hemits]
    exact ⟨risen, hactive, happlied, rfl⟩

end Turn

/-- What a response writes is the strength of the pulse scaled by the mapping, and nothing for a mapping
that is not in effect. -/
theorem Latch.strength_of_respond {l latch : Latch} {m : Mapping} {source target : Descriptor}
    {down forced : Bool} {strength : Float} {r : Response}
    (h : l.respond m source target down strength forced = (latch, some r)) :
    r.strength = if r.now then strength * m.strength else 0 := by
  unfold Latch.respond at h
  split at h
  · obtain rfl := Option.some.inj (Prod.mk.inj h).2
    rfl
  · split at h
    · cases (Prod.mk.inj h).2
    · dsimp only at h
      split at h
      · cases (Prod.mk.inj h).2
      · obtain rfl := Option.some.inj (Prod.mk.inj h).2
        rfl

namespace Engine

namespace Tidy

variable {S : Nat → Prop} {e : Engine} {t : Turn} {id : Nat} {b : Binding}

/-- Writing to the pads of several users leaves nothing but its own deposits. -/
theorem deposit_change {pads : PadBank} {users : List User} {cell : PadCell} {slot : Slot}
    {c : Pad.Contribution} (hadds : c.adds = false) {user : User} {place : PadCell} {other : Slot}
    {d : Deposit}
    (h : ((pads.change users fun pad => pad.write cell slot c).pad user).deposit place other =
      some d) :
    (pads.pad user).deposit place other = some d ∨
      user ∈ users ∧ place ∈ cell.places ∧ slot = other ∧ c.deposit place = some d := by
  have hseen := seen_change (fun pad => pad.deposit place other) pads users
    (f := fun before => if place ∈ cell.places ∧ slot = other then c.deposit place else before)
    (fun pad => pad.deposit_write cell slot hadds place other)
    (fun before => by split <;> rfl) user
  rw [hseen] at h
  split at h
  · rename_i huser
    split at h
    · rename_i hown
      exact .inr ⟨by simpa using huser, hown.1, hown.2, h⟩
    · exact .inl h
  · exact .inl h

theorem direct_change {pads : PadBank} (hpads : ∀ user, (pads.pad user).Direct) (users : List User)
    (cell : PadCell) (slot : Slot) (c : Pad.Contribution) (user : User) :
    ((pads.change users fun pad => pad.write cell slot c).pad user).Direct := by
  induction users generalizing pads with
  | nil => exact hpads user
  | cons first rest ih =>
    refine ih fun other => ?_
    by_cases hsame : first = other
    · subst hsame
      have hwritten := (hpads first).write cell slot c
      simpa [PadBank.pad, PadBank.set] using hwritten
    · have hne : first.val ≠ other.val := fun h => hsame (Fin.ext h)
      have hkept := hpads other
      simpa [PadBank.pad, PadBank.set, hne] using hkept

/-- The pulse is about the source of the binding, which the board has just been told of. -/
structure Tells (t : Turn) (pulse : Pulse) (b : Binding) : Prop where
  isDown : t.engine.board.isDown b.mapping.source pulse.user = pulse.down
  user : (t.sourceOf b).flags.ofUser = false → pulse.user = User.first

/-- A binding that a pulse does not reach had nothing to hear from it. -/
theorem ignore {pulse : Pulse} (ht : Tidy S t.engine)
    (htells : ∀ b, t.engine.bindings[id]? = some b → Tells t pulse b)
    (hmine : ∀ b, t.engine.bindings[id]? = some b → S id →
      t.engine.followed b.mapping = pulse.user)
    (hnot : ∀ b, t.engine.bindings[id]? = some b → ¬ t.Reaches b pulse false) :
    Tidy (fun i => S i ∧ i ≠ id) t.engine := by
  refine { ht with follows := fun i b hb hout => ?_ }
  by_cases hin : S i
  · obtain rfl : i = id := by
      by_contra hne
      exact hout ⟨hin, hne⟩
    have hplain := ht.plain i b hb
    have hfollowed := hmine b hb hin
    have hcovers := (covers_iff hplain (htells b hb).user).mpr hfollowed
    have hdown : t.engine.followsDown b.mapping = pulse.down := by
      unfold followsDown
      rw [hfollowed]
      exact (htells b hb).isDown
    rw [hdown]
    -- It has no slot, or it is released without being in effect.
    cases hslot : b.slot with
    | none =>
      constructor
      · intro hon
        have hsome := (ht.settled i b hb hon).1
        rw [hslot] at hsome
        contradiction
      · rintro ⟨hsome, -⟩
        contradiction
    | some slot =>
      have hlatched : ¬ (if pulse.down then
          b.mapping.allows t.engine.board t.engine.activeUser else b.latch.isLatched) = true := by
        intro hlast
        refine hnot b hb (.inr (Turn.accepts_iff.mpr ⟨fun hoff => ?_, hcovers, fun _ => ?_, hlast⟩))
        · rw [ht.enabled] at hoff
          contradiction
        · rw [hslot]
          rfl
      cases hpulse : pulse.down with
      | true =>
        rw [hpulse, if_pos rfl] at hlatched
        refine absurd ?_ hlatched
        unfold Mapping.allows
        rw [hplain.unconditional]
        rfl
      | false =>
        rw [hpulse, if_neg Bool.false_ne_true] at hlatched
        have hidle : b.latch.active = false := by
          unfold Latch.isLatched at hlatched
          simp only [Bool.or_eq_true, not_or, Bool.not_eq_true] at hlatched
          exact hlatched.1.1
        simp [hidle]
  · exact ht.follows i b hb hin

/-- A binding that a pulse reaches has a slot, and it is to be in effect just if its source is down. -/
theorem reached {pulse : Pulse} (ht : Tidy S t.engine) (hb : t.engine.bindings[id]? = some b)
    (htells : Tells t pulse b) (hreaches : t.Reaches b pulse false) :
    (∃ slot, b.slot = some slot) ∧ t.engine.followsDown b.mapping = pulse.down := by
  obtain ⟨-, hcovers, hslot, -⟩ := Turn.accepts_iff.mp (hreaches.resolve_left Bool.false_ne_true)
  have hplain := ht.plain id b hb
  constructor
  · obtain ⟨cell, hcell⟩ := hplain.target
    have hneeds : (t.targetOf b).needsSlot = true := by
      unfold Descriptor.needsSlot
      rw [show (t.targetOf b).cell = .pad cell from hcell]
    exact Option.isSome_iff_exists.mp (hslot hneeds)
  · unfold followsDown
    rw [(covers_iff hplain htells.user).mp hcovers]
    exact htells.isDown

/-- A binding that is in effect after a response has the users that its target means, since now or since
it came into effect. -/
theorem applied_of_respond {pulse : Pulse} {forced : Bool} (ht : Tidy S t.engine)
    (hb : t.engine.bindings[id]? = some b) {latch : Latch} {r : Response}
    (hrespond : b.latch.respond b.mapping (t.sourceOf b) (t.targetOf b) pulse.down pulse.strength
      forced = (latch, some r)) (hon : r.now = true) :
    (if r.now && !r.was then t.engine.targetUsers b.mapping.targetUser else latch.applied) =
      t.engine.targetUsers b.mapping.targetUser := by
  rw [hon]
  cases hbefore : r.was with
  | false => rfl
  | true =>
    refine (Latch.respond_applied hrespond).trans (ht.settled id b hb ?_).2
    rw [← (Latch.respond_some hrespond).1, hbefore]

/-- Only a press leaves a deposit, and it comes with full strength. -/
theorem deposit_of_respond {pulse : Pulse} {forced : Bool} (hadd : b.mapping.options.add = false)
    {latch : Latch} {r : Response}
    (hrespond : b.latch.respond b.mapping (t.sourceOf b) (t.targetOf b) pulse.down pulse.strength
      forced = (latch, some r)) (hfull : r.now = true → pulse.strength = 1) {place : PadCell}
    {d : Deposit}
    (hdeposit : Pad.Contribution.deposit
      { down := r.now, strength := r.strength, replaces := b.mapping.options.replace,
        adds := b.mapping.options.add } place = some d) :
    r.now = true ∧ b.mapping.contribution.deposit place = some d := by
  have hon : r.now = true := by
    by_contra hoff
    unfold Pad.Contribution.deposit at hdeposit
    rw [if_neg hoff] at hdeposit
    contradiction
  refine ⟨hon, ?_⟩
  rw [hon, Latch.strength_of_respond hrespond, if_pos hon, hfull hon, hadd] at hdeposit
  exact hdeposit

/-- What an answer does first leaves the engine tidy, and the binding is in line from then on. -/
theorem firstStep {pulse : Pulse} (ht : Tidy S t.engine) (hfull : pulse.down = true → pulse.strength = 1)
    (hb : t.engine.bindings[id]? = some b) (htells : Tells t pulse b)
    (hreaches : t.Reaches b pulse false) {latch : Latch} {response : Option Response}
    (hrespond : b.latch.respond b.mapping (t.sourceOf b) (t.targetOf b) pulse.down pulse.strength
      false = (latch, response)) :
    Tidy (fun i => S i ∧ i ≠ id) (t.firstStep id b pulse false latch response).engine ∧
      (t.firstStep id b pulse false latch response).engine.scene = t.engine.scene := by
  have hplain := ht.plain id b hb
  obtain ⟨⟨slot, hslot⟩, hdown⟩ := ht.reached hb htells hreaches
  obtain ⟨cell, hcell⟩ := hplain.target
  have hlayout := (t.steps_firstStep hb pulse false latch response).layout
  have hothers : ∀ i, i ≠ id →
      (t.firstStep id b pulse false latch response).engine.latch i = t.engine.latch i :=
    fun i hi => Turn.latch_firstStep_of_ne b pulse false latch response (Ne.symm hi)
  have hnow : latch.active = pulse.down := by
    simpa using Latch.respond_plain hplain.toggle hplain.add hrespond
  have hset : ∀ l : Latch, ((t.engine.mapLatch id fun _ => l).latch id) = l := by
    intro l
    rw [latch_mapLatch, if_pos ⟨rfl, (Array.getElem?_eq_some_iff.mp hb).1⟩]
  -- In effect just while its source is down: that is what being in line means for it.
  have hinline : ∀ active : Bool, active = pulse.down → (active = true ↔
      b.slot.isSome = true ∧ t.engine.followsDown b.mapping = true) := by
    intro active hactive
    rw [hactive, hdown, hslot]
    simp
  cases response with
  | none =>
    have hstake := Latch.respond_none hrespond
    have hlatch : (t.firstStep id b pulse false latch none).engine.latch id = latch := hset latch
    refine ⟨ht.change hb hlayout rfl hothers (fun i hi hin => ⟨hin, hi⟩) (fun hon => ?_)
      (fun _ => ?_) (fun user place other d hd => .inl hd) ht.direct, rfl⟩
    · rw [hlatch] at hon ⊢
      have happlied : latch.applied = b.latch.applied :=
        congrArg (fun stake => stake.2.2) hstake
      rw [happlied]
      exact ht.settled id b hb ((congrArg Prod.fst hstake).symm.trans hon)
    · rw [hlatch]
      exact hinline _ hnow
  | some r =>
    have hactive := (Latch.respond_some hrespond).2
    obtain ⟨settled, hsame, happlied, hengine⟩ := Turn.engine_firstStep_pad hb hcell hslot
      hplain.reset hplain.turbo pulse false latch r
    have husers : r.now = true → settled.applied = t.engine.targetUsers b.mapping.targetUser :=
      fun hon => happlied.trans (ht.applied_of_respond hb hrespond hon)
    have hlatch : (t.firstStep id b pulse false latch (some r)).engine.latch id = settled := by
      rw [hengine]
      exact hset settled
    refine ⟨ht.change hb hlayout ?_ hothers (fun i hi hin => ⟨hin, hi⟩) (fun hon => ?_)
      (fun _ => ?_) (fun user place other d hd => ?_) (fun user => ?_), ?_⟩
    · rw [hengine]
      rfl
    · rw [hlatch] at hon ⊢
      exact ⟨by rw [hslot]; rfl, husers (hactive.trans (hsame.symm.trans hon))⟩
    · rw [hlatch]
      exact hinline _ (hsame.trans hnow)
    -- What is in the slots now was there before, or the binding has just put it into its own.
    · rw [hengine] at hd
      dsimp only [Engine.write] at hd
      split at hd
      · obtain hold | ⟨huser, hplace, rfl, hdeposit⟩ := deposit_change hplain.add hd
        · exact .inl hold
        · obtain ⟨hon, hown⟩ := deposit_of_respond hplain.add hrespond
            (fun hon => hfull (hnow.symm.trans (hactive.symm.trans hon))) hdeposit
          rw [husers hon] at huser
          exact .inr ⟨hslot, drives_pad hcell hplace
            (targetUsers_subset_slotUsers ht.present _ user huser), hown⟩
      · exact .inl hd
    · rw [hengine]
      dsimp only [Engine.write]
      split
      · exact direct_change ht.direct _ _ _ _ user
      · exact ht.direct user
    · rw [hengine]
      rfl

/-- A binding that is not in effect may let go of its users. -/
theorem letGo (he : Tidy S e) (hidle : (e.latch id).active = false) :
    Tidy S (e.mapLatch id fun l => { l with applied := [] }) := by
  have hactive : ∀ i, ((e.mapLatch id fun l => { l with applied := [] }).latch i).active =
      (e.latch i).active := fun i => latch_mapLatch_congr Latch.active rfl i
  refine he.of_latches (layout_mapLatch _ _ _) rfl (fun i b hb hon => ?_) (fun i b hb hout => ?_)
    (fun _ _ _ _ h => .inl h) he.direct
  · rw [hactive] at hon
    have hne : ¬ (id = i ∧ i < e.bindings.size) := by
      rintro ⟨rfl, -⟩
      rw [hidle] at hon
      contradiction
    rw [latch_mapLatch, if_neg hne, latch_of_getElem? hb]
    rw [latch_of_getElem? hb] at hon
    exact he.settled i b hb hon
  · rw [hactive, latch_of_getElem? hb]
    exact he.follows i b hb hout

/-- The rest of an answer is about timers, and a binding that has ended lets go of its users. -/
theorem settle (ht : Tidy S t.engine) (m : Mapping) (source target : Descriptor) {r : Response}
    (hended : r.now = false → (t.engine.latch id).active = false) :
    Tidy S (t.settle id m source target r).engine ∧
      (t.settle id m source target r).engine.scene = t.engine.scene := by
  have hplanned : ∀ plan, Tidy S (t.engine.followPlan id plan) ∧
      (t.engine.followPlan id plan).scene = t.engine.scene ∧
      ((t.engine.followPlan id plan).latch id).active = (t.engine.latch id).active := by
    intro plan
    have huntimed := untimed_followPlan t.engine id plan
    have hscene : (t.engine.followPlan id plan).scene = t.engine.scene :=
      (congrArg Engine.scene huntimed :)
    have hpads : (t.engine.followPlan id plan).pads = t.engine.pads :=
      (congrArg Engine.pads huntimed :)
    refine ⟨ht.congr (layout_of_untimed huntimed) hscene (stake_of_untimed huntimed)
      fun user => ?_, hscene, congrArg Prod.fst (stake_of_untimed huntimed id)⟩
    rw [hpads]
    exact ⟨rfl, rfl, rfl⟩
  obtain ⟨htidy, hscene, hactive⟩ :=
    hplanned (m.timerPlan source target t.engine.settings r.was r.now)
  unfold Turn.settle
  dsimp only
  split
  · exact ⟨htidy, hscene⟩
  · rename_i hoff
    exact ⟨htidy.letGo (hactive.trans (hended (Bool.eq_false_iff.mpr hoff))), hscene⟩

/-- **A binding that runs gets into line**, and writes nothing but its own. -/
theorem runBinding {pulse : Pulse} (room : Nat) (ht : Tidy S t.engine)
    (hfull : pulse.down = true → pulse.strength = 1)
    (htells : ∀ b, t.engine.bindings[id]? = some b → Tells t pulse b)
    (hmine : ∀ b, t.engine.bindings[id]? = some b → S id →
      t.engine.followed b.mapping = pulse.user) :
    Tidy (fun i => S i ∧ i ≠ id) (t.runBinding (Turn.feed room) id pulse false).1.engine ∧
      (t.runBinding (Turn.feed room) id pulse false).1.engine.scene = t.engine.scene := by
  refine Turn.runBinding_cases
    (P := fun t' => Tidy (fun i => S i ∧ i ≠ id) t'.engine ∧ t'.engine.scene = t.engine.scene)
    (fun hnot => ⟨ht.ignore htells hmine hnot, rfl⟩)
    (fun b latch hb hreaches hrespond => ht.firstStep hfull hb (htells b hb) hreaches hrespond)
    fun b latch r hb hreaches hrespond => ?_
  obtain ⟨htidy, hscene⟩ := ht.firstStep hfull hb (htells b hb) hreaches hrespond
  have hactive := Turn.active_firstStep hb hrespond
  -- Parts of pads are no sources, so nothing else moves with them.
  have hecho : t.firstEcho id b pulse false latch (some r) = none := by
    refine Option.eq_none_iff_forall_ne_some.mpr fun echo hecho => ?_
    obtain ⟨cell, hcell⟩ := (ht.plain id b hb).target
    have hvar := (Turn.perform_echo _ hecho).1
    rw [show (t.targetOf b).cell = .pad cell from hcell] at hvar
    contradiction
  rw [hecho]
  obtain ⟨hsettled, hscene'⟩ := htidy.settle b.mapping (t.sourceOf b) (t.targetOf b)
    fun hoff => hactive.trans hoff
  exact ⟨hsettled, hscene'.trans hscene⟩

/-! ## §4 A source moves -/

/-- The bindings that have not heard yet of what has happened to a control. -/
def Awaits (e : Engine) (c : Control) (user : User) (id : Nat) : Prop :=
  ∃ b, e.bindings[id]? = some b ∧ b.mapping.source = c ∧ e.followed b.mapping = user

/-- When a control goes down or up, its bindings have to hear of that. -/
theorem mark {c : Control} (ht : Tidy (fun _ => False) t.engine) (user : User) (down : Bool) :
    Tidy (Awaits t.engine c user) (t.mark c user down).engine := by
  refine { ht with follows := fun i b hb hout => ?_ }
  have hsame : (t.mark c user down).engine.followsDown b.mapping =
      t.engine.followsDown b.mapping := by
    have hfollowed : (t.mark c user down).engine.followed b.mapping =
        t.engine.followed b.mapping := rfl
    unfold followsDown
    rw [hfollowed]
    show (t.engine.board.set c user down).isDown _ _ = _
    rw [Switchboard.isDown_set, if_neg]
    rintro ⟨hsource, huser, -⟩
    exact hout ⟨b, hb, hsource.symm, huser.symm⟩
  rw [hsame]
  exact ht.follows i b hb not_false

/-- The bindings of a chain hear of it one after another. -/
theorem runAll (room : Nat) (pulse : Pulse) (hfull : pulse.down = true → pulse.strength = 1)
    (ids : List Nat) (ht : Tidy S t.engine) (hids : ∀ i, S i → i ∈ ids)
    (htells : ∀ i ∈ ids, ∀ b, t.engine.bindings[i]? = some b → Tells t pulse b)
    (hmine : ∀ i b, t.engine.bindings[i]? = some b → S i →
      t.engine.followed b.mapping = pulse.user) :
    Tidy (fun _ => False)
      (ids.foldl (fun t i => (t.runBinding (Turn.feed room) i pulse false).1) t).engine := by
  induction ids generalizing S t with
  | nil =>
    exact { ht with follows := fun i b hb _ => ht.follows i b hb fun hin => by simpa using hids i hin }
  | cons first rest ih =>
    obtain ⟨hran, hscene⟩ := ht.runBinding room hfull (htells first List.mem_cons_self)
      (fun b hb => hmine first b hb)
    have hlayout := (t.steps_runBinding (fun t c pulse => t.steps_feed room c pulse) first pulse
      false).layout
    obtain ⟨hboard, hgates⟩ := Prod.mk.inj hscene
    have hactive := (Prod.mk.inj hgates).1
    refine ih hran (fun i hi => ?_) (fun i hi b hb => ?_) fun i b hb hi => ?_
    · exact (List.mem_cons.mp (hids i hi.1)).resolve_left hi.2
    · obtain ⟨b₀, hb₀, hmapping, -⟩ := binding_congr hlayout.symm hb
      obtain ⟨hdown, huser⟩ := htells i (List.mem_cons_of_mem _ hi) b₀ hb₀
      constructor
      · rw [hboard, ← hmapping]
        exact hdown
      · rw [Turn.sourceOf_congr hlayout hmapping.symm]
        exact huser
    · obtain ⟨b₀, hb₀, hmapping, -⟩ := binding_congr hlayout.symm hb
      rw [followed_congr hlayout hactive, ← hmapping]
      exact hmine i b₀ hb₀ hi.1

/-- **When the chain of a control has run**, all bindings are in line again. -/
theorem runChain (room : Nat) {c : Control} {line : Line} {pulse : Pulse}
    (ht : Tidy (fun _ => False) t.engine) (hwired : t.engine.Wired)
    (hline : t.engine.board.line? c = some line)
    (hfull : pulse.down = true → pulse.strength = 1) :
    Tidy (fun _ => False) (Turn.runChain room t c line (t.own c pulse)).1.engine := by
  have hchain : ∀ i, i ∈ line.chain ↔
      ∃ b, t.engine.bindings[i]? = some b ∧ b.mapping.source = c := by
    intro i
    rw [← hwired.chain c i]
    constructor
    · intro hmem
      exact ⟨line, hline, hmem⟩
    · rintro ⟨line', hline', hmem⟩
      obtain rfl := Option.some.inj (hline.symm.trans hline')
      exact hmem
  unfold Turn.runChain
  rw [Turn.sweep_fst]
  refine runAll room (t.own c pulse) hfull line.chain (ht.mark _ _) (fun i hi => ?_)
    (fun i hi b hb => ?_) fun i b hb hi => ?_
  · obtain ⟨b, hb, hsource, -⟩ := hi
    exact (hchain i).mpr ⟨b, hb, hsource⟩
  · obtain ⟨b₀, hb₀, hsource⟩ := (hchain i).mp hi
    obtain rfl : b₀ = b := Option.some.inj (hb₀.symm.trans hb)
    constructor
    · show (t.engine.board.set c _ _).isDown _ _ = _
      rw [Switchboard.isDown_set, if_pos]
      refine ⟨hsource.symm, rfl, ?_, ?_⟩
      · exact lt_trans (t.own c pulse).user.isLt (by decide)
      · rw [hline]
        rfl
    · intro huser
      have hdescriptor : (t.engine.descriptor c).flags.ofUser = false := by
        rw [← hsource]
        exact huser
      show t.stateUser c pulse.user = _
      unfold Turn.stateUser
      rw [hdescriptor]
      rfl
  · obtain ⟨b₀, hb₀, -, hfollowed⟩ := hi
    obtain rfl : b₀ = b := Option.some.inj (hb₀.symm.trans hb)
    exact hfollowed

/-- Nobody watches a control if there are no conditions. -/
theorem watchers_eq_nil {c : Control} {line : Line} (ht : Tidy S t.engine) (hwired : t.engine.Wired)
    (hline : t.engine.board.line? c = some line) : line.watchers = [] := by
  refine List.eq_nil_iff_forall_not_mem.mpr fun i hi => ?_
  obtain ⟨b, hb, test, htest, -⟩ := (hwired.watchers c i).mp ⟨line, hline, hi⟩
  rw [(ht.plain i b hb).unconditional] at htest
  simp [Condition.testsOf] at htest

/-- A control that is part of no pair moves. -/
theorem feed_single (room : Nat) {c : Control} {pulse : Pulse}
    (ht : Tidy (fun _ => False) t.engine) (hwired : t.engine.Wired)
    (hpairs : ∀ pair, ¬ t.engine.board.Lists Line.pairs c pair)
    (hfull : pulse.down = true → pulse.strength = 1) :
    Tidy (fun _ => False) (Turn.feed room t c pulse).1.engine := by
  cases room with
  | zero => exact ht
  | succ room =>
    cases hline : t.engine.board.line? c with
    | none =>
      rw [Turn.feed_unheard _ t c pulse hline]
      exact ht
    | some line =>
      have hnone : line.pairs = [] :=
        List.eq_nil_iff_forall_not_mem.mpr fun pair hpair => hpairs pair ⟨line, hline, hpair⟩
      rw [Turn.feed_eq room t c pulse hline]
      unfold Turn.runPairs
      simp only [hnone, ht.watchers_eq_nil hwired hline, List.foldl_nil, ite_self]
      exact ht.runChain room hwired hline hfull

/-- A pair follows its components, unless it rises with a release. -/
theorem followPair (room : Nat) {c pair : Control} {pulse : Pulse}
    (ht : Tidy (fun _ => False) t.engine) (hwired : t.engine.Wired)
    (hlists : t.engine.board.Lists Line.pairs c pair)
    (hfull : pulse.down = true → pulse.strength = 1)
    (hrises : pulse.down = false → ¬ t.Rises pair pulse.user) :
    Tidy (fun _ => False) (Turn.followPair (Turn.feed room) pulse t pair).1.engine := by
  unfold Turn.followPair
  split
  · exact ht
  · rename_i down hstate
    split
    · rename_i hmoves
      refine ht.feed_single room hwired (hwired.of_pairs hlists).2.2 fun hdown => hfull ?_
      obtain rfl : down = true := hdown
      by_contra hup
      refine hrises (Bool.eq_false_iff.mpr hup) ⟨hstate, ?_⟩
      simpa using hmoves
    · exact ht

/-- **A source moves, and its pairs follow.** All bindings are in line afterwards, if a press comes with
full strength and the pairs were in step. -/
theorem feed (room : Nat) {c : Control} {pulse : Pulse}
    (ht : Tidy (fun _ => False) t.engine) (hwired : t.engine.Wired)
    (hstep : ∀ pair, t.engine.board.Lists Line.pairs c pair → t.InStep pair (t.own c pulse).user)
    (hfull : pulse.down = true → pulse.strength = 1) :
    Tidy (fun _ => False) (Turn.feed (room + 2) t c pulse).1.engine := by
  cases hline : t.engine.board.line? c with
  | none =>
    rw [Turn.feed_unheard _ t c pulse hline]
    exact ht
  | some line =>
    have hchain := ht.runChain (room + 1) hwired hline hfull
    have hbeneath := Turn.beneath_runChain (Turn.beneath_feed (room + 1)) c line (t.own c pulse)
      hwired (keyed_none _) (fun _ _ _ h => h.elim) False.elim
    rw [Turn.feed_eq (room + 1) t c pulse hline]
    unfold Turn.runPairs
    simp only [ht.watchers_eq_nil hwired hline, List.foldl_nil, ite_self]
    generalize (Turn.runChain (room + 1) t c line (t.own c pulse)).1 = run at hchain hbeneath ⊢
    have hrun : run.engine.layout = t.engine.layout :=
      hbeneath.layout.trans (layout_setBoard t.engine c _ _)
    have hlists : ∀ pair ∈ line.pairs, t.engine.board.Lists Line.pairs c pair :=
      fun pair hpair => ⟨line, hline, hpair⟩
    -- What is carried along the pairs is that none of them rises with a release.
    have hrises : ∀ pair ∈ line.pairs, pulse.down = false →
        ¬ run.Rises pair (t.own c pulse).user := by
      intro pair hpair hdown
      refine Turn.not_rises_beneath hbeneath (hwired.of_pairs (hlists pair hpair)).2.1 ?_
      rw [show (t.own c pulse).down = false from hdown]
      exact Turn.not_rises_mark hline ((hwired.pairs c pair).mp (hlists pair hpair)).1
        (hstep pair (hlists pair hpair))
    have hnext : ∀ t' : Turn, (t'.engine.layout = t.engine.layout ∧
        Tidy (fun _ => False) t'.engine ∧ ∀ pair ∈ line.pairs, pulse.down = false →
          ¬ t'.Rises pair (t.own c pulse).user) → ∀ pair ∈ line.pairs,
        let followed := (Turn.followPair (Turn.feed (room + 1)) (t.own c pulse) t' pair).1
        followed.engine.layout = t.engine.layout ∧ Tidy (fun _ => False) followed.engine ∧
          ∀ other ∈ line.pairs, pulse.down = false →
            ¬ followed.Rises other (t.own c pulse).user := by
      intro t' ⟨hlayout, htidy, hnone⟩ pair hpair
      have hwired' := hwired.congr hlayout
      have hlist : t'.engine.board.Lists Line.pairs c pair :=
        (lists_congr Wiring.pairs (fun _ => rfl) hlayout c pair).mpr (hlists pair hpair)
      have hown := Turn.stateUser_own hlayout c pulse
      obtain ⟨_, -, hmoved⟩ := Turn.moved_followPair room hwired' hlist hown
      refine ⟨hmoved.layout.trans hlayout,
        htidy.followPair (room + 1) hwired' hlist hfull (hnone pair hpair),
        fun other hother hdown => ?_⟩
      exact Turn.not_rises_followPair room hwired' hlist hown
        (hwired.of_pairs (hlists other hother)).2.1 (hnone other hother hdown)
    exact (Turn.sweep_keeps (Q := False) (fun t' ht' pair hpair _ => hnext t' ht' pair hpair)
      ⟨hrun, hchain, hrises⟩ False.elim).2.1

end Tidy

end Engine

end VirtualPad
