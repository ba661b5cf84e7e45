import Mathlib.Data.List.Nodup
import VirtualPad.Vocabulary

/-!
# What registering names comes to

Custom controls are registered one after another, and each call is granted or refused.  A `Ledger`
keeps the vocabulary together with every control that was handed out, beside what it was registered
as.  Looking a name up, describing a control and showing its name then say no more and no less than
the ledger does, however many calls there were and however many of them were refused.

* `Control.named?_eq_some_iff`: the lookup of built-in names is their table, letter case apart.
* `Ledger.inStep_ofCalls`: the vocabulary is in step with the ledger after any row of calls.
* `lawful_ofCalls`: what the calls answer, and what can be asked afterwards.
-/

namespace VirtualPad

/-! ## §1 The names of the built-in controls -/

/-- In a table that has each key once, every entry is found. -/
theorem lookup_of_mem {α β : Type} [BEq α] [LawfulBEq α] {table : List (α × β)}
    (hnodup : (table.map Prod.fst).Nodup) {a : α} {b : β} (hmem : (a, b) ∈ table) :
    table.lookup a = some b := by
  obtain ⟨before, after, rfl⟩ := List.append_of_mem hmem
  refine List.lookup_eq_some_iff.mpr ⟨before, after, rfl, fun entry hentry => ?_⟩
  rw [List.map_append, List.nodup_append] at hnodup
  have hne := hnodup.2.2 entry.1 (List.mem_map_of_mem hentry) a (by simp)
  simpa using fun h => hne h.symm

namespace Control

/-- One of the names of the built-in control is this one, letter case apart. -/
def GoesBy (c : Control) (name : String) : Prop :=
  ∃ entry ∈ builtins ++ aliases, entry.2 = c.code ∧ foldCase entry.1 = foldCase name

/-- A name without its letter case as one number, which is quickly compared. -/
def spelledOut (name : String) : Nat :=
  name.toList.foldl (fun number c => 256 * number + c.toLower.toNat) 0

theorem spelledOut_congr {a b : String} (h : foldCase a = foldCase b) :
    spelledOut a = spelledOut b := by
  have hfolded : ∀ name : String, spelledOut name =
      (foldCase name).toList.foldl (fun number c => 256 * number + c.toNat) 0 := by
    intro name
    simp [spelledOut, foldCase, List.foldl_map]
  rw [hfolded a, hfolded b, h]

/-- No two names of the tables are the same when letter case is left out. -/
theorem nodup_foldedNames : (foldedNames.map Prod.fst).Nodup := by
  have hnumbers : ((builtins ++ aliases).map fun entry => spelledOut entry.1).Nodup := by
    decide +kernel
  simp only [foldedNames, List.map_map]
  apply List.pairwise_map.mpr
  apply (List.pairwise_map.mp hnumbers).imp
  intro a b hne hsame
  exact hne (spelledOut_congr hsame)

theorem mem_foldedNames {entry : String × UInt16} :
    entry ∈ foldedNames ↔ ∃ named ∈ builtins ++ aliases, (foldCase named.1, named.2) = entry :=
  List.mem_map

/-- Looking a name up finds the built-in control that goes by it. -/
theorem named?_eq_some_iff {name : String} {c : Control} :
    named? name = some c ↔ c.GoesBy name := by
  unfold named?
  rw [Option.map_eq_some_iff]
  constructor
  · rintro ⟨code, hlookup, rfl⟩
    obtain ⟨before, after, hsplit, -⟩ := List.lookup_eq_some_iff.mp hlookup
    have hmem : (foldCase name, code) ∈ foldedNames := by simp [hsplit]
    obtain ⟨entry, hentry, hfolded⟩ := mem_foldedNames.mp hmem
    obtain ⟨hname, hcode⟩ := Prod.mk.inj hfolded
    exact ⟨entry, hentry, hcode, hname⟩
  · rintro ⟨entry, hentry, hcode, hname⟩
    have hmem : (foldCase name, c.code) ∈ foldedNames :=
      mem_foldedNames.mpr ⟨entry, hentry, by rw [hcode, hname]⟩
    exact ⟨c.code, lookup_of_mem nodup_foldedNames hmem, rfl⟩

theorem named?_eq_none_iff {name : String} :
    named? name = none ↔ ∀ c : Control, ¬ c.GoesBy name := by
  simp only [Option.eq_none_iff_forall_ne_some, ne_eq, named?_eq_some_iff]

/-- All built-in controls have numbers below those of the custom ones. -/
theorem GoesBy.builtin {c : Control} {name : String} (h : c.GoesBy name) : c.isCustom = false := by
  obtain ⟨entry, hentry, hcode, -⟩ := h
  have hbelow : ∀ entry ∈ builtins ++ aliases, entry.2.toNat < firstCustom := by decide +kernel
  have hlt := hbelow entry hentry
  rw [hcode] at hlt
  exact decide_eq_false (Nat.not_le_of_lt hlt)

/-- Which control goes by a name does not depend on letter case. -/
theorem named?_congr {a b : String} (h : foldCase a = foldCase b) : named? a = named? b := by
  unfold named?
  rw [h]

end Control

/-! ## §2 The ledger -/

namespace Vocabulary

/-- The number of the custom control at a place, as long as there are numbers left. -/
theorem number_controlAt {place : Nat} (h : place < Control.customCapacity) :
    (controlAt place).number = Control.firstCustom + place := by
  have hlt : Control.firstCustom + place < 65536 := by
    unfold Control.customCapacity at h
    omega
  exact Nat.mod_eq_of_lt hlt

/-- A vocabulary on its way, with the controls that were handed out, each beside what it was
registered as. -/
structure Ledger where
  vocabulary : Vocabulary := {}
  granted : List (CustomControl × Control) := []

namespace Ledger

/-- One call: a control that is handed out is written down, and a call that is refused leaves
everything as it was. -/
def call (l : Ledger) (request : CustomControl) : Ledger :=
  match l.vocabulary.register request.name request.kind with
  | .ok (v, c) => ⟨v, l.granted ++ [(request, c)]⟩
  | .error _ => l

/-- The ledger after a row of calls. -/
def ofCalls (calls : List CustomControl) : Ledger := calls.foldl call {}

/-- Why the ledger has no room for a name. -/
inductive Refuses (l : Ledger) (name : String) : VocabularyError → Prop where
  /-- A built-in control goes by it. -/
  | shadowsBuiltin {c : Control} (hnamed : c.GoesBy name) : Refuses l name (.shadowsBuiltin name)
  /-- It was registered before, in this letter case or another. -/
  | duplicate (hfree : ∀ c : Control, ¬ c.GoesBy name) {entry : CustomControl × Control}
      (hentry : entry ∈ l.granted) (hsame : foldCase entry.1.name = foldCase name) :
      Refuses l name (.duplicate name)
  /-- There is no number left. -/
  | exhausted (hfree : ∀ c : Control, ¬ c.GoesBy name)
      (hnew : ∀ entry ∈ l.granted, foldCase entry.1.name ≠ foldCase name)
      (hfull : l.granted.length = Control.customCapacity) : Refuses l name .exhausted

/-- The vocabulary says what the ledger says. -/
structure InStep (l : Ledger) : Prop where
  customs : l.vocabulary.customs.toList = l.granted.map Prod.fst
  controls : l.granted.map Prod.snd = (List.range l.granted.length).map controlAt
  room : l.granted.length ≤ Control.customCapacity
  free : ∀ entry ∈ l.granted, ∀ c : Control, ¬ c.GoesBy entry.1.name
  byName (folded : String) (c : Control) : l.vocabulary.byName[folded]? = some c ↔
    ∃ entry ∈ l.granted, entry.2 = c ∧ foldCase entry.1.name = folded

section

variable {l : Ledger} {name : String} {kind : CustomKind}

theorem InStep.size (h : l.InStep) : l.vocabulary.size = l.granted.length := by
  rw [Vocabulary.size, ← Array.length_toList, h.customs, List.length_map]

/-- A name has been registered when the vocabulary has it, letter case apart. -/
theorem InStep.contains_iff (h : l.InStep) : l.vocabulary.byName.contains (foldCase name) = true ↔
    ∃ entry ∈ l.granted, foldCase entry.1.name = foldCase name := by
  rw [Std.TreeMap.contains_eq_isSome_getElem?, Option.isSome_iff_exists]
  simp only [h.byName]
  constructor
  · rintro ⟨c, entry, hentry, -, hsame⟩
    exact ⟨entry, hentry, hsame⟩
  · rintro ⟨entry, hentry, hsame⟩
    exact ⟨entry.2, entry, hentry, rfl, hsame⟩

/-- **A name is refused** exactly for the reasons that the ledger gives. -/
theorem InStep.refusal?_eq_some_iff (h : l.InStep) {e : VocabularyError} :
    l.vocabulary.refusal? name = some e ↔ l.Refuses name e := by
  unfold refusal?
  -- The checks in their order: each reason is looked at only when the ones before it do not apply.
  cases hnamed : Control.named? name with
  | some c =>
    have hgoes : c.GoesBy name := Control.named?_eq_some_iff.mp hnamed
    constructor
    · rintro ⟨⟩
      exact .shadowsBuiltin hgoes
    · rintro (hnamed | ⟨hfree, -⟩ | ⟨hfree, -⟩)
      · rfl
      · exact absurd hgoes (hfree c)
      · exact absurd hgoes (hfree c)
  | none =>
    have hfree : ∀ c : Control, ¬ c.GoesBy name := Control.named?_eq_none_iff.mp hnamed
    by_cases hknown : l.vocabulary.byName.contains (foldCase name) = true
    · obtain ⟨entry, hentry, hsame⟩ := h.contains_iff.mp hknown
      simp only [Option.isSome_none, Bool.false_eq_true, if_false, hknown, if_true]
      constructor
      · rintro ⟨⟩
        exact .duplicate hfree hentry hsame
      · rintro (hnamed | - | ⟨-, hnew, -⟩)
        · exact absurd hnamed (hfree _)
        · rfl
        · exact absurd hsame (hnew entry hentry)
    · have hnew : ∀ entry ∈ l.granted, foldCase entry.1.name ≠ foldCase name :=
        fun entry hentry hsame => hknown (h.contains_iff.mpr ⟨entry, hentry, hsame⟩)
      simp only [Option.isSome_none, Bool.false_eq_true, if_false, hknown, h.size]
      constructor
      · intro hfull
        split at hfull
        · rename_i hroom
          cases hfull
          exact .exhausted hfree hnew (Nat.le_antisymm h.room hroom)
        · contradiction
      · rintro (hnamed | ⟨-, hentry, hsame⟩ | ⟨-, -, hfull⟩)
        · exact absurd hnamed (hfree _)
        · exact absurd hsame (hnew _ hentry)
        · exact if_pos (Nat.le_of_eq hfull.symm)

/-- What the ledger has room for: the name is new, and there is a number left. -/
theorem of_not_refuses (h : ∀ e, ¬ l.Refuses name e) : (∀ c : Control, ¬ c.GoesBy name) ∧
    (∀ entry ∈ l.granted, foldCase entry.1.name ≠ foldCase name) ∧
    l.granted.length ≠ Control.customCapacity := by
  have hfree : ∀ c : Control, ¬ c.GoesBy name := fun c hnamed => h _ (.shadowsBuiltin hnamed)
  have hnew : ∀ entry ∈ l.granted, foldCase entry.1.name ≠ foldCase name :=
    fun entry hentry hsame => h _ (.duplicate hfree hentry hsame)
  exact ⟨hfree, hnew, fun hfull => h _ (.exhausted hfree hnew hfull)⟩

theorem InStep.register_eq_error_iff (h : l.InStep) {e : VocabularyError} :
    l.vocabulary.register name kind = .error e ↔ l.Refuses name e := by
  rw [← h.refusal?_eq_some_iff]
  unfold register
  cases l.vocabulary.refusal? name <;> simp

end

/-! ## §3 Calls keep the vocabulary in step -/

section

variable {l : Ledger} {request : CustomControl}

theorem call_of_error {e : VocabularyError}
    (h : l.vocabulary.register request.name request.kind = .error e) : l.call request = l := by
  simp only [call, h]

/-- A call that is granted adds the control at the next place. -/
theorem InStep.call_of_not_refuses (h : l.InStep) (haccepts : ∀ e, ¬ l.Refuses request.name e) :
    l.call request = ⟨(l.vocabulary.add request.name request.kind).1,
      l.granted ++ [(request, controlAt l.granted.length)]⟩ := by
  have hnone : l.vocabulary.refusal? request.name = none := by
    simp only [Option.eq_none_iff_forall_ne_some, ne_eq, h.refusal?_eq_some_iff]
    exact haccepts
  simp only [call, register, hnone, add, h.size]

/-- Granting a call writes the new control down in the vocabulary and in the ledger alike. -/
theorem InStep.grant (h : l.InStep) (haccepts : ∀ e, ¬ l.Refuses request.name e) :
    InStep ⟨(l.vocabulary.add request.name request.kind).1,
      l.granted ++ [(request, controlAt l.granted.length)]⟩ where
  customs := by simp [add, h.customs]
  controls := by simp [List.range_succ, h.controls]
  room := by
    have hlt : l.granted.length < Control.customCapacity :=
      Nat.lt_of_le_of_ne h.room (of_not_refuses haccepts).2.2
    rw [List.length_append]
    exact hlt
  free entry hentry := by
    rcases List.mem_append.mp hentry with hold | hlast
    · exact h.free entry hold
    · obtain rfl := List.mem_singleton.mp hlast
      exact (of_not_refuses haccepts).1
  byName folded c := by
    have hnew := (of_not_refuses haccepts).2.1
    simp only [add, Std.TreeMap.getElem?_insert, Std.LawfulEqCmp.compare_eq_iff_eq, h.size,
      List.mem_append, List.mem_singleton]
    by_cases hsame : foldCase request.name = folded
    · -- The name is new, so no older entry has a say in what it stands for.
      rw [if_pos hsame]
      constructor
      · intro hc
        exact ⟨_, .inr rfl, Option.some.inj hc, hsame⟩
      · rintro ⟨entry, hold | rfl, hcontrol, hfolded⟩
        · exact absurd (hfolded.trans hsame.symm) (hnew entry hold)
        · exact congrArg some hcontrol
    · rw [if_neg hsame, h.byName]
      constructor
      · rintro ⟨entry, hold, hentry⟩
        exact ⟨entry, .inl hold, hentry⟩
      · rintro ⟨entry, hold | rfl, hcontrol, hfolded⟩
        · exact ⟨entry, hold, hcontrol, hfolded⟩
        · exact absurd hfolded hsame

/-- Whether it is granted or refused, a call keeps the vocabulary in step. -/
theorem InStep.call (h : l.InStep) : (l.call request).InStep := by
  by_cases hrefused : ∃ e, l.Refuses request.name e
  · obtain ⟨e, he⟩ := hrefused
    rw [call_of_error (h.register_eq_error_iff.mpr he)]
    exact h
  · have haccepts : ∀ e, ¬ l.Refuses request.name e := not_exists.mp hrefused
    rw [h.call_of_not_refuses haccepts]
    exact h.grant haccepts

/-- What was handed out stays handed out. -/
theorem InStep.granted_call (h : l.InStep) : l.granted <+: (l.call request).granted := by
  by_cases hrefused : ∃ e, l.Refuses request.name e
  · obtain ⟨e, he⟩ := hrefused
    simp [call_of_error (h.register_eq_error_iff.mpr he)]
  · rw [h.call_of_not_refuses (not_exists.mp hrefused)]
    exact List.prefix_append _ _

end

theorem inStep_new : InStep {} where
  customs := rfl
  controls := rfl
  room := Nat.zero_le _
  free := by simp
  byName := by simp

section

variable {l : Ledger}

theorem InStep.foldl (h : l.InStep) (calls : List CustomControl) :
    (calls.foldl Ledger.call l).InStep ∧ l.granted <+: (calls.foldl Ledger.call l).granted := by
  induction calls generalizing l with
  | nil => exact ⟨h, List.prefix_rfl⟩
  | cons request rest ih =>
    obtain ⟨hstep, hgranted⟩ := ih h.call
    exact ⟨hstep, h.granted_call.trans hgranted⟩

/-- **After any row of calls** the vocabulary is in step with the ledger. -/
theorem inStep_ofCalls (calls : List CustomControl) : (ofCalls calls).InStep :=
  (inStep_new.foldl calls).1

/-- Further calls only add to what was handed out. -/
theorem granted_ofCalls_append (calls more : List CustomControl) :
    (ofCalls calls).granted <+: (ofCalls (calls ++ more)).granted := by
  unfold ofCalls
  rw [List.foldl_append]
  exact ((inStep_ofCalls calls).foldl more).2

/-! ## §4 What can be asked afterwards -/

/-- Each control that was handed out has the number of its place. -/
theorem InStep.controlAt_of_getElem? (h : l.InStep) {place : Nat}
    {entry : CustomControl × Control} (hentry : l.granted[place]? = some entry) :
    place < Control.customCapacity ∧ entry.2 = controlAt place := by
  have hlt : place < l.granted.length := (List.getElem?_eq_some_iff.mp hentry).1
  have hcontrol : (l.granted.map Prod.snd)[place]? = some entry.2 := by simp [hentry]
  rw [h.controls] at hcontrol
  simp only [List.getElem?_map, List.getElem?_range hlt, Option.map_some] at hcontrol
  exact ⟨Nat.lt_of_lt_of_le hlt h.room, (Option.some.inj hcontrol).symm⟩

theorem InStep.number_of_getElem? (h : l.InStep) {place : Nat} {entry : CustomControl × Control}
    (hentry : l.granted[place]? = some entry) :
    entry.2.number = Control.firstCustom + place := by
  obtain ⟨hlt, hcontrol⟩ := h.controlAt_of_getElem? hentry
  rw [hcontrol]
  exact number_controlAt hlt

/-- No control is handed out twice. -/
theorem InStep.nodup (h : l.InStep) : (l.granted.map Prod.snd).Nodup := by
  rw [h.controls]
  apply List.Nodup.map_on _ List.nodup_range
  intro first hfirst second hsecond hsame
  -- Two places are told apart by the numbers of their controls.
  have hnumber := congrArg Control.number hsame
  rw [number_controlAt (Nat.lt_of_lt_of_le (List.mem_range.mp hfirst) h.room),
    number_controlAt (Nat.lt_of_lt_of_le (List.mem_range.mp hsecond) h.room)] at hnumber
  exact Nat.add_left_cancel hnumber

/-- A control that was handed out is what it was registered as. -/
theorem InStep.custom?_eq (h : l.InStep) {entry : CustomControl × Control}
    (hentry : entry ∈ l.granted) :
    entry.2.isCustom = true ∧ l.vocabulary.custom? entry.2 = some entry.1 := by
  obtain ⟨place, hplace⟩ := List.getElem?_of_mem hentry
  have hnumber := h.number_of_getElem? hplace
  have hcustom : entry.2.isCustom = true := by simp [Control.isCustom, hnumber]
  have hregistered : l.vocabulary.customs[place]? = some entry.1 := by
    rw [← Array.getElem?_toList, h.customs, List.getElem?_map, hplace]
    rfl
  refine ⟨hcustom, ?_⟩
  simp only [custom?, hcustom, if_true, hnumber, Nat.add_sub_cancel_left, hregistered]

theorem InStep.descriptor_eq (h : l.InStep) {entry : CustomControl × Control}
    (hentry : entry ∈ l.granted) :
    l.vocabulary.descriptor entry.2 = entry.1.kind.descriptor := by
  obtain ⟨hcustom, hregistered⟩ := h.custom?_eq hentry
  simp only [descriptor, hcustom, if_true, hregistered]

theorem InStep.displayName_eq (h : l.InStep) {entry : CustomControl × Control}
    (hentry : entry ∈ l.granted) : l.vocabulary.displayName entry.2 = entry.1.name := by
  simp only [displayName, (h.custom?_eq hentry).2]

/-- **A name stands for** the built-in control that goes by it, or for the control that was handed
out for it. -/
theorem InStep.resolve?_eq_some_iff (h : l.InStep) {name : String} {c : Control} :
    l.vocabulary.resolve? name = some c ↔ c.GoesBy name ∨
      ∃ entry ∈ l.granted, entry.2 = c ∧ foldCase entry.1.name = foldCase name := by
  unfold resolve?
  cases hnamed : Control.named? name with
  | none =>
    have hfree := Control.named?_eq_none_iff.mp hnamed c
    simp only [h.byName, hfree, false_or]
  | some found =>
    rw [← Control.named?_eq_some_iff, hnamed]
    -- A name that was registered is no built-in one.
    have hfresh : ¬ ∃ entry ∈ l.granted, entry.2 = c ∧ foldCase entry.1.name = foldCase name := by
      rintro ⟨entry, hentry, -, hsame⟩
      apply h.free entry hentry found
      rw [← Control.named?_eq_some_iff, Control.named?_congr hsame, hnamed]
    simp only [hfresh, or_false]

end

/-- What a row of calls comes to. -/
structure Lawful (calls : List CustomControl) : Prop where
  /-- The controls that are handed out have consecutive numbers. -/
  number (n : Nat) (entry : CustomControl × Control) :
    (ofCalls calls).granted[n]? = some entry → entry.2.number = Control.firstCustom + n
  /-- The next call is refused exactly for these reasons, in this order. -/
  refused (name : String) (kind : CustomKind) (e : VocabularyError) :
    (ofCalls calls).vocabulary.register name kind = .error e ↔ (ofCalls calls).Refuses name e
  /-- A call that is refused changes nothing. -/
  unchanged (request : CustomControl) (e : VocabularyError) :
    (ofCalls calls).vocabulary.register request.name request.kind = .error e →
      ofCalls (calls ++ [request]) = ofCalls calls
  /-- A name stands for the built-in control that goes by it or for the one that was handed out for
  it, letter case apart. -/
  resolved (name : String) (c : Control) :
    (ofCalls calls).vocabulary.resolve? name = some c ↔ c.GoesBy name ∨
      ∃ entry ∈ (ofCalls calls).granted, entry.2 = c ∧ foldCase entry.1.name = foldCase name
  /-- What a name stands for is not changed by further calls. -/
  settled (more : List CustomControl) (name : String) (c : Control) :
    (ofCalls calls).vocabulary.resolve? name = some c →
      (ofCalls (calls ++ more)).vocabulary.resolve? name = some c
  /-- No control is handed out twice. -/
  apart : ((ofCalls calls).granted.map Prod.snd).Nodup
  /-- Each control that was handed out is known by what it was registered as. -/
  known (entry : CustomControl × Control) : entry ∈ (ofCalls calls).granted →
    (ofCalls calls).vocabulary.descriptor entry.2 = entry.1.kind.descriptor ∧
      (ofCalls calls).vocabulary.displayName entry.2 = entry.1.name

/-- **Whatever is registered**, in any order and however often, answers and lookups are lawful. -/
theorem lawful_ofCalls (calls : List CustomControl) : Lawful calls where
  number _ _ hentry := (inStep_ofCalls calls).number_of_getElem? hentry
  refused _ _ _ := (inStep_ofCalls calls).register_eq_error_iff
  unchanged request e hrefused := by
    unfold ofCalls
    rw [List.foldl_append]
    exact call_of_error hrefused
  resolved _ _ := (inStep_ofCalls calls).resolve?_eq_some_iff
  settled more name c hresolved := by
    rw [(inStep_ofCalls _).resolve?_eq_some_iff] at hresolved ⊢
    apply hresolved.imp_right
    rintro ⟨entry, hentry, hsame⟩
    exact ⟨entry, (granted_ofCalls_append calls more).subset hentry, hsame⟩
  apart := (inStep_ofCalls calls).nodup
  known _ hentry :=
    ⟨(inStep_ofCalls calls).descriptor_eq hentry, (inStep_ofCalls calls).displayName_eq hentry⟩

example : (ofCalls [⟨"Aim", .var⟩, ⟨"AIM", .key⟩, ⟨"Esc", .var⟩, ⟨"Fire", .key⟩]).granted.map
    (fun entry => (entry.1.name, entry.2.number)) = [("Aim", 0x400), ("Fire", 0x401)] := by
  decide +kernel

end Ledger

end Vocabulary

end VirtualPad
