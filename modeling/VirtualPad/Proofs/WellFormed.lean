import Mathlib.Data.List.Induction
import VirtualPad.Proofs.Assignment
import VirtualPad.Proofs.Compilation

/-!
# Compiled configurations are well formed

The engine checks nothing that compiling has checked before.  What it relies on is that users exist,
that controls without users are kept under the first one, that strengths and rates are usable numbers
and that options and payloads go with their targets.

Each check of the compiler is taken by itself: whatever value it lets through has the property that
the check is there for.

* `float_le_of_not_lt`: of two finite values one is at most the other.
* `Condition.placed_of_parse`: a condition that was read asks for controls without users under the
  first user.
* `MappingTable.wellFormed_of_compile`: the checks of one mapping together.
* `ConfigFile.wellFormed_compile`: compiling any file gives a well-formed configuration.
-/

namespace VirtualPad

open Float.Model (UnpackedFloat)

/-! ## §1 The order of floating-point values -/

/-- The values compared the other way round. -/
theorem unpacked_compare_swap (a b : UnpackedFloat) :
    b.compare a = (a.compare b).map Ordering.swap := by
  have hsign : ∀ s s' : UnpackedFloat.Sign, compare s' s = (compare s s').swap := by
    intro s s'
    cases s <;> cases s' <;> rfl
  have hsize : ∀ (e e' : Int) (m m' : Nat),
      (compare e' e).then (compare m' m) = ((compare e e').then (compare m m')).swap := by
    intro e e' m m'
    rw [Ordering.swap_then, Int.compare_swap, Nat.compare_swap]
  -- In each case the comparison of the two values computes.
  cases a with
  | notANumber => cases b <;> rfl
  | zero s =>
    cases b with
    | notANumber | zero s' => rfl
    | infinity s' | finite s' m e h => cases s' <;> rfl
  | infinity s =>
    cases b with
    | notANumber => cases s <;> rfl
    | infinity s' => exact congrArg some (hsign s s')
    | zero s' | finite s' m e h => cases s <;> rfl
  | finite s m e h =>
    cases b with
    | notANumber => cases s <;> rfl
    | infinity s' => cases s <;> cases s' <;> rfl
    | zero s' => cases s <;> rfl
    | finite s' m' e' h' =>
      cases s <;> cases s'
      all_goals first
        | exact congrArg some (hsize _ _ _ _)
        | exact congrArg (fun o : Ordering => some o.swap) (hsize _ _ _ _)
        | rfl

/-- Two values that are finite can be compared. -/
theorem exists_unpacked_compare {a b : UnpackedFloat} (ha : a.isFinite = true)
    (hb : b.isFinite = true) : ∃ order, a.compare b = some order := by
  cases a with
  | notANumber | infinity s => contradiction
  | zero s =>
    cases b with
    | notANumber | infinity s' => contradiction
    | zero s' => exact ⟨_, rfl⟩
    | finite s' m' e' h' => cases s' <;> exact ⟨_, rfl⟩
  | finite s m e h =>
    cases b with
    | notANumber | infinity s' => contradiction
    | zero s' => cases s <;> exact ⟨_, rfl⟩
    | finite s' m' e' h' => cases s <;> cases s' <;> exact ⟨_, rfl⟩

section

variable {x y : Float}

theorem float_le_of_compare {order : Ordering}
    (h : x.toModel.unpack.compare y.toModel.unpack = some order) (hle : order.isLE = true) :
    x ≤ y := by
  have hany : x.toModel.unpack.le y.toModel.unpack = true := by
    unfold UnpackedFloat.le
    rw [h]
    exact hle
  exact decide_eq_true hany

/-- What is below a value is at most that value. -/
theorem float_le_of_lt (h : x < y) : x ≤ y := by
  have hlt : x.toModel.unpack.lt y.toModel.unpack = true := of_decide_eq_true h
  exact float_le_of_compare (eq_of_beq hlt) rfl

/-- Values that compare equal are at most each other. -/
theorem float_le_of_beq (h : (y == x) = true) : x ≤ y := by
  have heq : y.toModel.unpack.compare x.toModel.unpack = some .eq := eq_of_beq h
  have hswapped : x.toModel.unpack.compare y.toModel.unpack = some .eq := by
    rw [unpacked_compare_swap, heq]
    rfl
  exact float_le_of_compare hswapped rfl

/-- Finite values that are not above a finite one are at most that one. -/
theorem float_le_of_not_lt (hx : x.isFinite = true) (hy : y.isFinite = true) (h : ¬ y < x) :
    x ≤ y := by
  obtain ⟨order, horder⟩ := exists_unpacked_compare hx hy
  refine float_le_of_compare horder (Ordering.isLE_iff_ne_gt.mpr fun hgt => h ?_)
  have hlt : y.toModel.unpack.lt x.toModel.unpack = true := by
    unfold UnpackedFloat.lt
    rw [unpacked_compare_swap, horder, hgt]
    rfl
  exact decide_eq_true hlt

end

/-! ## §2 Numbers -/

/-- A strength can be used: it is finite and not negative. -/
def UsableStrength (x : Float) : Prop := x.isFinite = true ∧ 0 ≤ x

/-- A rate can be used: it is finite, above zero and not too long. -/
def UsableRate (x : Float) : Prop := x.isFinite = true ∧ 0 < x ∧ x ≤ maxRate

namespace Settings

/-- The default rate is usable, whatever rate was asked for. -/
theorem usableRate_sanitize (s : Settings) : UsableRate s.sanitize.1.defaultRate := by
  have hstandard : UsableRate standard.defaultRate :=
    ⟨by decide, by decide, by decide⟩
  show UsableRate (checkLimit "default_rate"
    (checkPositive "default_rate" s.defaultRate standard.defaultRate).1 maxRate
    standard.defaultRate).1
  have hpositive : ∀ x, (checkPositive "default_rate" x standard.defaultRate).1.isFinite = true ∧
      0 < (checkPositive "default_rate" x standard.defaultRate).1 := by
    intro x
    unfold checkPositive
    split
    · rename_i h
      simpa using h
    · exact ⟨hstandard.1, hstandard.2.1⟩
  obtain ⟨hfinite, hpos⟩ := hpositive s.defaultRate
  generalize (checkPositive "default_rate" s.defaultRate standard.defaultRate).1 = x at hfinite hpos
  unfold checkLimit
  split
  · exact hstandard
  · rename_i hlimit
    exact ⟨hfinite, hpos, float_le_of_not_lt hfinite (by decide) hlimit⟩

end Settings

namespace MappingTable

variable {index : Nat} {field : NumberField} {value : Option Float} {fallback limit x : Float}

/-- What the check of a number lets through is the fallback or within the bounds. -/
theorem readNumber_cases {allowsZero : Bool}
    (h : (readNumber index field value fallback limit allowsZero).value = some x) :
    x = fallback ∨ x.isFinite = true ∧ x ≤ limit ∧ (0 < x ∨ allowsZero = true ∧ (x == 0) = true) := by
  unfold readNumber at h
  split at h
  · exact .inl (Option.some.inj h).symm
  · split at h
    · rename_i hbounds
      obtain rfl := Option.some.inj h
      exact .inr (by simpa [and_assoc] using hbounds)
    · exact .inl (Option.some.inj h).symm

theorem usableStrength_of_readNumber
    (h : (readNumber index field value 1 limit true).value = some x) : UsableStrength x := by
  rcases readNumber_cases h with rfl | ⟨hfinite, -, hpos | ⟨-, hzero⟩⟩
  · exact ⟨by decide, by decide⟩
  · exact ⟨hfinite, float_le_of_lt hpos⟩
  · exact ⟨hfinite, float_le_of_beq hzero⟩

theorem usableRate_of_readNumber (hfallback : UsableRate fallback)
    (h : (readNumber index field value fallback maxRate false).value = some x) : UsableRate x := by
  rcases readNumber_cases h with rfl | ⟨hfinite, hlimit, hpos | ⟨hallowed, -⟩⟩
  · exact hfallback
  · exact ⟨hfinite, hpos, hlimit⟩
  · contradiction

end MappingTable

/-! ## §3 Conditions -/

/-- The test asks for a control without users under the first one. -/
def Test.Placed (v : Vocabulary) (t : Test) : Prop :=
  (v.descriptor t.control).flags.ofUser = false → t.user = .index 0

namespace Condition

variable {v : Vocabulary}

mutual

theorem placed_negate : ∀ c : Condition, (∀ t ∈ c.tests, t.Placed v) →
    ∀ t ∈ c.negate.tests, t.Placed v
  | .test t, h => by
    have htest : t.Placed v := h t (by simp [tests])
    intro t' ht
    obtain rfl : t' = { t with desired := !t.desired } := by simpa [negate, tests] using ht
    exact htest
  | .all parts, h => by
    simpa [negate, tests] using placed_negateEach parts (by simpa [tests] using h)
  | .any parts, h => by
    simpa [negate, tests] using placed_negateEach parts (by simpa [tests] using h)

theorem placed_negateEach : ∀ cs : List Condition, (∀ t ∈ testsOf cs, t.Placed v) →
    ∀ t ∈ testsOf (negateEach cs), t.Placed v
  | [], _ => by simp [negateEach, testsOf]
  | c :: rest, h => by
    simp only [testsOf, List.mem_append] at h
    intro t ht
    simp only [negateEach, testsOf, List.mem_append] at ht
    rcases ht with hfirst | hrest
    · exact placed_negate c (fun t ht => h t (.inl ht)) t hfirst
    · exact placed_negateEach rest (fun t ht => h t (.inr ht)) t hrest

end

/-- Every test of the condition is placed. -/
def Placed (v : Vocabulary) (c : Condition) : Prop := ∀ t ∈ c.tests, t.Placed v

theorem placed_ofName {text : String} {c : Condition} (h : ofName v text = .ok c) : c.Placed v := by
  unfold ofName at h
  obtain ⟨⟨control, user⟩, -, h⟩ := Except.bind_eq_ok h
  obtain rfl := Except.ok.inj h
  intro t ht huser
  obtain rfl : t = _ := by simpa [tests] using ht
  simp [huser]

theorem placed_askToggle {c toggled : Condition} (hc : c.Placed v) (h : askToggle c = .ok toggled) :
    toggled.Placed v := by
  unfold askToggle at h
  split at h
  · rename_i test
    obtain rfl := Except.ok.inj h
    have htest : test.Placed v := hc test (by simp [tests])
    intro t ht
    obtain rfl : t = { test with toggle := true } := by simpa [tests] using ht
    exact htest
  · contradiction

theorem placed_group {group : List Condition → Condition} (hgroup : group = all ∨ group = any)
    {parts : List Condition} (hparts : ∀ c ∈ parts, c.Placed v) : (group parts).Placed v := by
  have htests : ∀ parts : List Condition, (∀ c ∈ parts, c.Placed v) →
      ∀ t ∈ testsOf parts, t.Placed v := by
    intro parts
    induction parts with
    | nil => simp [testsOf]
    | cons c rest ih =>
      intro hparts t ht
      simp only [testsOf, List.mem_append] at ht
      rcases ht with hfirst | hrest
      · exact hparts c List.mem_cons_self t hfirst
      · exact ih (fun c hc => hparts c (List.mem_cons_of_mem _ hc)) t hrest
  rcases hgroup with rfl | rfl
  · simpa [Placed, tests] using htests parts hparts
  · simpa [Placed, tests] using htests parts hparts

/-- Whatever this step of reading leaves is placed. -/
def ReadsPlaced (v : Vocabulary) (part : List Token → Reading) : Prop :=
  ∀ tokens c rest, part tokens = .ok (c, rest) → c.Placed v

theorem placed_readMore {sign : Token} {part : List Token → Reading} (hpart : ReadsPlaced v part)
    (bound : Nat) {tokens rest : List Token} {parts : List Condition}
    (h : readMore sign part bound tokens = .ok (parts, rest)) : ∀ c ∈ parts, c.Placed v := by
  induction bound generalizing tokens parts rest with
  | zero =>
    cases Except.ok.inj h
    simp
  | succ bound ih =>
    unfold readMore at h
    split at h
    · cases Except.ok.inj h
      simp
    · split at h
      · obtain ⟨⟨first, left⟩, hfirst, h⟩ := Except.bind_eq_ok h
        obtain ⟨⟨others, left'⟩, hothers, h⟩ := Except.bind_eq_ok h
        cases Except.ok.inj h
        intro c hc
        rcases List.mem_cons.mp hc with rfl | hrest
        · exact hpart _ _ _ hfirst
        · exact ih hothers c hrest
      · cases Except.ok.inj h
        simp

theorem readsPlaced_readRun {sign : Token} {group : List Condition → Condition}
    (hgroup : group = all ∨ group = any) {part : List Token → Reading}
    (hpart : ReadsPlaced v part) : ReadsPlaced v (readRun sign group part) := by
  intro tokens c rest h
  obtain ⟨⟨first, left⟩, hfirst, h⟩ := Except.bind_eq_ok h
  obtain ⟨⟨others, left'⟩, hothers, h⟩ := Except.bind_eq_ok h
  cases Except.ok.inj h
  split
  · exact hpart _ _ _ hfirst
  · refine placed_group hgroup fun c hc => ?_
    rcases List.mem_cons.mp hc with rfl | hrest
    · exact hpart _ _ _ hfirst
    · exact placed_readMore hpart _ hothers c hrest

theorem readsPlaced_readAny {part : List Token → Reading} (hpart : ReadsPlaced v part) :
    ReadsPlaced v (readAny part) :=
  readsPlaced_readRun (.inr rfl) (readsPlaced_readRun (.inl rfl) hpart)

theorem readsPlaced_readOperand (bound : Nat) : ReadsPlaced v (readOperand v bound) := by
  induction bound with
  | zero =>
    intro tokens c rest h
    contradiction
  | succ bound ih =>
    intro tokens c rest h
    cases tokens with
    | nil => contradiction
    | cons token after =>
      cases token with
      | not =>
        obtain ⟨⟨inner, left⟩, hinner, h⟩ := Except.bind_eq_ok h
        cases Except.ok.inj h
        exact placed_negate inner (ih _ _ _ hinner)
      | toggle =>
        obtain ⟨⟨inner, left⟩, hinner, h⟩ := Except.bind_eq_ok h
        obtain ⟨toggled, htoggled, h⟩ := Except.bind_eq_ok h
        cases Except.ok.inj h
        exact placed_askToggle (ih _ _ _ hinner) htoggled
      | openParen =>
        obtain ⟨⟨inner, left⟩, hinner, h⟩ := Except.bind_eq_ok h
        have hplaced := readsPlaced_readAny ih _ _ _ hinner
        split at h
        · rename_i heq
          cases heq
          cases Except.ok.inj h
          exact hplaced
        · contradiction
        · contradiction
      | name text =>
        obtain ⟨named, hnamed, h⟩ := Except.bind_eq_ok h
        cases Except.ok.inj h
        exact placed_ofName hnamed
      | closeParen | and | or => contradiction

/-- **A condition that was read** asks for controls without users under the first user. -/
theorem placed_of_parse {text : String} {c : Condition} (h : parse v text = .ok c) :
    c.Placed v := by
  unfold parse ofTokens at h
  split at h
  · contradiction
  · obtain ⟨⟨inner, left⟩, hinner, h⟩ := Except.bind_eq_ok h
    have hplaced := readsPlaced_readAny (readsPlaced_readOperand _) _ _ _ hinner
    split at h
    · rename_i heq
      cases heq
      cases Except.ok.inj h
      exact hplaced
    · contradiction

end Condition

/-! ## §4 Mappings -/

/-- What the engine relies on in a mapping. -/
structure Mapping.WellFormed (settings : Settings) (v : Vocabulary) (m : Mapping) : Prop
    extends MappingTable.Checked settings v m where
  isSource : (v.descriptor m.source).isSource = true
  isDestination : (v.descriptor m.target).isDestination = true
  /-- The user of the source exists. -/
  sourceUser (user : Nat) : m.sourceUser = .index user → user < settings.users
  /-- So do the users that the conditions are about. -/
  testUsers : ∀ t ∈ Condition.testsOf m.conditions, ∀ user, t.user = .index user →
    user < settings.users
  /-- A source without users is kept under the first one. -/
  sourceFirst : (v.descriptor m.source).flags.ofUser = false → m.sourceUser = .index 0
  /-- So is a target without users, unless it is a command. -/
  targetFirst : (v.descriptor m.target).flags.ofUser = false →
    (v.descriptor m.target).isCommand = false → m.targetUser = .index 0
  testsFirst : ∀ t ∈ Condition.testsOf m.conditions, t.Placed v
  strength : UsableStrength m.strength
  rate : UsableRate m.rate
  /-- Nothing blinks that has no state of being held. -/
  blinks : m.options.turbo = true → (v.descriptor m.target).flags.relative = false
  /-- Loading a configuration needs its name. -/
  payload : (v.descriptor m.target).cell = .command .loadConfig → m.payload.isSome = true

namespace MappingTable

/-- Options that fit make nothing blink that has no state of being held. -/
theorem fitOptions_blinks {index : Nat} {text : String} {target : Descriptor}
    {options fitted : MappingOptions}
    (h : (fitOptions index text target options).value = some fitted) (hturbo : fitted.turbo = true) :
    target.flags.relative = false := by
  unfold fitOptions at h
  dsimp only at h
  -- Whatever becomes of the option to add, the option to blink is checked after it.
  obtain ⟨kept, hfitted⟩ : ∃ kept : MappingOptions,
      (if kept.turbo && target.flags.relative then
        Verdict.report [.badOption index .turboOnMotion] { kept with turbo := false }
      else pure kept).value = some fitted := by
    split at h <;> exact (Verdict.value_bind h).imp fun _ hkept => hkept.2
  split at hfitted
  · obtain rfl := Option.some.inj hfitted
    contradiction
  · rename_i hfits
    obtain rfl := Option.some.inj hfitted
    simpa [hturbo] using hfits

/-- Loading a configuration without naming it leaves the mapping out. -/
theorem checkCommand_payload {index : Nat} {target : Descriptor} {user : UserRef}
    {payload : Option String} (h : (checkCommand index target user payload).value = some ())
    (hcell : target.cell = .command .loadConfig) : payload.isSome = true := by
  unfold checkCommand at h
  simp only [hcell, Verdict.require] at h
  cases hpayload : payload.isSome with
  | true => rfl
  | false =>
    rw [hpayload] at h
    contradiction

/-- The tests of a condition that was let through are placed, and their users exist. -/
theorem tests_of_readCondition {v : Vocabulary} {users index : Nat} {text : Option String}
    {conditions : List Condition} (h : (readCondition v users index text).value = some conditions) :
    ∀ t ∈ Condition.testsOf conditions,
      t.Placed v ∧ ∀ user, t.user = .index user → user < users := by
  unfold readCondition at h
  split at h
  · obtain rfl := Option.some.inj h
    simp [Condition.testsOf]
  · split at h
    · contradiction
    · rename_i c hparse
      obtain ⟨_, husers, h⟩ := Verdict.value_bind h
      obtain rfl := Option.some.inj h
      intro t ht
      replace ht : t ∈ c.tests := by simpa [Condition.testsOf] using ht
      refine ⟨Condition.placed_of_parse hparse t ht, fun user huser => ?_⟩
      exact requireUsers_mem husers (List.mem_map.mpr ⟨t, ht, huser⟩)

/-- **Every mapping that comes out of compiling** is well formed. -/
theorem wellFormed_of_compile {settings : Settings} {v : Vocabulary} {index : Nat}
    {table : MappingTable} {m : Mapping} (hdefault : UsableRate settings.defaultRate)
    (h : (table.compile settings v index).value = some m) : m.WellFormed settings v := by
  have hchecked := checked_of_compile h
  -- What compiles has passed one check after the other.
  unfold compile at h
  obtain ⟨⟨source, sourceUser⟩, -, h⟩ := Verdict.value_bind h
  obtain ⟨⟨target, targetUser⟩, -, h⟩ := Verdict.value_bind h
  obtain ⟨_, hsource, h⟩ := Verdict.value_bind h
  obtain ⟨_, htarget, h⟩ := Verdict.value_bind h
  obtain ⟨_, husers, h⟩ := Verdict.value_bind h
  obtain ⟨_, -, h⟩ := Verdict.value_bind h
  obtain ⟨read, -, h⟩ := Verdict.value_bind h
  obtain ⟨options, hoptions, h⟩ := Verdict.value_bind h
  obtain ⟨_, hcommand, h⟩ := Verdict.value_bind h
  obtain ⟨conditions, hconditions, h⟩ := Verdict.value_bind h
  obtain ⟨strength, hstrength, h⟩ := Verdict.value_bind h
  obtain ⟨rate, hrate, h⟩ := Verdict.value_bind h
  obtain rfl := Option.some.inj h
  have hrequire : ∀ {condition : Bool} {d : Diagnostic},
      (Verdict.require condition d).value = some () → condition = true := by
    intro condition d hvalue
    cases condition with
    | true => rfl
    | false => contradiction
  exact { hchecked with
    isSource := hrequire hsource
    isDestination := hrequire htarget
    sourceUser := fun user huser => requireUsers_mem husers (List.mem_singleton.mpr huser.symm)
    testUsers := fun t ht => (tests_of_readCondition hconditions t ht).2
    sourceFirst := fun hnone => by simp [hnone]
    targetFirst := fun hnone hplain => by simp [hnone, hplain]
    testsFirst := fun t ht => (tests_of_readCondition hconditions t ht).1
    strength := usableStrength_of_readNumber hstrength
    rate := usableRate_of_readNumber hdefault hrate
    blinks := fitOptions_blinks hoptions
    payload := checkCommand_payload hcommand }

end MappingTable

/-! ## §5 Whole configurations -/

/-- The mappings of a compiled configuration are well formed. -/
theorem Config.IsCompiled.wellFormed {config : Config} (hconfig : config.IsCompiled) {m : Mapping}
    (hm : m ∈ config.mappings) : m.WellFormed config.settings config.vocabulary := by
  obtain ⟨file, rfl⟩ := hconfig
  obtain ⟨table, index, hcompiled⟩ := ConfigFile.mem_mappings_compile hm
  exact MappingTable.wellFormed_of_compile (Settings.usableRate_sanitize _) hcompiled

namespace Engine

/-- The engine that is on its way to a configuration: cleared, and with the mappings before a place
bound. -/
def boundUpTo (e : Engine) (config : Config) (time id : Nat) : Engine :=
  (config.mappings.take id).foldl bind ((e.vacate config).inTurn time (resetPads config))

/-- Each mapping becomes a binding at rest, with the slot it is given after those before it. -/
theorem bindAll_binding (mappings : List Mapping) {e : Engine} (hnone : e.bindings = #[]) {id : Nat}
    {b : Binding} (hb : (mappings.foldl bind e).bindings[id]? = some b) :
    b = { mapping := b.mapping
          slot := (((mappings.take id).foldl bind e).claimSlot b.mapping).2 } := by
  induction mappings using List.reverseRecOn with
  | nil => simp [hnone] at hb
  | append_singleton mappings m ih =>
    have hsize : (mappings.foldl bind e).bindings.size = mappings.length := by
      obtain ⟨bindings, pads, outputs, hengine, -, hmappings, -⟩ := bindAll_frame mappings e
      rw [hengine]
      simpa [hnone] using congrArg List.length hmappings
    rw [List.foldl_append, List.foldl_cons, List.foldl_nil, bindings_bind, Array.getElem?_push,
      hsize] at hb
    split at hb
    · rename_i hid
      obtain rfl := Option.some.inj hb
      rw [hid, List.take_left]
    · have hin : id < mappings.length := by
        rw [← hsize]
        exact (Array.getElem?_eq_some_iff.mp hb).1
      rw [List.take_append_of_le_length (Nat.le_of_lt hin)]
      exact ih hb

end Engine

/-- What the engine relies on in a configuration. -/
structure Config.WellFormed (config : Config) : Prop where
  someUser : 1 ≤ config.settings.users
  users : config.settings.users ≤ userLimit
  pads : config.pads.length = config.settings.users
  mappings : ∀ m ∈ config.mappings, m.WellFormed config.settings config.vocabulary
  /-- Mappings bring neither slots nor a past: the latch of a binding is at rest, and if it has a slot
  it was given one after the mappings before it. -/
  bindings (e : Engine) (time id : Nat) (b : Binding) :
    (e.install config time).bindings[id]? = some b →
      b = { mapping := b.mapping
            slot := ((e.boundUpTo config time id).claimSlot b.mapping).2
            latch := {} }

theorem length_padsFor (tables : List PadTable) (users : Nat) :
    (padsFor tables users).length = users := by
  unfold padsFor
  simp only [List.length_append, List.length_map, List.length_take, List.length_replicate]
  omega

/-- **Compiling any file** gives a configuration that the engine can rely on. -/
theorem ConfigFile.wellFormed_compile (file : ConfigFile) : file.compile.WellFormed where
  someUser := (Config.IsCompiled.users ⟨file, rfl⟩).1
  users := (Config.IsCompiled.users ⟨file, rfl⟩).2
  pads := length_padsFor _ _
  mappings _ hm := Config.IsCompiled.wellFormed ⟨file, rfl⟩ hm
  bindings e time id b hb := by
    refine Engine.bindAll_binding file.compile.mappings ?_ hb
    obtain ⟨pads, queue, remainder, snapshots, events, hturn, -⟩ :=
      Engine.reset_frame e file.compile time
    rw [hturn]
    rfl

example : (ConfigFile.compile {
    general := { defaultRate := some (-1) }
    mappings := [{ source := "A", target := "PadA" }] }).mappings.map (fun m => m.rate == 1) =
      [true] := by decide +kernel

end VirtualPad
