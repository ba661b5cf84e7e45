import VirtualPad.Config.Compile

/-!
# What becomes of a table

Each table of a file is compiled on its own, and its number matters for the diagnostics only.  A
check on a table is candid: what comes out does not depend on the number, all that it reports carries
the number, and it leaves nothing out without a report.  Candid checks in a row are candid.

* `MappingTable.candid_compile`: compiling a table is a candid check.
* `MappingTable.renders_of_compile`: where nothing is reported, the mapping says what the table says.
* `ConfigFile.accounted_compile`: what becomes of a table is up to the table, and everything else is
  reported.
-/

namespace VirtualPad

/-! ## §1 Candid checks -/

namespace Verdict

variable {α β : Type}

/-- A check that left its thing out is the last one. -/
theorem bind_of_none {first : Verdict α} (h : first.value = none) (next : α → Verdict β) :
    first >>= next = ⟨none, first.diagnostics⟩ := by
  change andThen first next = _
  simp [andThen, h]

theorem bind_of_some {first : Verdict α} {a : α} (h : first.value = some a) (next : α → Verdict β) :
    first >>= next = ⟨(next a).value, first.diagnostics ++ (next a).diagnostics⟩ := by
  change andThen first next = _
  simp [andThen, h]

theorem pure_inj {a b : α} (h : (pure a : Verdict α) = pure b) : a = b :=
  Option.some.inj (congrArg value h)

theorem report_ne_pure {d : Diagnostic} {ds : List Diagnostic} {a b : α} :
    report (d :: ds) a ≠ pure b := by
  intro h
  have hreports := congrArg diagnostics h
  contradiction

theorem refuse_ne_pure {d : Diagnostic} {a : α} : refuse d ≠ pure a := by
  intro h
  have hvalue := congrArg value h
  contradiction

/-- Two checks report nothing only if neither of them does. -/
theorem bind_eq_pure {first : Verdict α} {next : α → Verdict β} {b : β}
    (h : first >>= next = pure b) : ∃ a, first = pure a ∧ next a = pure b := by
  cases hfirst : first.value with
  | none =>
    rw [bind_of_none hfirst] at h
    have hvalue := congrArg value h
    contradiction
  | some a =>
    rw [bind_of_some hfirst] at h
    obtain ⟨hvalue, hreports⟩ := Verdict.mk.inj h
    obtain ⟨hquiet, hlater⟩ := List.append_eq_nil_iff.mp hreports
    exact ⟨a, congr (congrArg mk hfirst) hquiet, congr (congrArg mk hvalue) hlater⟩

/-- A check on a table with a number.  The number only goes into the diagnostics, all of them carry
it, and nothing is left out without one. -/
structure Candid (check : Nat → Verdict α) : Prop where
  steady (i j : Nat) : (check i).value = (check j).value
  signed (i : Nat) : ∀ d ∈ (check i).diagnostics, d.index? = some i
  told (i : Nat) : (check i).value = none → (check i).diagnostics ≠ []

namespace Candid

theorem pure (a : α) : Candid fun _ => (Pure.pure a : Verdict α) where
  steady _ _ := rfl
  signed := by simp
  told := by simp

theorem report {reports : Nat → List Diagnostic}
    (h : ∀ index, ∀ d ∈ reports index, d.index? = some index) (a : α) :
    Candid fun index => Verdict.report (reports index) a where
  steady _ _ := rfl
  signed := h
  told := nofun

theorem refuse {reason : Nat → Diagnostic} (h : ∀ index, (reason index).index? = some index) :
    Candid fun index => (Verdict.refuse (reason index) : Verdict α) where
  steady _ _ := rfl
  signed index d hd := by
    obtain rfl := List.mem_singleton.mp hd
    exact h index
  told _ _ := List.cons_ne_nil _ _

theorem ite {condition : Prop} [Decidable condition] {check other : Nat → Verdict α}
    (h : Candid check) (hother : Candid other) :
    Candid fun index => if condition then check index else other index := by
  by_cases hcondition : condition
  · simpa only [if_pos hcondition] using h
  · simpa only [if_neg hcondition] using hother

theorem require (condition : Bool) {reason : Nat → Diagnostic}
    (h : ∀ index, (reason index).index? = some index) :
    Candid fun index => Verdict.require condition (reason index) :=
  (pure ()).ite (refuse h)

/-- **Candid checks in a row** are candid. -/
theorem bind {check : Nat → Verdict α} {next : Nat → α → Verdict β} (h : Candid check)
    (hnext : ∀ a, Candid fun index => next index a) :
    Candid fun index => check index >>= next index := by
  -- The first check goes the same way for every table, so either all go on or none does.
  cases hfirst : (check 0).value with
  | none =>
    have hnone : ∀ index, (check index).value = none := fun index => (h.steady index 0).trans hfirst
    simp only [bind_of_none (hnone _)]
    exact ⟨fun _ _ => rfl, h.signed, fun index _ => h.told index (hnone index)⟩
  | some a =>
    have hsome : ∀ index, (check index).value = some a :=
      fun index => (h.steady index 0).trans hfirst
    simp only [bind_of_some (hsome _)]
    constructor
    · exact (hnext a).steady
    · intro index d hd
      rcases List.mem_append.mp hd with hd | hd
      · exact h.signed index d hd
      · exact (hnext a).signed index d hd
    · intro index hnone hquiet
      exact (hnext a).told index hnone (List.append_eq_nil_iff.mp hquiet).2

end Candid

end Verdict

/-! ## §2 The checks on a table -/

namespace MappingTable

open Verdict (Candid)

section

variable (v : Vocabulary)

theorem candid_endpoint (text : String) : Candid fun index => endpoint v index text := by
  unfold endpoint
  cases v.readRef text with
  | ok found => exact .pure found
  | error error =>
    cases error with
    | unknownControl name => exact .refuse fun _ => rfl
    | _ => exact .refuse fun _ => rfl

theorem readRef_of_endpoint {index : Nat} {text : String} {found : Control × Option UserRef}
    (h : endpoint v index text = pure found) : v.readRef text = .ok found := by
  unfold endpoint at h
  split at h
  · rename_i hread
    rw [hread, Verdict.pure_inj h]
  · exact absurd h Verdict.refuse_ne_pure
  · exact absurd h Verdict.refuse_ne_pure

/-- Which users do not exist is the same for every table. -/
theorem candid_requireUsers (users : Nat) (refs : List UserRef) :
    Candid fun index => requireUsers users index refs where
  steady i j := by
    have hmissing : ∀ index ref, userDiagnostics users index ref = [] ↔
        ∀ user, ref = .index user → user < users := by
      intro index ref
      cases ref <;> simp [userDiagnostics]
    have hempty : (refs.flatMap (userDiagnostics users i)).isEmpty =
        (refs.flatMap (userDiagnostics users j)).isEmpty := by
      rw [Bool.eq_iff_iff]
      simp only [List.isEmpty_iff, List.flatMap_eq_nil_iff, hmissing]
    simp only [requireUsers, hempty]
  signed index d hd := by
    obtain ⟨ref, -, hd⟩ := List.mem_flatMap.mp hd
    unfold userDiagnostics at hd
    split at hd
    · split at hd
      · obtain rfl := List.mem_singleton.mp hd
        rfl
      · contradiction
    · contradiction
  told index hnone hquiet := by
    replace hquiet : refs.flatMap (userDiagnostics users index) = [] := hquiet
    simp [requireUsers, hquiet] at hnone

theorem candid_readOptions (names : List String) : Candid fun index => readOptions index names := by
  apply Candid.report
  intro index d hd
  obtain ⟨name, -, rfl⟩ := List.mem_map.mp hd
  rfl

theorem has_insert (o : MappingOptions) (added option : MappingOption) :
    (o.insert added).has option = (o.has option || added == option) := by
  cases added <;> cases option <;> simp [MappingOptions.insert, MappingOptions.has]

/-- The options are those that are named. -/
theorem has_of_readOptions {index : Nat} {names : List String} {options : MappingOptions}
    (h : readOptions index names = pure options) :
    (∀ name ∈ names, (MappingOption.named? name).isSome = true) ∧
      ∀ option, options.has option = true ↔
        ∃ name ∈ names, MappingOption.named? name = some option := by
  obtain ⟨hvalue, hreports⟩ := Verdict.mk.inj h
  constructor
  · simpa [Option.isSome_iff_ne_none] using hreports
  · obtain rfl := Option.some.inj hvalue
    have hfold : ∀ (known : List MappingOption) (o : MappingOptions) (option : MappingOption),
        (known.foldl MappingOptions.insert o).has option = true ↔
          o.has option = true ∨ option ∈ known := by
      intro known
      induction known with
      | nil => simp
      | cons added known ih =>
        intro o option
        rw [List.foldl_cons, ih, has_insert, Bool.or_eq_true, beq_iff_eq, List.mem_cons, or_assoc,
          eq_comm (a := added)]
    intro option
    have hnone : MappingOptions.has {} option = false := by cases option <;> rfl
    simp [hfold, hnone]

theorem candid_fitOptions (text : String) (target : Descriptor) (options : MappingOptions) :
    Candid fun index => fitOptions index text target options := by
  have hturbo : ∀ options : MappingOptions, Candid fun index =>
      if options.turbo && target.flags.relative then
        Verdict.report [.badOption index .turboOnMotion] { options with turbo := false }
      else pure options :=
    fun options => .ite (.report (by simp [Diagnostic.index?]) _) (.pure options)
  exact .ite (.bind (.report (by simp [Diagnostic.index?]) _) hturbo) (.bind (.pure options) hturbo)

/-- An option is never taken off in silence. -/
theorem eq_of_fitOptions {index : Nat} {text : String} {target : Descriptor}
    {options fitted : MappingOptions} (h : fitOptions index text target options = pure fitted) :
    fitted = options := by
  unfold fitOptions at h
  dsimp only at h
  split at h
  · obtain ⟨kept, hreport, -⟩ := Verdict.bind_eq_pure h
    exact absurd hreport Verdict.report_ne_pure
  · obtain ⟨kept, hkept, h⟩ := Verdict.bind_eq_pure h
    obtain rfl := Verdict.pure_inj hkept
    split at h
    · exact absurd h Verdict.report_ne_pure
    · exact (Verdict.pure_inj h).symm

theorem candid_checkCommand (target : Descriptor) (user : UserRef) (payload : Option String) :
    Candid fun index => checkCommand index target user payload := by
  have hunused : Candid fun index => (if payload.isSome then
      Verdict.report [.badOption index .unusedPayload] () else pure () : Verdict Unit) :=
    .ite (.report (by simp [Diagnostic.index?]) _) (.pure ())
  unfold checkCommand
  dsimp only
  split
  · exact .require _ fun _ => rfl
  · exact .bind (.require _ fun _ => rfl) fun _ => hunused
  · exact .bind (.require _ fun _ => rfl) fun _ => hunused
  · exact hunused

theorem candid_readCondition (users : Nat) (text : Option String) :
    Candid fun index => readCondition v users index text := by
  cases text with
  | none => exact .pure []
  | some text =>
    unfold readCondition
    dsimp only
    cases Condition.parse v text with
    | error error => exact .refuse fun _ => rfl
    | ok c => exact .bind (candid_requireUsers users _) fun _ => .pure [c]

/-- A condition is taken as it is read. -/
theorem parse_of_readCondition {users index : Nat} {text : Option String}
    {conditions : List Condition} (h : readCondition v users index text = pure conditions) :
    (text = none ∧ conditions = []) ∨
      ∃ written c, text = some written ∧ Condition.parse v written = .ok c ∧ conditions = [c] := by
  cases text with
  | none => exact .inl ⟨rfl, (Verdict.pure_inj h).symm⟩
  | some text =>
    unfold readCondition at h
    dsimp only at h
    split at h
    · exact absurd h Verdict.refuse_ne_pure
    · rename_i c hparse
      obtain ⟨_, -, h⟩ := Verdict.bind_eq_pure h
      exact .inr ⟨text, c, rfl, hparse, (Verdict.pure_inj h).symm⟩

theorem candid_readNumber (field : NumberField) (value : Option Float) (fallback limit : Float)
    (allowsZero : Bool) :
    Candid fun index => readNumber index field value fallback limit allowsZero := by
  cases value with
  | none => exact .pure fallback
  | some x => exact .ite (.pure x) (.report (by simp [Diagnostic.index?]) _)

theorem eq_of_readNumber {index : Nat} {field : NumberField} {value : Option Float}
    {fallback limit x : Float} {allowsZero : Bool}
    (h : readNumber index field value fallback limit allowsZero = pure x) :
    x = value.getD fallback := by
  cases value with
  | none => exact (Verdict.pure_inj h).symm
  | some y =>
    unfold readNumber at h
    dsimp only at h
    split at h
    · exact (Verdict.pure_inj h).symm
    · exact absurd h Verdict.report_ne_pure

/-- **Compiling a table** is a candid check. -/
theorem candid_compile (settings : Settings) (table : MappingTable) :
    Candid fun index => table.compile settings v index := by
  unfold compile
  -- One check after another, in the order in which they are made.
  refine .bind (candid_endpoint v _) fun ⟨source, sourceUser⟩ => ?_
  refine .bind (candid_endpoint v _) fun ⟨target, targetUser⟩ => ?_
  refine .bind (.require _ fun _ => rfl) fun _ => ?_
  refine .bind (.require _ fun _ => rfl) fun _ => ?_
  refine .bind (candid_requireUsers _ _) fun _ => ?_
  refine .bind (candid_requireUsers _ _) fun _ => ?_
  refine .bind (candid_readOptions _) fun read => ?_
  refine .bind (candid_fitOptions _ _ _) fun options => ?_
  refine .bind (candid_checkCommand _ _ _) fun _ => ?_
  refine .bind (candid_readCondition v _ _) fun conditions => ?_
  refine .bind (candid_readNumber _ _ _ _ _) fun strength => ?_
  exact .bind (candid_readNumber _ _ _ _ _) fun rate => .pure _

end

end MappingTable

/-! ## §3 What a mapping says -/

/-- The mapping says what the table says: the names are resolved, and what the table leaves open is
the default.  Controls without users have the first one, except that commands can have any. -/
structure Mapping.Renders (m : Mapping) (settings : Settings) (v : Vocabulary)
    (table : MappingTable) : Prop where
  source : ∃ user, v.readRef table.source = .ok (m.source, user) ∧
    m.sourceUser =
      if (v.descriptor m.source).flags.ofUser then user.getD (.index 0) else .index 0
  target : ∃ user, v.readRef table.target = .ok (m.target, user) ∧
    m.targetUser =
      if (v.descriptor m.target).flags.ofUser || (v.descriptor m.target).isCommand then
        user.getD .active
      else .index 0
  known : ∀ name ∈ table.options, (MappingOption.named? name).isSome = true
  options : ∀ option, m.options.has option = true ↔
    ∃ name ∈ table.options, MappingOption.named? name = some option
  strength : m.strength = table.strength.getD 1
  rate : m.rate = table.rate.getD settings.defaultRate
  conditions : (table.condition = none ∧ m.conditions = []) ∨
    ∃ written c, table.condition = some written ∧ Condition.parse v written = .ok c ∧
      m.conditions = [c]
  payload : m.payload = table.payload

/-- **Where nothing is reported**, the mapping says what the table says. -/
theorem MappingTable.renders_of_compile {settings : Settings} {v : Vocabulary} {index : Nat}
    {table : MappingTable} {m : Mapping} (h : table.compile settings v index = pure m) :
    m.Renders settings v table := by
  unfold compile at h
  obtain ⟨⟨source, sourceUser⟩, hsource, h⟩ := Verdict.bind_eq_pure h
  obtain ⟨⟨target, targetUser⟩, htarget, h⟩ := Verdict.bind_eq_pure h
  obtain ⟨-, -, h⟩ := Verdict.bind_eq_pure h
  obtain ⟨-, -, h⟩ := Verdict.bind_eq_pure h
  obtain ⟨-, -, h⟩ := Verdict.bind_eq_pure h
  obtain ⟨-, -, h⟩ := Verdict.bind_eq_pure h
  obtain ⟨read, hread, h⟩ := Verdict.bind_eq_pure h
  obtain ⟨options, hoptions, h⟩ := Verdict.bind_eq_pure h
  obtain ⟨-, -, h⟩ := Verdict.bind_eq_pure h
  obtain ⟨conditions, hconditions, h⟩ := Verdict.bind_eq_pure h
  obtain ⟨strength, hstrength, h⟩ := Verdict.bind_eq_pure h
  obtain ⟨rate, hrate, h⟩ := Verdict.bind_eq_pure h
  obtain rfl := Verdict.pure_inj h
  -- Taking an option off would have been reported.
  obtain rfl := eq_of_fitOptions hoptions
  obtain ⟨hknown, hnamed⟩ := has_of_readOptions hread
  exact {
    source := ⟨sourceUser, readRef_of_endpoint v hsource, rfl⟩
    target := ⟨targetUser, readRef_of_endpoint v htarget, rfl⟩
    known := hknown
    options := hnamed
    strength := eq_of_readNumber hstrength
    rate := eq_of_readNumber hrate
    conditions := parse_of_readCondition v hconditions
    payload := rfl }

/-! ## §4 The diagnostics of a file -/

namespace Diagnostic

/-- Where a diagnostic comes in the list of all: settings, pads and custom controls come first, and
mappings follow in their order. -/
def rank : Diagnostic → Nat
  | .settings _ => 0
  | .extraPads _ _ => 1
  | .custom _ => 2
  | .unknownControl index _ | .badCondition index _ | .userOutOfRange index _ _
  | .badOption index _ | .badMapping index _ | .invalidValue index _ _ _ => 3 + index

theorem rank_of_index {d : Diagnostic} {index : Nat} (h : d.index? = some index) :
    d.rank = 3 + index := by
  cases d
  all_goals first
    | exact congrArg (3 + ·) (Option.some.inj h)
    | contradiction

end Diagnostic

theorem pairwise_rank {ds : List Diagnostic} {rank : Nat} (h : ∀ d ∈ ds, d.rank = rank) :
    ds.Pairwise fun first second => first.rank ≤ second.rank :=
  List.pairwise_of_forall_mem_list fun a ha b hb => Nat.le_of_eq ((h a ha).trans (h b hb).symm)

section

variable {reports : Nat → MappingTable → List Diagnostic}

/-- What is reported of each table, where `offset` tables come before the first. -/
def reportsFrom (reports : Nat → MappingTable → List Diagnostic) (offset : Nat)
    (tables : List MappingTable) : List Diagnostic :=
  (tables.zipIdx offset).flatMap fun (table, place) => reports (place + 1) table

theorem reportsFrom_cons (offset : Nat) (table : MappingTable) (rest : List MappingTable) :
    reportsFrom reports offset (table :: rest) =
      reports (offset + 1) table ++ reportsFrom reports (offset + 1) rest := rfl

variable (hsigned : ∀ index table, ∀ d ∈ reports index table, d.index? = some index)

include hsigned

/-- Nothing is reported of tables that do not exist. -/
theorem index_of_mem_reportsFrom {offset : Nat} {tables : List MappingTable} {d : Diagnostic}
    (hd : d ∈ reportsFrom reports offset tables) :
    ∃ place, d.index? = some (place + 1) ∧ offset ≤ place ∧ place < offset + tables.length := by
  obtain ⟨⟨table, place⟩, htable, hd⟩ := List.mem_flatMap.mp hd
  obtain ⟨hle, hlt, -⟩ := List.mem_zipIdx htable
  exact ⟨place, hsigned _ _ d hd, hle, hlt⟩

theorem pairwise_reportsFrom (offset : Nat) (tables : List MappingTable) :
    (reportsFrom reports offset tables).Pairwise fun first second => first.rank ≤ second.rank := by
  induction tables generalizing offset with
  | nil => exact .nil
  | cons table rest ih =>
    have hrank : ∀ d ∈ reports (offset + 1) table, d.rank = 3 + (offset + 1) :=
      fun d hd => Diagnostic.rank_of_index (hsigned _ _ d hd)
    rw [reportsFrom_cons, List.pairwise_append]
    refine ⟨pairwise_rank hrank, ih (offset + 1), fun a ha b hb => ?_⟩
    obtain ⟨place, hplace, hle, -⟩ := index_of_mem_reportsFrom hsigned hb
    rw [hrank a ha, Diagnostic.rank_of_index hplace]
    omega

/-- The diagnostics with the number of a table are what is reported of it. -/
theorem filter_reportsFrom (offset : Nat) {place : Nat} {tables : List MappingTable}
    {table : MappingTable} (htable : tables[place]? = some table) :
    (reportsFrom reports offset tables).filter (·.index? == some (offset + place + 1)) =
      reports (offset + place + 1) table := by
  induction tables generalizing offset place with
  | nil => simp at htable
  | cons first rest ih =>
    rw [reportsFrom_cons, List.filter_append]
    cases place with
    | zero =>
      obtain rfl : first = table := by simpa using htable
      -- The tables that follow have higher numbers.
      have hrest : (reportsFrom reports (offset + 1) rest).filter
          (·.index? == some (offset + 1)) = [] := by
        apply List.filter_eq_nil_iff.mpr
        intro d hd
        obtain ⟨other, hother, hle, -⟩ := index_of_mem_reportsFrom hsigned hd
        simp only [hother, beq_iff_eq, Option.some.injEq]
        omega
      rw [Nat.add_zero, hrest, List.append_nil]
      exact List.filter_eq_self.mpr fun d hd => by simp [hsigned _ _ d hd]
    | succ place =>
      -- The first table has a lower number, so all that counts comes from the others.
      have hfirst : (reports (offset + 1) first).filter
          (·.index? == some (offset + (place + 1) + 1)) = [] := by
        apply List.filter_eq_nil_iff.mpr
        intro d hd
        simp only [hsigned _ _ d hd, beq_iff_eq, Option.some.injEq]
        omega
      have hshift : offset + (place + 1) = offset + 1 + place := by omega
      rw [hfirst, List.nil_append, hshift]
      exact ih (offset + 1) (by simpa using htable)

end

/-! ## §5 What becomes of each table -/

namespace ConfigFile

section

variable (file : ConfigFile)

/-- What becomes of a table of the file. -/
def fate (table : MappingTable) : Option Mapping :=
  (table.compile file.compile.settings file.compile.vocabulary 0).value

/-- What is reported of a table of the file. -/
def reports (index : Nat) (table : MappingTable) : List Diagnostic :=
  (table.compile file.compile.settings file.compile.vocabulary index).diagnostics

/-- What is reported before the mappings. -/
def preamble : List Diagnostic :=
  file.general.settings.sanitize.2.map .settings ++
    (if file.compile.settings.users < file.pads.length then
      [.extraPads file.pads.length file.compile.settings.users]
    else []) ++
    file.custom.register.2.map .custom

theorem candid_table (table : MappingTable) : Verdict.Candid fun index =>
    table.compile file.compile.settings file.compile.vocabulary index :=
  MappingTable.candid_compile _ _ table

theorem index_of_mem_reports (index : Nat) (table : MappingTable) :
    ∀ d ∈ file.reports index table, d.index? = some index :=
  (file.candid_table table).signed index

theorem mappings_compile : file.compile.mappings = file.mappings.filterMap file.fate := by
  have hfate : Verdict.value ∘ (fun entry : MappingTable × Nat => entry.1.compile
      file.compile.settings file.compile.vocabulary (entry.2 + 1)) = file.fate ∘ Prod.fst :=
    funext fun entry => (file.candid_table entry.1).steady (entry.2 + 1) 0
  calc file.compile.mappings
    _ = (file.mappings.zipIdx.map fun entry => entry.1.compile file.compile.settings
          file.compile.vocabulary (entry.2 + 1)).filterMap Verdict.value := rfl
    _ = (file.mappings.zipIdx.map Prod.fst).filterMap file.fate := by
      rw [List.filterMap_map, List.filterMap_map, hfate]
    _ = file.mappings.filterMap file.fate := by rw [List.zipIdx_map_fst]

theorem diagnostics_compile : file.compile.diagnostics =
    file.preamble ++ reportsFrom file.reports 0 file.mappings := by
  change _ ++ List.flatMap _ (List.map _ _) = _
  rw [List.flatMap_map]
  rfl

variable {file}

/-- What comes before the mappings belongs to none of them. -/
theorem index_of_mem_preamble {d : Diagnostic} (hd : d ∈ file.preamble) :
    d.index? = none ∧ d.rank ≤ 2 := by
  simp only [preamble, List.mem_append, List.mem_map] at hd
  rcases hd with (⟨error, -, rfl⟩ | hpads) | ⟨error, -, rfl⟩
  · exact ⟨rfl, Nat.zero_le 2⟩
  · split at hpads
    · obtain rfl := List.mem_singleton.mp hpads
      exact ⟨rfl, Nat.le_succ 1⟩
    · contradiction
  · exact ⟨rfl, Nat.le_refl 2⟩

theorem pairwise_preamble :
    file.preamble.Pairwise fun first second => first.rank ≤ second.rank := by
  have hsettings : ∀ d ∈ file.general.settings.sanitize.2.map Diagnostic.settings, d.rank = 0 := by
    simp [Diagnostic.rank]
  have hpads : ∀ d ∈ (if file.compile.settings.users < file.pads.length then
      [Diagnostic.extraPads file.pads.length file.compile.settings.users] else []), d.rank = 1 := by
    intro d hd
    split at hd
    · obtain rfl := List.mem_singleton.mp hd
      rfl
    · contradiction
  have hcustom : ∀ d ∈ file.custom.register.2.map Diagnostic.custom, d.rank = 2 := by
    simp [Diagnostic.rank]
  unfold preamble
  rw [List.pairwise_append, List.pairwise_append]
  refine ⟨⟨pairwise_rank hsettings, pairwise_rank hpads, fun a ha b _ => ?_⟩,
    pairwise_rank hcustom, fun a ha b hb => ?_⟩
  · rw [hsettings a ha]
    exact Nat.zero_le _
  · rw [hcustom b hb]
    exact (index_of_mem_preamble (List.mem_append_left _ ha)).2

/-- The diagnostics with the number of a table are what is reported of it. -/
theorem filter_diagnostics {place : Nat} {table : MappingTable}
    (htable : file.mappings[place]? = some table) :
    file.compile.diagnostics.filter (·.index? == some (place + 1)) =
      file.reports (place + 1) table := by
  have hpreamble : file.preamble.filter (·.index? == some (place + 1)) = [] :=
    List.filter_eq_nil_iff.mpr fun d hd => by simp [(index_of_mem_preamble hd).1]
  have hnumbered := filter_reportsFrom file.index_of_mem_reports 0 htable
  rw [Nat.zero_add] at hnumbered
  rw [diagnostics_compile, List.filter_append, hpreamble, hnumbered, List.nil_append]

end

/-- What becomes of the tables of a file: `fate` answers the mapping of a table, unless it is left
out, and `reports` what is reported of a table with a number. -/
structure Accounted (file : ConfigFile) (fate : MappingTable → Option Mapping)
    (reports : Nat → MappingTable → List Diagnostic) : Prop where
  mappings : file.compile.mappings = file.mappings.filterMap fate
  /-- The settings come first, then the pads, the custom controls and the mappings in their order. -/
  ordered : file.compile.diagnostics.Pairwise fun first second => first.rank ≤ second.rank
  numbered : ∀ d ∈ file.compile.diagnostics, ∀ index, d.index? = some index →
    ∃ place, index = place + 1 ∧ place < file.mappings.length
  reported (place : Nat) (table : MappingTable) : file.mappings[place]? = some table →
    file.compile.diagnostics.filter (·.index? == some (place + 1)) = reports (place + 1) table
  /-- No table is left out in silence. -/
  dropped (place : Nat) (table : MappingTable) : file.mappings[place]? = some table →
    fate table = none → ∃ d ∈ file.compile.diagnostics, d.index? = some (place + 1)
  /-- None is altered in silence either. -/
  rendered (place : Nat) (table : MappingTable) : file.mappings[place]? = some table →
    (∀ d ∈ file.compile.diagnostics, d.index? ≠ some (place + 1)) →
      ∃ m, fate table = some m ∧ m.Renders file.compile.settings file.compile.vocabulary table

theorem accounted (file : ConfigFile) : file.Accounted file.fate file.reports where
  mappings := file.mappings_compile
  ordered := by
    rw [diagnostics_compile, List.pairwise_append]
    refine ⟨pairwise_preamble, pairwise_reportsFrom file.index_of_mem_reports 0 _,
      fun a ha b hb => ?_⟩
    obtain ⟨place, hplace, -⟩ := index_of_mem_reportsFrom file.index_of_mem_reports hb
    rw [Diagnostic.rank_of_index hplace]
    exact Nat.le_trans (index_of_mem_preamble ha).2 (by omega)
  numbered d hd index hindex := by
    rw [diagnostics_compile] at hd
    rcases List.mem_append.mp hd with hd | hd
    · rw [(index_of_mem_preamble hd).1] at hindex
      contradiction
    · obtain ⟨place, hplace, -, hlt⟩ := index_of_mem_reportsFrom file.index_of_mem_reports hd
      rw [hplace] at hindex
      exact ⟨place, (Option.some.inj hindex).symm, by simpa using hlt⟩
  reported place table htable := filter_diagnostics htable
  dropped place table htable hnone := by
    have htold : file.reports (place + 1) table ≠ [] :=
      (file.candid_table table).told (place + 1)
        (((file.candid_table table).steady (place + 1) 0).trans hnone)
    obtain ⟨d, hd⟩ := List.exists_mem_of_ne_nil _ htold
    rw [← filter_diagnostics htable, List.mem_filter, beq_iff_eq] at hd
    exact ⟨d, hd⟩
  rendered place table htable hsilent := by
    have hquiet : file.reports (place + 1) table = [] := by
      rw [← filter_diagnostics htable]
      exact List.filter_eq_nil_iff.mpr fun d hd => by simpa using hsilent d hd
    have hsteady := (file.candid_table table).steady (place + 1) 0
    cases hvalue : (table.compile file.compile.settings file.compile.vocabulary
        (place + 1)).value with
    | none => exact absurd hquiet ((file.candid_table table).told (place + 1) hvalue)
    | some m =>
      exact ⟨m, hsteady.symm.trans hvalue,
        MappingTable.renders_of_compile (congr (congrArg Verdict.mk hvalue) hquiet)⟩

/-- **Nothing is dropped or altered in silence.**  What becomes of a table, and what is reported of
it, depends on the settings and the custom controls of the file, but on no other table. -/
theorem accounted_compile (general : GeneralTable) (custom : CustomTable) :
    ∃ fate reports, ∀ pads mappings,
      Accounted { general, pads, custom, mappings } fate reports :=
  ⟨fate { general, custom }, reports { general, custom },
    fun pads mappings => accounted { general, pads, custom, mappings }⟩

/-- A table with an unknown source is reported and left out; the next one is there. -/
example : let config := compile { mappings := [{ source := "Nope", target := "PadA" },
      { source := "A", target := "PadA" }] }
    config.mappings.map Mapping.source = [⟨65⟩] ∧
      config.diagnostics.map Diagnostic.index? = [some 1] := by
  decide +kernel

end ConfigFile

end VirtualPad
