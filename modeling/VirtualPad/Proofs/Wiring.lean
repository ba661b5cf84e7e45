import Mathlib.Data.List.Induction
import VirtualPad.Proofs.Controls
import VirtualPad.Proofs.Frames

/-!
# Who listens to a control

The board for a list of mappings is built by adding to the lines of controls.  What a control drives,
who watches it and which pairs it is a part of are sets that only grow while the board is built, and
each step says by how much.  So do the controls that have a line.  In the end a mapping is on the
chain of its source and of no other control, and it watches every control that its conditions read.
-/

namespace VirtualPad

/-- The mapping listens to the control, as its source or in its conditions. -/
def Mapping.ListensTo (m : Mapping) (c : Control) : Prop :=
  m.source = c ∨ ∃ test ∈ Condition.testsOf m.conditions, test.control = c

namespace Switchboard

/-- The item is on that list of the control's line. -/
def Lists {α : Type} (part : Line → List α) (b : Switchboard) (c : Control) (item : α) : Prop :=
  ∃ line, b.line? c = some line ∧ item ∈ part line

/-- What is on that list.  Without a line there is nothing. -/
def entries {α : Type} (part : Line → List α) (b : Switchboard) (c : Control) : List α :=
  (b.line? c).elim [] part

theorem mem_entries {α : Type} {part : Line → List α} {b : Switchboard} {c : Control} {item : α} :
    item ∈ b.entries part c ↔ b.Lists part c item := by
  unfold entries Lists
  cases b.line? c <;> simp

/-- Boards with the same listeners have the same entries. -/
theorem entries_congr {α : Type} {part : Line → List α} {b b' : Switchboard} (field : Wiring → List α)
    (hfield : ∀ l, part l = field l.wiring) {c : Control}
    (hwiring : (b'.line? c).map Line.wiring = (b.line? c).map Line.wiring) :
    b'.entries part c = b.entries part c := by
  have hentries : ∀ b : Switchboard, b.entries part c =
      ((b.line? c).map Line.wiring).elim [] field := by
    intro b
    unfold entries
    cases b.line? c with
    | none => rfl
    | some line => exact hfield line
  rw [hentries, hentries, hwiring]

/-- All lines of the board are up, and no press was ever counted. -/
def Quiet (b : Switchboard) : Prop :=
  ∀ c line, b.line? c = some line → line.down = Mask.none ∧ line.toggled = Mask.none

theorem mem_withItem {α : Type} [BEq α] [LawfulBEq α] {items : List α} {item x : α} :
    x ∈ withItem items item ↔ x ∈ items ∨ x = item := by
  unfold withItem
  split
  · rename_i hin
    have hmem : item ∈ items := by simpa using hin
    constructor
    · exact .inl
    · rintro (h | rfl)
      · exact h
      · exact hmem
  · simp

/-! ## §1 One line -/

theorem line?_connect (b : Switchboard) (c other : Control) :
    (b.connect c).line? other =
      if c = other then some ((b.line? other).getD {}) else b.line? other := by
  unfold line? connect
  rw [Std.TreeMap.getElem?_insertIfNew]
  by_cases hsame : c = other
  · subst hsame
    rw [if_pos rfl]
    by_cases hmem : c ∈ b.lines
    · rw [if_neg (fun h => h.2 hmem), Std.TreeMap.getElem?_eq_some_getElem hmem]
      rfl
    · rw [if_pos ⟨Std.ReflCmp.compare_self, hmem⟩, Std.TreeMap.getElem?_eq_none hmem]
      rfl
  · have happart : compare c other ≠ .eq := fun h => hsame (Std.LawfulEqOrd.eq_of_compare h)
    rw [if_neg (fun h => happart h.1), if_neg hsame]

variable {α : Type} {part : Line → List α}

/-- Adding to the line of a control adds just that to the lists of the board. -/
theorem lists_grow (hempty : part {} = []) (item : α) (change : Line → Line) (extra : Prop)
    (hchange : ∀ l, item ∈ part (change l) ↔ item ∈ part l ∨ extra) (b : Switchboard)
    (c other : Control) :
    ((b.connect c).adjust c change).Lists part other item ↔
      b.Lists part other item ∨ c = other ∧ extra := by
  unfold Lists
  rw [line?_adjust, line?_connect]
  by_cases hsame : c = other
  · cases h : b.line? other <;> simp [hsame, hempty, hchange]
  · simp [hsame]

theorem lists_connect (hempty : part {} = []) (b : Switchboard) (c other : Control) (item : α) :
    (b.connect c).Lists part other item ↔ b.Lists part other item := by
  unfold Lists
  rw [line?_connect]
  by_cases hsame : c = other
  · cases h : b.line? other <;> simp [hsame, hempty]
  · simp [hsame]

/-- Connecting a control gives it a line, and no other control gets or loses one. -/
theorem isSome_connect (b : Switchboard) (c other : Control) :
    ((b.connect c).line? other).isSome ↔ (b.line? other).isSome ∨ c = other := by
  rw [line?_connect]
  split
  · rename_i hsame
    simp [hsame]
  · rename_i happart
    simp [happart]

theorem isSome_adjust {b : Switchboard} {c other : Control} {change : Line → Line} :
    ((b.adjust c change).line? other).isSome = (b.line? other).isSome := by
  rw [line?_adjust]
  split <;> simp

/-- All lines of the board have the property. -/
def Every (P : Line → Prop) (b : Switchboard) : Prop :=
  ∀ c line, b.line? c = some line → P line

theorem Every.connect {P : Line → Prop} {b : Switchboard} (hb : b.Every P) (hnew : P {})
    (c : Control) : (b.connect c).Every P := by
  intro other line hline
  rw [line?_connect] at hline
  split at hline
  · obtain rfl := Option.some.inj hline
    cases h : b.line? other with
    | none => exact hnew
    | some line => exact hb other line h
  · exact hb other line hline

/-- Changing one line may lead to a property that the other lines have as well. -/
theorem Every.adjust {P Q : Line → Prop} {b : Switchboard} (hb : b.Every P) (c : Control)
    {change : Line → Line} (hchange : ∀ l, P l → Q (change l)) (hrest : ∀ l, P l → Q l) :
    (b.adjust c change).Every Q := by
  intro other line hline
  rw [line?_adjust] at hline
  split at hline
  · obtain ⟨old, hold, rfl⟩ := Option.map_eq_some_iff.mp hline
    exact hchange old (hb other old hold)
  · exact hrest line (hb other line hline)

/-! ## §2 One mapping -/

/-- The controls that a pair consists of; other controls consist of nothing. -/
def components (v : Vocabulary) (pair : Control) : List Control :=
  match (v.descriptor pair).pair with
  | none => []
  | some (first, second) => [first, second]

end Switchboard

/-- The mapping works only if the control has a line: as what it listens to, as the variable that it
drives, or as a component of a pair that it listens to. -/
def Mapping.NeedsLine (v : Vocabulary) (m : Mapping) (c : Control) : Prop :=
  m.ListensTo c ∨ ((v.descriptor m.target).cell = .output .var ∧ m.target = c) ∨
    ∃ pair, m.ListensTo pair ∧ c ∈ Switchboard.components v pair

namespace Switchboard

variable {α : Type} {part : Line → List α}

/-- One component of a pair reports to it. -/
private def report (pair : Control) (b : Switchboard) (component : Control) : Switchboard :=
  (b.connect component).adjust component fun l => { l with pairs := withItem l.pairs pair }

private theorem connectPair_eq (b : Switchboard) (v : Vocabulary) (c : Control) :
    b.connectPair v c = (components v c).foldl (report c) b := by
  unfold connectPair components
  cases (v.descriptor c).pair with
  | none => rfl
  | some pair => rfl

/-- What each step makes true in some cases, several steps make true if one of them does. -/
private theorem foldl_grows {β : Type} {P : Switchboard → Prop} {run : Switchboard → β → Switchboard}
    {extra : β → Prop} (hrun : ∀ b x, P (run b x) ↔ P b ∨ extra x) (b : Switchboard) (xs : List β) :
    P (xs.foldl run b) ↔ P b ∨ ∃ x ∈ xs, extra x := by
  induction xs generalizing b with
  | nil => simp
  | cons x rest ih =>
    rw [List.foldl_cons, ih, hrun, or_assoc]
    simp only [List.mem_cons, exists_eq_or_imp]

/-- So it is with what is on the lists of the board. -/
private theorem lists_foldl {β : Type} {run : Switchboard → β → Switchboard}
    (extra : β → Control → α → Prop)
    (hrun : ∀ b x other item, (run b x).Lists part other item ↔
      b.Lists part other item ∨ extra x other item)
    (b : Switchboard) (xs : List β) (other : Control) (item : α) :
    (xs.foldl run b).Lists part other item ↔
      b.Lists part other item ∨ ∃ x ∈ xs, extra x other item :=
  foldl_grows (P := fun b => b.Lists part other item) (fun b x => hrun b x other item) b xs

private theorem foldl_kept {β : Type} {P : Switchboard → Prop} {run : Switchboard → β → Switchboard}
    (hrun : ∀ b x, P b → P (run b x)) (b : Switchboard) (xs : List β) (hb : P b) :
    P (xs.foldl run b) := by
  induction xs generalizing b with
  | nil => exact hb
  | cons x rest ih => exact ih _ (hrun b x hb)

/-- Connecting a pair touches the pairs of its components only. -/
theorem lists_connectPair (hempty : part {} = []) {item : α}
    (hpart : ∀ (l : Line) (pairs : List Control), part { l with pairs } = part l)
    (b : Switchboard) (v : Vocabulary) (c other : Control) :
    (b.connectPair v c).Lists part other item ↔ b.Lists part other item := by
  rw [connectPair_eq]
  refine (lists_foldl (fun _ _ _ => False) ?_ b (components v c) other item).trans ?_
  · intro b component other item
    have hgrow := lists_grow hempty item (fun l => { l with pairs := withItem l.pairs c }) False
      (fun l => by rw [hpart, or_false]) b component other
    simpa [report] using hgrow
  · simp

/-- The components of a pair report to it. -/
theorem pairs_connectPair (b : Switchboard) (v : Vocabulary) (c other pair : Control) :
    (b.connectPair v c).Lists Line.pairs other pair ↔
      b.Lists Line.pairs other pair ∨ other ∈ components v c ∧ pair = c := by
  rw [connectPair_eq]
  refine (lists_foldl (fun component other pair => component = other ∧ pair = c) ?_ b
    (components v c) other pair).trans ?_
  · intro b component other pair
    exact lists_grow rfl pair _ _ (fun l => mem_withItem) b component other
  · simp

/-- The components of a pair get lines. -/
theorem isSome_connectPair (b : Switchboard) (v : Vocabulary) (c other : Control) :
    ((b.connectPair v c).line? other).isSome ↔ (b.line? other).isSome ∨ other ∈ components v c := by
  have hreport : ∀ (b : Switchboard) (component : Control),
      ((report c b component).line? other).isSome ↔ (b.line? other).isSome ∨ component = other := by
    intro b component
    unfold report
    rw [isSome_adjust]
    exact isSome_connect b component other
  rw [connectPair_eq, foldl_grows (P := fun b => (b.line? other).isSome) hreport]
  simp

theorem Every.connectPair {P : Line → Prop} {b : Switchboard} (hb : b.Every P) (hnew : P {})
    (hpairs : ∀ l pair, P l → P { l with pairs := withItem l.pairs pair }) (v : Vocabulary)
    (c : Control) : (b.connectPair v c).Every P := by
  rw [connectPair_eq]
  refine foldl_kept ?_ b _ hb
  intro b component hb
  exact (hb.connect hnew component).adjust component (fun l hl => hpairs l c hl) fun _ hl => hl

/-- What the board for some mappings knows. -/
structure Wires (v : Vocabulary) (mappings : List Mapping) (b : Switchboard) : Prop where
  chain (c : Control) (id : Nat) :
    b.Lists Line.chain c id ↔ ∃ m, mappings[id]? = some m ∧ m.source = c
  watchers (c : Control) (id : Nat) :
    b.Lists Line.watchers c id ↔
      ∃ m, mappings[id]? = some m ∧ ∃ test ∈ Condition.testsOf m.conditions, test.control = c
  pairs (c pair : Control) :
    b.Lists Line.pairs c pair ↔ c ∈ components v pair ∧ ∃ m ∈ mappings, m.ListensTo pair
  targets : ∀ m ∈ mappings, (v.descriptor m.target).cell = .output .var →
    (b.line? m.target).isSome
  quiet : b.Quiet

/-! ## §3 All mappings -/

private theorem getElem?_concat {β : Type} {xs : List β} {x y : β} {i : Nat} :
    (xs ++ [x])[i]? = some y ↔ xs[i]? = some y ∨ i = xs.length ∧ x = y := by
  rcases Nat.lt_trichotomy i xs.length with hlt | rfl | hgt
  · rw [List.getElem?_append_left hlt]
    simp [Nat.ne_of_lt hlt]
  · simp
  · have hne : i ≠ xs.length := Nat.ne_of_gt hgt
    have hout : (xs ++ [x]).length ≤ i := by
      rw [List.length_append]
      exact hgt
    rw [List.getElem?_eq_none hout, List.getElem?_eq_none (Nat.le_of_lt hgt)]
    simp [hne]

section

variable (b : Switchboard) (v : Vocabulary) (id : Nat) (c other : Control) (j : Nat)

private theorem chain_connectSource : (b.connectSource v id c).Lists Line.chain other j ↔
    b.Lists Line.chain other j ∨ c = other ∧ j = id := by
  unfold connectSource
  rw [lists_connectPair rfl fun _ _ => rfl]
  exact lists_grow rfl j _ _ (fun l => by simp) b c other

private theorem watchers_connectSource : (b.connectSource v id c).Lists Line.watchers other j ↔
    b.Lists Line.watchers other j := by
  unfold connectSource
  rw [lists_connectPair rfl fun _ _ => rfl]
  refine (lists_grow rfl j _ False (fun l => ?_) b c other).trans ?_ <;> simp

private theorem chain_connectWatcher : (b.connectWatcher v id c).Lists Line.chain other j ↔
    b.Lists Line.chain other j := by
  unfold connectWatcher
  rw [lists_connectPair rfl fun _ _ => rfl]
  refine (lists_grow rfl j _ False (fun l => ?_) b c other).trans ?_ <;> simp

private theorem watchers_connectWatcher : (b.connectWatcher v id c).Lists Line.watchers other j ↔
    b.Lists Line.watchers other j ∨ c = other ∧ j = id := by
  unfold connectWatcher
  rw [lists_connectPair rfl fun _ _ => rfl]
  exact lists_grow rfl j _ _ (fun l => mem_withItem) b c other

private theorem pairs_connectSource (pair : Control) :
    (b.connectSource v id c).Lists Line.pairs other pair ↔
      b.Lists Line.pairs other pair ∨ other ∈ components v c ∧ pair = c := by
  unfold connectSource
  rw [pairs_connectPair]
  refine or_congr_left ((lists_grow rfl pair _ False (fun l => ?_) b c other).trans ?_) <;> simp

private theorem pairs_connectWatcher (pair : Control) :
    (b.connectWatcher v id c).Lists Line.pairs other pair ↔
      b.Lists Line.pairs other pair ∨ other ∈ components v c ∧ pair = c := by
  unfold connectWatcher
  rw [pairs_connectPair]
  refine or_congr_left ((lists_grow rfl pair _ False (fun l => ?_) b c other).trans ?_) <;> simp

private theorem isSome_connectSource : ((b.connectSource v id c).line? other).isSome ↔
    (b.line? other).isSome ∨ c = other ∨ other ∈ components v c := by
  unfold connectSource
  rw [isSome_connectPair, isSome_adjust, isSome_connect, or_assoc]

private theorem isSome_connectWatcher : ((b.connectWatcher v id c).line? other).isSome ↔
    (b.line? other).isSome ∨ c = other ∨ other ∈ components v c := by
  unfold connectWatcher
  rw [isSome_connectPair, isSome_adjust, isSome_connect, or_assoc]

/-- Connecting a mapping gives lines to the controls that it needs one for. -/
theorem isSome_connectMapping (m : Mapping) : ((b.connectMapping v id m).line? other).isSome ↔
    (b.line? other).isSome ∨ m.NeedsLine v other := by
  have htarget : ((if (v.descriptor m.target).cell == .output .var then
      (b.connectSource v id m.source).connect m.target else b.connectSource v id m.source).line?
        other).isSome ↔ ((b.connectSource v id m.source).line? other).isSome ∨
      ((v.descriptor m.target).cell = .output .var ∧ m.target = other) := by
    split
    · rename_i hvar
      rw [isSome_connect]
      simp [eq_of_beq hvar]
    · rename_i hvar
      have hother : (v.descriptor m.target).cell ≠ .output .var := fun h => hvar (beq_iff_eq.mpr h)
      simp [hother]
  refine (foldl_grows (P := fun b => (b.line? other).isSome) (fun b c =>
    isSome_connectWatcher b v id c other) _ _).trans ?_
  rw [htarget, isSome_connectSource]
  -- Both sides list the same cases, grouped by source and conditions or by what a line is for.
  unfold Mapping.NeedsLine Mapping.ListensTo
  simp only [List.mem_map]
  grind

/-- A variable that a mapping drives gets a line with nothing on it. -/
private theorem lists_connectTarget {α : Type} {part : Line → List α} (hempty : part {} = [])
    (m : Mapping) (item : α) :
    (if (v.descriptor m.target).cell == .output .var then b.connect m.target else b).Lists part other
      item ↔ b.Lists part other item := by
  split
  · exact lists_connect hempty b _ other item
  · rfl

/-- Connecting a mapping adds it to the chain of its source, ... -/
theorem chain_connectMapping (m : Mapping) : (b.connectMapping v id m).Lists Line.chain other j ↔
    b.Lists Line.chain other j ∨ m.source = other ∧ j = id := by
  refine (lists_foldl (fun _ _ _ => False) (fun b c other j => ?_) _ _ other j).trans ?_
  · rw [chain_connectWatcher, or_false]
  · rw [lists_connectTarget _ _ _ rfl, chain_connectSource]
    simp

/-- ... to the watchers of what its conditions read, ... -/
theorem watchers_connectMapping (m : Mapping) :
    (b.connectMapping v id m).Lists Line.watchers other j ↔ b.Lists Line.watchers other j ∨
      (∃ test ∈ Condition.testsOf m.conditions, test.control = other) ∧ j = id := by
  refine (lists_foldl (fun c other j => c = other ∧ j = id)
    (fun b c other j => watchers_connectWatcher b v id c other j) _ _ other j).trans ?_
  rw [lists_connectTarget _ _ _ rfl, watchers_connectSource]
  simp

/-- ... and makes the components of pairs among these report to them. -/
theorem pairs_connectMapping (m : Mapping) (pair : Control) :
    (b.connectMapping v id m).Lists Line.pairs other pair ↔ b.Lists Line.pairs other pair ∨
      other ∈ components v pair ∧ m.ListensTo pair := by
  refine (lists_foldl (fun c other pair => other ∈ components v c ∧ pair = c)
    (fun b c other pair => pairs_connectWatcher b v id c other pair) _ _ other pair).trans ?_
  rw [lists_connectTarget _ _ _ rfl, pairs_connectSource, or_assoc]
  refine or_congr_right ?_
  unfold Mapping.ListensTo
  simp only [List.mem_map]
  constructor
  · rintro (⟨hmem, rfl⟩ | ⟨_, htest, hmem, rfl⟩)
    · exact ⟨hmem, .inl rfl⟩
    · exact ⟨hmem, .inr htest⟩
  · rintro ⟨hmem, rfl | htest⟩
    · exact .inl ⟨hmem, rfl⟩
    · exact .inr ⟨pair, htest, hmem, rfl⟩

/-- What connecting a mapping keeps of all lines: its number comes to the end of a chain, and then it
is added to watchers and pairs are added to their components. -/
theorem Every.connectMapping {P Q : Line → Prop} {b : Switchboard} (hb : b.Every P) (hnew : P {})
    (hrest : ∀ l, P l → Q l) (hchain : ∀ l, P l → Q { l with chain := l.chain ++ [id] })
    (hwatchers : ∀ l, Q l → Q { l with watchers := withItem l.watchers id })
    (hpairs : ∀ l pair, Q l → Q { l with pairs := withItem l.pairs pair }) (m : Mapping) :
    (b.connectMapping v id m).Every Q := by
  have hfresh : Q {} := hrest {} hnew
  -- Only the source puts the mapping on a chain, so from then on all lines have the second property.
  have hsource : (b.connectSource v id m.source).Every Q :=
    ((hb.connect hnew m.source).adjust m.source hchain hrest).connectPair hfresh hpairs v m.source
  refine foldl_kept (fun b c hb => ?_) _ _ ?_
  · exact ((hb.connect hfresh c).adjust c hwatchers fun _ hl => hl).connectPair hfresh hpairs v c
  · split
    · exact hsource.connect hfresh m.target
    · exact hsource

/-- A mapping that is connected presses nothing. -/
theorem Quiet.connectMapping {b : Switchboard} (hb : b.Quiet) (m : Mapping) :
    (b.connectMapping v id m).Quiet :=
  Every.connectMapping (P := fun l => l.down = Mask.none ∧ l.toggled = Mask.none) v id hb ⟨rfl, rfl⟩
    (fun _ hl => hl) (fun _ hl => hl) (fun _ hl => hl) (fun _ _ hl => hl) m

end

/-- A mapping that is connected adds itself to the chain of its source, and to the watchers of what
its conditions read. -/
theorem Wires.connect {v : Vocabulary} {mappings : List Mapping} {b : Switchboard}
    (hb : Wires v mappings b) (m : Mapping) :
    Wires v (mappings ++ [m]) (b.connectMapping v mappings.length m) := by
  -- The new mapping comes last in each line that it stands in.
  constructor
  · intro c id
    rw [chain_connectMapping, hb.chain]
    simp only [getElem?_concat]
    constructor
    · rintro (⟨m', hm', hsame⟩ | ⟨rfl, rfl⟩)
      · exact ⟨m', .inl hm', hsame⟩
      · exact ⟨m, .inr ⟨rfl, rfl⟩, rfl⟩
    · rintro ⟨m', hm' | ⟨rfl, rfl⟩, hsame⟩
      · exact .inl ⟨m', hm', hsame⟩
      · exact .inr ⟨hsame, rfl⟩
  · intro c id
    rw [watchers_connectMapping, hb.watchers]
    simp only [getElem?_concat]
    constructor
    · rintro (⟨m', hm', htest⟩ | ⟨htest, rfl⟩)
      · exact ⟨m', .inl hm', htest⟩
      · exact ⟨m, .inr ⟨rfl, rfl⟩, htest⟩
    · rintro ⟨m', hm' | ⟨rfl, rfl⟩, htest⟩
      · exact .inl ⟨m', hm', htest⟩
      · exact .inr ⟨htest, rfl⟩
  · intro c pair
    rw [pairs_connectMapping, hb.pairs, ← and_or_left]
    refine and_congr_right fun _ => ?_
    simp only [List.mem_append, List.mem_singleton]
    constructor
    · rintro (⟨m', hm', hlistens⟩ | hlistens)
      · exact ⟨m', .inl hm', hlistens⟩
      · exact ⟨m, .inr rfl, hlistens⟩
    · rintro ⟨m', hm' | rfl, hlistens⟩
      · exact .inl ⟨m', hm', hlistens⟩
      · exact .inr hlistens
  · intro m' hm' hvar
    rw [isSome_connectMapping]
    rcases List.mem_append.mp hm' with hold | hnew
    · exact .inl (hb.targets m' hold hvar)
    · obtain rfl := List.mem_singleton.mp hnew
      exact .inr (.inr (.inl ⟨hvar, rfl⟩))
  · exact hb.quiet.connectMapping v _ m

theorem ofMappings_nil (v : Vocabulary) (c : Control) : (ofMappings v []).line? c = none :=
  Std.TreeMap.getElem?_emptyc

theorem ofMappings_append (v : Vocabulary) (mappings : List Mapping) (m : Mapping) :
    ofMappings v (mappings ++ [m]) =
      (ofMappings v mappings).connectMapping v mappings.length m := by
  simp [ofMappings, List.zipIdx_append]

/-- **The board knows its listeners.** -/
theorem wires_ofMappings (v : Vocabulary) (mappings : List Mapping) :
    Wires v mappings (ofMappings v mappings) := by
  induction mappings using List.reverseRecOn with
  | nil => constructor <;> simp [Lists, Quiet, ofMappings_nil]
  | append_singleton mappings m ih =>
    rw [ofMappings_append]
    exact ih.connect m

/-- The controls with a line are those that some mapping needs. -/
theorem isSome_ofMappings (v : Vocabulary) (mappings : List Mapping) (c : Control) :
    ((ofMappings v mappings).line? c).isSome ↔ ∃ m ∈ mappings, m.NeedsLine v c := by
  induction mappings using List.reverseRecOn with
  | nil => simp [ofMappings_nil]
  | append_singleton mappings m ih =>
    rw [ofMappings_append, isSome_connectMapping, ih]
    simp [or_and_right, exists_or]

theorem mem_components {v : Vocabulary} {c pair : Control} : c ∈ components v pair ↔
    ∃ first second, (v.descriptor pair).pair = some (first, second) ∧ (c = first ∨ c = second) := by
  unfold components
  cases (v.descriptor pair).pair with
  | none => simp
  | some both =>
    obtain ⟨first, second⟩ := both
    constructor
    · intro h
      exact ⟨first, second, rfl, by simpa using h⟩
    · rintro ⟨first', second', hboth, hc⟩
      obtain ⟨rfl, rfl⟩ := Prod.mk.inj (Option.some.inj hboth)
      simpa using hc

theorem isComponent_of_mem {v : Vocabulary} {c pair : Control} (h : c ∈ components v pair) :
    (v.descriptor pair).IsComponent c := by
  obtain ⟨first, second, hpair, rfl | rfl⟩ := mem_components.mp h
  · exact (v.components_ofNumber hpair).1
  · exact (v.components_ofNumber hpair).2

/-- The components of a pair are built-in controls. -/
theorem component_builtin {v : Vocabulary} {c pair : Control} (h : c ∈ components v pair) :
    c.isCustom = false :=
  (isComponent_of_mem h).1

/-- Pairs do not nest. -/
theorem pair_of_component {v : Vocabulary} {c pair : Control} (h : c ∈ components v pair) :
    (v.descriptor c).pair = none :=
  (v.of_isComponent (isComponent_of_mem h)).1

end Switchboard

theorem Engine.lists_congr {α : Type} {part : Line → List α} (field : Wiring → List α)
    (hfield : ∀ l, part l = field l.wiring) {e e' : Engine} (hlayout : e'.layout = e.layout)
    (c : Control) (item : α) : e'.board.Lists part c item ↔ e.board.Lists part c item := by
  rw [← Switchboard.mem_entries, ← Switchboard.mem_entries,
    Switchboard.entries_congr field hfield (wiring_congr hlayout c)]

end VirtualPad
