import VirtualPad.Proofs.Conditions
import VirtualPad.Proofs.Expressions

/-!
# Negated conditions

`!` in front of a group is pushed down to the tests: all and any change places, and every test asks for
the other state.  On a board with a line for every control that is read, a test of one user then holds
exactly if the original does not.  A test of every user does not turn round like that: it holds as soon
as it holds for one of them, and so does the test for the other state.  So a negated condition says that
the condition does not hold *for each* of the users that its tests ask about.

* `Condition.holds_negate`: what the opposite condition says, by De Morgan down to the tests.
* `Condition.parse_not`: what is read from a condition in parentheses behind a `!`.
* `Condition.holds_negated`: what a negated expression means, and when that is the plain negation.
-/

namespace VirtualPad

variable {board : Switchboard} {active : Nat}

/-! ## §1 Tests -/

namespace Test

/-- The test for the other state. -/
def opposite (t : Test) : Test := { t with desired := !t.desired }

/-- The test holds for each of the users that it asks about. -/
def holdsForEach (t : Test) (board : Switchboard) (active : Nat) : Bool :=
  match t.user with
  | .index user => t.holdsFor board user
  | .active => t.holdsFor board active
  | .everyone => (List.range userLimit).all fun user => t.holdsFor board user

/-- All users are in the same state as far as the test can tell, if it asks about all of them. -/
def Unanimous (t : Test) (board : Switchboard) : Prop :=
  t.user = .everyone → ∀ user < userLimit, t.holdsFor board user = t.holdsFor board 0

/-- A control with a line is in the one state or in the other. -/
theorem holdsFor_opposite {t : Test} (hline : (board.line? t.control).isSome = true) (user : Nat) :
    t.opposite.holdsFor board user = !t.holdsFor board user := by
  obtain ⟨line, hline⟩ := Option.isSome_iff_exists.mp hline
  have hstate : ∀ state desired : Bool, (state == !desired) = !(state == desired) := by decide
  have hopposite : board.line? t.opposite.control = some line := hline
  rw [holdsFor_of_line hline, holdsFor_of_line hopposite]
  exact hstate _ _

/-- For no user is for not any, and that is what a test of every user turns into. -/
theorem holds_opposite {t : Test} (hline : (board.line? t.control).isSome = true) :
    t.opposite.holds board active = !t.holdsForEach board active := by
  have hfor : ∀ user, t.opposite.holdsFor board user = !t.holdsFor board user := holdsFor_opposite hline
  show (match t.user with
    | .index user => t.opposite.holdsFor board user
    | .active => t.opposite.holdsFor board active
    | .everyone => (List.range userLimit).any fun user => t.opposite.holdsFor board user) = _
  unfold holdsForEach
  cases t.user with
  | index user => exact hfor user
  | active => exact hfor active
  | everyone =>
    simp only [hfor]
    rw [List.any_eq_not_all_not]
    simp

/-- Where the users agree, for one of them is for each of them. -/
theorem holdsForEach_of_unanimous {t : Test} (h : t.Unanimous board) :
    t.holdsForEach board active = t.holds board active := by
  unfold holdsForEach holds
  cases huser : t.user with
  | index user => rfl
  | active => rfl
  | everyone =>
    have hsame : ∀ user ∈ List.range userLimit, t.holdsFor board user = t.holdsFor board 0 :=
      fun user hin => h huser user (List.mem_range.mp hin)
    have hfirst : 0 ∈ List.range userLimit := by decide
    cases hstate : t.holdsFor board 0 with
    | true =>
      rw [List.all_eq_true.mpr fun user hin => (hsame user hin).trans hstate]
      exact (List.any_eq_true.mpr ⟨0, hfirst, hstate⟩).symm
    | false =>
      rw [List.any_eq_false.mpr fun user hin => by rw [hsame user hin, hstate]; decide]
      exact List.all_eq_false.mpr ⟨0, hfirst, by rw [hstate]; decide⟩

end Test

/-! ## §2 Trees -/

namespace Condition

mutual

/-- The condition holds if its tests are to hold for each of the users that they ask about. -/
def holdsForEach (board : Switchboard) (active : Nat) : Condition → Bool
  | .test t => t.holdsForEach board active
  | .all parts => allHoldForEach board active parts
  | .any parts => anyHoldsForEach board active parts

def allHoldForEach (board : Switchboard) (active : Nat) : List Condition → Bool
  | [] => true
  | c :: rest => c.holdsForEach board active && allHoldForEach board active rest

def anyHoldsForEach (board : Switchboard) (active : Nat) : List Condition → Bool
  | [] => false
  | c :: rest => c.holdsForEach board active || anyHoldsForEach board active rest

end

mutual

/-- **The opposite condition** holds exactly if the condition does not hold for each of the users that
its tests ask about. -/
theorem holds_negate : ∀ c : Condition,
    (∀ t ∈ c.tests, (board.line? t.control).isSome = true) →
    c.negate.holds board active = !c.holdsForEach board active
  | .test t, h => by
    unfold negate holds holdsForEach
    exact Test.holds_opposite (h t (by simp [tests]))
  | .all parts, h => by
    unfold negate holds holdsForEach
    exact anyHolds_negateEach parts (by simpa [tests] using h)
  | .any parts, h => by
    unfold negate holds holdsForEach
    exact allHold_negateEach parts (by simpa [tests] using h)

theorem anyHolds_negateEach : ∀ cs : List Condition,
    (∀ t ∈ testsOf cs, (board.line? t.control).isSome = true) →
    anyHolds board active (negateEach cs) = !allHoldForEach board active cs
  | [], _ => rfl
  | c :: rest, h => by
    simp only [testsOf, List.mem_append] at h
    unfold negateEach anyHolds allHoldForEach
    rw [holds_negate c fun t ht => h t (.inl ht), anyHolds_negateEach rest fun t ht => h t (.inr ht),
      Bool.not_and]

theorem allHold_negateEach : ∀ cs : List Condition,
    (∀ t ∈ testsOf cs, (board.line? t.control).isSome = true) →
    allHold board active (negateEach cs) = !anyHoldsForEach board active cs
  | [], _ => rfl
  | c :: rest, h => by
    simp only [testsOf, List.mem_append] at h
    unfold negateEach allHold anyHoldsForEach
    rw [holds_negate c fun t ht => h t (.inl ht), allHold_negateEach rest fun t ht => h t (.inr ht),
      Bool.not_or]

end

mutual

/-- Where the users agree about every test, for one of them is for each of them. -/
theorem holdsForEach_of_unanimous : ∀ c : Condition, (∀ t ∈ c.tests, t.Unanimous board) →
    c.holdsForEach board active = c.holds board active
  | .test t, h => by
    unfold holdsForEach holds
    exact Test.holdsForEach_of_unanimous (h t (by simp [tests]))
  | .all parts, h => by
    unfold holdsForEach holds
    exact allHoldForEach_of_unanimous parts (by simpa [tests] using h)
  | .any parts, h => by
    unfold holdsForEach holds
    exact anyHoldsForEach_of_unanimous parts (by simpa [tests] using h)

theorem allHoldForEach_of_unanimous : ∀ cs : List Condition,
    (∀ t ∈ testsOf cs, t.Unanimous board) →
    allHoldForEach board active cs = allHold board active cs
  | [], _ => rfl
  | c :: rest, h => by
    simp only [testsOf, List.mem_append] at h
    unfold allHoldForEach allHold
    rw [holdsForEach_of_unanimous c fun t ht => h t (.inl ht),
      allHoldForEach_of_unanimous rest fun t ht => h t (.inr ht)]

theorem anyHoldsForEach_of_unanimous : ∀ cs : List Condition,
    (∀ t ∈ testsOf cs, t.Unanimous board) →
    anyHoldsForEach board active cs = anyHolds board active cs
  | [], _ => rfl
  | c :: rest, h => by
    simp only [testsOf, List.mem_append] at h
    unfold anyHoldsForEach anyHolds
    rw [holdsForEach_of_unanimous c fun t ht => h t (.inl ht),
      anyHoldsForEach_of_unanimous rest fun t ht => h t (.inr ht)]

end

/-! ## §3 Expressions -/

/-- A text in parentheses behind a `!`. -/
def notText (text : String) : String := "!(" ++ text ++ ")"

/-- Signs and parentheses are tokens of their own, whatever the text begins and ends with. -/
theorem ofText_notText (text : String) :
    Token.ofText (notText text) = .not :: .openParen :: (Token.ofText text ++ [.closeParen]) := by
  have hlist : (notText text).toList = '!' :: '(' :: (text.toList ++ [')']) := by
    simp [notText, String.toList_append]
  have hclose : Token.Spells [')'] [.closeParen] := .sign (by decide) .nil
  have hend : ∀ c ∈ [')'].head?, ¬ Token.IsWordChar c := by
    rintro c hc ⟨-, hword⟩
    obtain rfl := Option.some.inj hc
    exact hword .closeParen (by decide)
  refine Token.spells_iff.mp ?_
  rw [hlist]
  exact .sign (by decide) (.sign (by decide) ((Token.spells_iff.mpr rfl).append hclose hend))

/-- **A negated text** is read exactly if the text is, as the opposite condition. -/
theorem parse_not {v : Vocabulary} {text : String} {c : Condition} (h : parse v text = .ok c) :
    parse v (notText text) = .ok c.negate := by
  unfold parse at h ⊢
  rw [ofTokens_eq_ok_iff] at h ⊢
  obtain ⟨p, htokens, hadmissible, htree⟩ := h
  refine ⟨.one .or (.one .and (.not (.group p))), ?_, hadmissible, ?_⟩
  · rw [ofText_notText, ← htokens]
    rfl
  · rw [← htree]
    exact Phrase.tree_not (.group p)

/-- The controls of a condition are those of its tests. -/
theorem mem_controls {c : Condition} {t : Test} (ht : t ∈ c.tests) : t.control ∈ c.controls := by
  have hall : t ∈ testsOf [c] := by simpa [testsOf] using ht
  exact mem_controlsOf.mpr ⟨t, hall, rfl⟩

/-- **What a negated expression means.**  On a board with a line for every control of the condition, the
condition behind a `!` holds exactly if it does not hold for each of the users that its tests ask about.
That is the plain negation if no test asks about every user, or if all users are in the same state
wherever one does. -/
theorem holds_negated {v : Vocabulary} {text : String} {c : Condition} (hread : parse v text = .ok c)
    (hlines : ∀ control ∈ c.controls, (board.line? control).isSome = true) (active : Nat) :
    ∃ negated, parse v (notText text) = .ok negated ∧
      (negated.holds board active = true ↔ c.holdsForEach board active = false) ∧
      ((∀ t ∈ c.tests, t.Unanimous board) →
        (negated.holds board active = true ↔ c.holds board active = false)) := by
  have hnegate : c.negate.holds board active = !c.holdsForEach board active :=
    holds_negate c fun t ht => hlines t.control (mem_controls ht)
  have hmeaning : c.negate.holds board active = true ↔ c.holdsForEach board active = false := by
    rw [hnegate, Bool.not_eq_true']
  refine ⟨c.negate, parse_not hread, hmeaning, fun hagree => ?_⟩
  rw [hmeaning, holdsForEach_of_unanimous c hagree]

/-- A board on which the pad button A is down for the first user only. -/
def onePressed : Switchboard := (({} : Switchboard).connect ⟨512⟩).set ⟨512⟩ 0 true

/-- The button is down for the first user and up for the second.  Asked of a single user, `!` means
not. -/
theorem holds_negated_single :
    (∃ negated, parse {} (notText "PadA@2 | ~PadA@active") = .ok negated ∧
      (negated.holds onePressed 1 = true ↔
        (Condition.any [.test ⟨⟨512⟩, .index 1, true, false⟩,
          .test ⟨⟨512⟩, .active, true, true⟩]).holds onePressed 1 = false)) ∧
    (Condition.any [.test ⟨⟨512⟩, .index 1, true, false⟩,
      .test ⟨⟨512⟩, .active, true, true⟩]).holds onePressed 1 = false := by
  have hread : parse {} "PadA@2 | ~PadA@active" =
      .ok (.any [.test ⟨⟨512⟩, .index 1, true, false⟩, .test ⟨⟨512⟩, .active, true, true⟩]) := rfl
  have hlines : ∀ control ∈ (Condition.any [.test ⟨⟨512⟩, .index 1, true, false⟩,
      .test ⟨⟨512⟩, .active, true, true⟩]).controls, (onePressed.line? control).isSome = true := by
    decide +kernel
  obtain ⟨negated, hparse, -, hmeaning⟩ := holds_negated hread hlines 1
  refine ⟨⟨negated, hparse, hmeaning ?_⟩, by decide +kernel⟩
  simp only [tests, testsOf, List.append_nil, List.cons_append, List.nil_append]
  rintro t ht huser
  rcases List.mem_pair.mp ht with rfl | rfl <;> cases huser

/-- **Asked of every user, `!` does not mean not**: the button is down for one of them and up for
another, so both the condition and its opposite hold. -/
theorem holds_with_negated :
    ∃ c negated, parse {} "PadA@all" = .ok c ∧ parse {} (notText "PadA@all") = .ok negated ∧
      (∀ control ∈ c.controls, (onePressed.line? control).isSome = true) ∧
      c.holds onePressed 0 = true ∧ negated.holds onePressed 0 = true :=
  ⟨.test ⟨⟨512⟩, .everyone, true, false⟩, .test ⟨⟨512⟩, .everyone, false, false⟩,
    rfl, rfl, by decide +kernel, by decide +kernel, by decide +kernel⟩

end Condition

end VirtualPad
