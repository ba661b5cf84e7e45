import VirtualPad.Proofs.Spelling

/-!
# The grammar of conditions

A condition expression is a row of words and signs that the grammar derives:

    or      := and ('|' and)*
    and     := unary ('&' unary)*
    unary   := '!' unary | '~' unary | primary
    primary := name | '(' or ')'

A `Phrase` is a derivation of it.  The tree of a phrase groups what `|` and `&` join.  The signs in
front of a group are passed on to what is inside, so that only tests are negated: behind an odd number
of `!` every test asks for the opposite, and all and any change places.  Reading an expression finds the
tree of a phrase that has the expression's tokens, whenever there is one that makes sense: every name is
that of a control, and every `~` stands before a single control.

* `Phrase.negate_behind`: turning a tree round is the same as one more `!` in front of its phrase.
* `readsDerived_readOperand`, `isRead_of_admissible`: what is read is derived, and the reverse.
* `ofTokens_eq_ok_iff`: the conditions that a row of tokens is read as are those that it derives.
-/

namespace VirtualPad

/-! ## §1 Phrases -/

/-- What joins the parts of a condition. -/
inductive Joint where
  | and
  | or
  deriving DecidableEq, Repr

/-- The phrases of the grammar: controls and groups with the signs in front of them, and what is
joined of them. -/
inductive Level where
  | operand
  | joined (joint : Joint)
  deriving DecidableEq, Repr

namespace Joint

/-- `&` joins operands, and `|` joins what `&` joins. -/
def below : Joint → Level
  | .and => .operand
  | .or => .joined .and

def sign : Joint → Token
  | .and => .and
  | .or => .or

def group : Joint → List Condition → Condition
  | .and => .all
  | .or => .any

/-- The joint that takes its place when what it joins is negated. -/
def opposite : Joint → Joint
  | .and => .or
  | .or => .and

end Joint

/-- A derivation of the grammar. -/
inductive Phrase : Level → Type where
  | name (text : String) : Phrase .operand
  | group (inner : Phrase (.joined .or)) : Phrase .operand
  | not (inner : Phrase .operand) : Phrase .operand
  | toggle (inner : Phrase .operand) : Phrase .operand
  /-- The last part of several, or the only one. -/
  | one (joint : Joint) (part : Phrase joint.below) : Phrase (.joined joint)
  | more (joint : Joint) (part : Phrase joint.below) (rest : Phrase (.joined joint)) :
    Phrase (.joined joint)

/-- The test of the control that a name stands for.  Controls without users keep their state under
the first one. -/
def Vocabulary.namedTest (v : Vocabulary) (text : String) : Test :=
  match v.readRef text with
  | .ok (control, user) =>
    { control
      user := if (v.descriptor control).flags.ofUser then user.getD (.index 0) else .index 0 }
  | .error _ => { control := .unknown }

/-- What the signs in front of a phrase ask of the names in it: whether they are to be up, which is so
behind an odd number of `!`, and whether they are asked for their toggles. -/
structure Signs where
  negated : Bool := false
  toggle : Bool := false

namespace Signs

/-- With one more `!`. -/
def flipped (s : Signs) : Signs := { s with negated := !s.negated }

/-- With a `~`. -/
def toggled (s : Signs) : Signs := { s with toggle := true }

end Signs

namespace Joint

/-- What a joint comes to behind signs. -/
def behind (joint : Joint) (s : Signs) : Joint := if s.negated then joint.opposite else joint

theorem opposite_behind (joint : Joint) (s : Signs) :
    (joint.behind s).opposite = joint.behind s.flipped := by
  cases joint <;> cases h : s.negated <;> simp [behind, opposite, Signs.flipped, h]

theorem negate_group (joint : Joint) (parts : List Condition) :
    (joint.group parts).negate = joint.opposite.group (Condition.negateEach parts) := by
  cases joint <;> simp [group, opposite, Condition.negate]

end Joint

namespace Phrase

/-- The row of tokens that is derived. -/
def tokens : {level : Level} → Phrase level → List Token
  | _, .name text => [.name text]
  | _, .group inner => .openParen :: inner.tokens ++ [.closeParen]
  | _, .not inner => .not :: inner.tokens
  | _, .toggle inner => .toggle :: inner.tokens
  | _, .one _ part => part.tokens
  | _, .more joint part rest => part.tokens ++ joint.sign :: rest.tokens

/-- Under its parentheses and signs the phrase is a single control. -/
def isSingle : {level : Level} → Phrase level → Bool
  | _, .name _ => true
  | _, .group inner => inner.isSingle
  | _, .not inner => inner.isSingle
  | _, .toggle inner => inner.isSingle
  | _, .one _ part => part.isSingle
  | _, .more _ _ _ => false

/-- Every name is that of a control, and every toggle is asked of a single one. -/
def Admissible (v : Vocabulary) : {level : Level} → Phrase level → Prop
  | _, .name text => ∃ found, v.readRef text = .ok found
  | _, .group inner => inner.Admissible v
  | _, .not inner => inner.Admissible v
  | _, .toggle inner => inner.isSingle = true ∧ inner.Admissible v
  | _, .one _ part => part.Admissible v
  | _, .more _ part rest => part.Admissible v ∧ rest.Admissible v

mutual

/-- The condition that is derived behind signs.  Parentheses add nothing to it, and signs are passed on
down to the names. -/
def behind (v : Vocabulary) : {level : Level} → Phrase level → Signs → Condition
  | _, .name text, s => .test { v.namedTest text with desired := !s.negated, toggle := s.toggle }
  | _, .group inner, s => inner.behind v s
  | _, .not inner, s => inner.behind v s.flipped
  | _, .toggle inner, s => inner.behind v s.toggled
  | _, .one _ part, s => part.behind v s
  | _, .more joint part rest, s => (joint.behind s).group (part.behind v s :: rest.partsBehind v s)
termination_by structural _ phrase _ => phrase

/-- The conditions of the parts that are joined. -/
def partsBehind (v : Vocabulary) : {level : Level} → Phrase level → Signs → List Condition
  | _, .name _, _ => []
  | _, .group _, _ => []
  | _, .not _, _ => []
  | _, .toggle _, _ => []
  | _, .one _ part, s => [part.behind v s]
  | _, .more _ part rest, s => part.behind v s :: rest.partsBehind v s
termination_by structural _ phrase _ => phrase

end

/-- The condition that is derived. -/
def tree (v : Vocabulary) {level : Level} (p : Phrase level) : Condition := p.behind v {}

/-- The conditions of the parts that are joined. -/
def parts (v : Vocabulary) {level : Level} (p : Phrase level) : List Condition := p.partsBehind v {}

section

variable {v : Vocabulary} {level : Level}

theorem tokens_ne_nil (p : Phrase level) : p.tokens ≠ [] := by
  induction p with
  | name text => simp [tokens]
  | group inner => simp [tokens]
  | not inner => simp [tokens]
  | toggle inner => simp [tokens]
  | one joint part ih => exact ih
  | more joint part rest => simp [tokens]

/-- So whatever is at least as many as the tokens is not zero. -/
theorem exists_of_length_le (p : Phrase level) {bound : Nat} (h : p.tokens.length ≤ bound) :
    ∃ less, bound = less + 1 :=
  Nat.exists_eq_succ_of_ne_zero
    (Nat.ne_of_gt (Nat.lt_of_lt_of_le (List.length_pos_iff.mpr p.tokens_ne_nil) h))

/-- Behind any signs, the condition is a single test if and only if the phrase is a single control. -/
theorem isSingle_iff (p : Phrase level) (s : Signs) :
    p.isSingle = true ↔ ∃ t, p.behind v s = .test t := by
  induction p generalizing s with
  | name text => simp [isSingle, behind]
  | group inner ih => exact ih s
  | not inner ih => exact ih s.flipped
  | toggle inner ih => exact ih s.toggled
  | one joint part ih => exact ih s
  | more joint part rest =>
    cases hjoint : joint.behind s <;> simp [isSingle, behind, hjoint, Joint.group]

/-- With a `~` in front, a single control is asked for its toggle. -/
theorem behind_toggled (p : Phrase level) (h : p.isSingle = true) (s : Signs) {t : Test}
    (ht : p.behind v s = .test t) : p.behind v s.toggled = .test { t with toggle := true } := by
  induction p generalizing s with
  | name text =>
    cases ht
    rfl
  | group inner ih => exact ih h s ht
  | not inner ih => exact ih h s.flipped ht
  | toggle inner ih => exact ih h s.toggled ht
  | one joint part ih => exact ih h s ht
  | more joint part rest => contradiction

/-- **One more `!` in front** of a phrase turns its condition round, and those of its parts. -/
theorem negate_behind (p : Phrase level) (s : Signs) :
    (p.behind v s).negate = p.behind v s.flipped ∧
      Condition.negateEach (p.partsBehind v s) = p.partsBehind v s.flipped := by
  induction p generalizing s with
  | name text => exact ⟨by simp [behind, Condition.negate, Signs.flipped], rfl⟩
  | group inner ih => exact ⟨(ih s).1, rfl⟩
  | not inner ih => exact ⟨(ih s.flipped).1, rfl⟩
  | toggle inner ih => exact ⟨(ih s.toggled).1, rfl⟩
  | one joint part ih =>
    refine ⟨(ih s).1, ?_⟩
    simp [partsBehind, Condition.negateEach, (ih s).1]
  | more joint part rest ihpart ihrest =>
    have heach : Condition.negateEach (part.behind v s :: rest.partsBehind v s) =
        part.behind v s.flipped :: rest.partsBehind v s.flipped := by
      rw [Condition.negateEach, (ihpart s).1, (ihrest s).2]
    refine ⟨?_, heach⟩
    rw [behind, behind, Joint.negate_group, heach, joint.opposite_behind]

/-! A phrase with no signs in front, by what it is made of. -/

theorem tree_name (text : String) : (name text).tree v = .test (v.namedTest text) := by
  simp only [tree, behind, Vocabulary.namedTest]
  cases v.readRef text <;> rfl

theorem tree_group (inner : Phrase (.joined .or)) : (group inner).tree v = inner.tree v := rfl

theorem tree_not (inner : Phrase .operand) : (not inner).tree v = (inner.tree v).negate :=
  (negate_behind inner {}).1.symm

theorem tree_toggle {inner : Phrase .operand} (h : inner.isSingle = true) {t : Test}
    (ht : inner.tree v = .test t) : (toggle inner).tree v = .test { t with toggle := true } :=
  behind_toggled inner h {} ht

theorem tree_more (joint : Joint) (part : Phrase joint.below) (rest : Phrase (.joined joint)) :
    (more joint part rest).tree v = joint.group (part.tree v :: rest.parts v) := rfl

theorem parts_one (joint : Joint) (part : Phrase joint.below) :
    (one joint part).parts v = [part.tree v] := rfl

theorem parts_more (joint : Joint) (part : Phrase joint.below) (rest : Phrase (.joined joint)) :
    (more joint part rest).parts v = part.tree v :: rest.parts v := rfl

end

end Phrase

/-! ## §2 What is read is derived -/

namespace Condition

open Phrase

variable {v : Vocabulary}

theorem ofName_eq_ok_iff {text : String} {c : Condition} : ofName v text = .ok c ↔
    (∃ found, v.readRef text = .ok found) ∧ c = .test (v.namedTest text) := by
  unfold ofName Vocabulary.namedTest
  cases hread : v.readRef text with
  | error e => simp [bind, Except.bind]
  | ok found =>
    constructor
    · rintro ⟨⟩
      exact ⟨⟨found, rfl⟩, rfl⟩
    · rintro ⟨-, rfl⟩
      rfl

/-- A phrase derives the tokens and the condition. -/
def Derives (v : Vocabulary) (level : Level) (tokens : List Token) (c : Condition) : Prop :=
  ∃ p : Phrase level, p.tokens = tokens ∧ p.Admissible v ∧ p.tree v = c

/-- Joined parts derive the tokens, and these are their conditions. -/
def DerivesParts (v : Vocabulary) (joint : Joint) (tokens : List Token)
    (parts : List Condition) : Prop :=
  ∃ p : Phrase (.joined joint), p.tokens = tokens ∧ p.Admissible v ∧ p.parts v = parts

/-- Whatever the step of reading takes off the front is derived. -/
def ReadsDerived (v : Vocabulary) (level : Level) (part : List Token → Reading) : Prop :=
  ∀ tokens c rest, part tokens = .ok (c, rest) →
    ∃ used, tokens = used ++ rest ∧ Derives v level used c

section

variable {joint : Joint} {part : List Token → Reading}

/-- Further parts are read with the sign in front of each. -/
theorem derives_of_readMore (hpart : ReadsDerived v joint.below part) (bound : Nat)
    {tokens rest : List Token} {parts : List Condition}
    (h : readMore joint.sign part bound tokens = .ok (parts, rest)) :
    (parts = [] ∧ tokens = rest) ∨
      ∃ used, tokens = joint.sign :: used ++ rest ∧ DerivesParts v joint used parts := by
  induction bound generalizing tokens rest parts with
  | zero =>
    cases h
    exact .inl ⟨rfl, rfl⟩
  | succ bound ih =>
    unfold readMore at h
    split at h
    · cases h
      exact .inl ⟨rfl, rfl⟩
    · rename_i token after
      split at h
      · rename_i hsign
        obtain ⟨⟨first, left⟩, hfirst, h⟩ := Except.bind_eq_ok h
        obtain ⟨⟨others, left'⟩, hothers, h⟩ := Except.bind_eq_ok h
        cases h
        obtain ⟨used, rfl, p, rfl, hadmissible, rfl⟩ := hpart _ _ _ hfirst
        right
        rcases ih hothers with ⟨rfl, rfl⟩ | ⟨used', rfl, q, rfl, hrest, rfl⟩
        · exact ⟨p.tokens, by rw [hsign]; rfl, .one joint p, rfl, hadmissible, rfl⟩
        · refine ⟨p.tokens ++ joint.sign :: q.tokens, ?_, .more joint p q, rfl,
            ⟨hadmissible, hrest⟩, rfl⟩
          simp [hsign]
      · cases h
        exact .inl ⟨rfl, rfl⟩

theorem readsDerived_readRun (hpart : ReadsDerived v joint.below part) :
    ReadsDerived v (.joined joint) (readRun joint.sign joint.group part) := by
  intro tokens c rest h
  obtain ⟨⟨first, left⟩, hfirst, h⟩ := Except.bind_eq_ok h
  obtain ⟨⟨others, left'⟩, hothers, h⟩ := Except.bind_eq_ok h
  cases h
  obtain ⟨used, rfl, p, rfl, hadmissible, rfl⟩ := hpart _ _ _ hfirst
  rcases derives_of_readMore hpart _ hothers with ⟨rfl, rfl⟩ | ⟨used', rfl, q, rfl, hrest, rfl⟩
  · exact ⟨p.tokens, rfl, .one joint p, rfl, hadmissible, rfl⟩
  · -- The parts after the first are at least one, so they make a group.
    have hsome : (q.parts v).isEmpty = false := by cases q <;> rfl
    refine ⟨p.tokens ++ joint.sign :: q.tokens, by simp, .more joint p q, rfl,
      ⟨hadmissible, hrest⟩, ?_⟩
    rw [hsome]
    rfl

end

theorem readsDerived_readAny {part : List Token → Reading} (hpart : ReadsDerived v .operand part) :
    ReadsDerived v (.joined .or) (readAny part) := by
  have hrun : ReadsDerived v (.joined .and) (readRun .and .all part) := readsDerived_readRun hpart
  exact readsDerived_readRun hrun

/-- An operand that was read is derived, however deep signs and parentheses nest. -/
theorem readsDerived_readOperand (bound : Nat) : ReadsDerived v .operand (readOperand v bound) := by
  induction bound with
  | zero =>
    intro tokens c rest h
    contradiction
  | succ bound ih =>
    intro tokens c rest h
    cases tokens with
    | nil => contradiction
    | cons token after =>
      -- One production for each token that an operand can begin with.
      cases token with
      | not =>
        obtain ⟨⟨inner, left⟩, hinner, h⟩ := Except.bind_eq_ok h
        cases h
        obtain ⟨used, rfl, p, rfl, hadmissible, rfl⟩ := ih _ _ _ hinner
        exact ⟨_, rfl, .not p, rfl, hadmissible, tree_not p⟩
      | toggle =>
        obtain ⟨⟨inner, left⟩, hinner, h⟩ := Except.bind_eq_ok h
        obtain ⟨toggled, htoggled, h⟩ := Except.bind_eq_ok h
        cases h
        obtain ⟨used, rfl, p, rfl, hadmissible, rfl⟩ := ih _ _ _ hinner
        -- Only a single test can be asked about its toggle.
        unfold askToggle at htoggled
        split at htoggled
        · rename_i test htest
          cases htoggled
          have hsingle : p.isSingle = true := (p.isSingle_iff {}).mpr ⟨test, htest⟩
          exact ⟨_, rfl, .toggle p, rfl, ⟨hsingle, hadmissible⟩, tree_toggle hsingle htest⟩
        · contradiction
      | openParen =>
        obtain ⟨⟨inner, left⟩, hinner, h⟩ := Except.bind_eq_ok h
        have hderived := readsDerived_readAny ih _ _ _ hinner
        split at h
        · rename_i heq
          cases heq
          cases h
          obtain ⟨used, rfl, p, rfl, hadmissible, rfl⟩ := hderived
          exact ⟨.openParen :: p.tokens ++ [.closeParen], by simp, .group p, rfl, hadmissible, rfl⟩
        · contradiction
        · contradiction
      | name text =>
        obtain ⟨named, hnamed, h⟩ := Except.bind_eq_ok h
        cases h
        obtain ⟨hfound, rfl⟩ := ofName_eq_ok_iff.mp hnamed
        exact ⟨_, rfl, .name text, rfl, hfound, tree_name text⟩
      | closeParen | and | or => contradiction

/-! ## §3 What is derived is read -/

/-- The step that reads the phrases of a level. -/
def reader (v : Vocabulary) (bound : Nat) : Level → List Token → Reading
  | .operand => readOperand v bound
  | .joined .and => readRun .and .all (readOperand v bound)
  | .joined .or => readAny (readOperand v bound)

/-- Nothing follows that a phrase of the level would go on with. -/
def EndsBefore (rest : List Token) : Level → Prop
  | .operand => True
  | .joined .and => ∀ token ∈ rest.head?, token ≠ .and
  | .joined .or => ∀ token ∈ rest.head?, token ≠ .and ∧ token ≠ .or

section

variable {joint : Joint} {bound : Nat} {rest : List Token}

theorem reader_joined (tokens : List Token) : reader v bound (.joined joint) tokens =
    readRun joint.sign joint.group (reader v bound joint.below) tokens := by
  cases joint <;> rfl

theorem EndsBefore.below (h : EndsBefore rest (.joined joint)) : EndsBefore rest joint.below := by
  cases joint with
  | and => trivial
  | or => exact fun token htoken => (h token htoken).1

theorem EndsBefore.ne_sign (h : EndsBefore rest (.joined joint)) :
    ∀ token ∈ rest.head?, token ≠ joint.sign := by
  cases joint with
  | and => exact h
  | or => exact fun token htoken => (h token htoken).2

/-- A part ends before the sign that joins it. -/
theorem endsBefore_sign (tokens : List Token) : EndsBefore (joint.sign :: tokens) joint.below := by
  cases joint with
  | and => trivial
  | or => simp [EndsBefore, Joint.below, Joint.sign]

theorem readMore_of_end {sign : Token} {part : List Token → Reading}
    (h : ∀ token ∈ rest.head?, token ≠ sign) : readMore sign part bound rest = .ok ([], rest) := by
  cases bound with
  | zero => rfl
  | succ bound =>
    cases rest with
    | nil => rfl
    | cons token rest => simp [readMore, h token (by simp)]

theorem readMore_of_sign {sign : Token} {part : List Token → Reading} {tokens left : List Token}
    {first : Condition} {others : List Condition} (hfirst : part tokens = .ok (first, left))
    (hothers : readMore sign part bound left = .ok (others, rest)) :
    readMore sign part (bound + 1) (sign :: tokens) = .ok (first :: others, rest) := by
  simp [readMore, hfirst, hothers, bind, Except.bind, pure, Except.pure]

theorem readRun_of_parts {sign : Token} {group : List Condition → Condition}
    {part : List Token → Reading} {tokens left : List Token} {first : Condition}
    {others : List Condition} (hfirst : part tokens = .ok (first, left))
    (hothers : readMore sign part left.length left = .ok (others, rest)) :
    readRun sign group part tokens =
      .ok (if others.isEmpty then first else group (first :: others), rest) := by
  simp [readRun, hfirst, hothers, bind, Except.bind, pure, Except.pure]

end

/-- The phrase is read as its tree wherever it ends. -/
def IsRead (v : Vocabulary) {level : Level} (p : Phrase level) : Prop :=
  ∀ bound rest, p.tokens.length ≤ bound → EndsBefore rest level →
    reader v bound level (p.tokens ++ rest) = .ok (p.tree v, rest)

/-- Behind a sign that joins them, the parts of the phrase are read as further parts. -/
def AreRead (v : Vocabulary) {level : Level} (p : Phrase level) : Prop :=
  ∀ joint, level = .joined joint → ∀ bound more rest, p.tokens.length ≤ bound →
    p.tokens.length ≤ more → EndsBefore rest level →
      readMore joint.sign (reader v bound joint.below) (more + 1) (joint.sign :: p.tokens ++ rest) =
        .ok (p.parts v, rest)

/-- **An admissible phrase** is read as its tree. -/
theorem isRead_of_admissible {level : Level} (p : Phrase level) (h : p.Admissible v) :
    IsRead v p ∧ AreRead v p := by
  -- Operands are single parts: there is nothing to show about joined parts.
  induction p with
  | name text =>
    refine ⟨fun bound rest hbound _ => ?_, fun joint hlevel => nomatch hlevel⟩
    obtain ⟨bound, rfl⟩ := exists_of_length_le _ hbound
    have hnamed : ofName v text = .ok (.test (v.namedTest text)) := ofName_eq_ok_iff.mpr ⟨h, rfl⟩
    simp [reader, tokens, readOperand, hnamed, tree_name, bind, Except.bind, pure, Except.pure]
  | group inner ih =>
    refine ⟨fun bound rest hbound _ => ?_, fun joint hlevel => nomatch hlevel⟩
    obtain ⟨bound, rfl⟩ := exists_of_length_le _ hbound
    -- Inside of the parentheses the phrase ends before the closing one.
    have hinner : readAny (readOperand v bound) (inner.tokens ++ .closeParen :: rest) =
        .ok (inner.tree v, .closeParen :: rest) := by
      apply (ih h).1
      · simp only [tokens, List.length_cons, List.length_append, List.length_nil] at hbound
        omega
      · simp [EndsBefore]
    simp [reader, tokens, readOperand, hinner, tree_group, bind, Except.bind, pure, Except.pure]
  | not inner ih =>
    refine ⟨fun bound rest hbound _ => ?_, fun joint hlevel => nomatch hlevel⟩
    obtain ⟨bound, rfl⟩ := exists_of_length_le _ hbound
    have hinner : readOperand v bound (inner.tokens ++ rest) = .ok (inner.tree v, rest) :=
      (ih h).1 bound rest (Nat.le_of_succ_le_succ hbound) trivial
    simp [reader, tokens, readOperand, hinner, tree_not, bind, Except.bind, pure, Except.pure]
  | toggle inner ih =>
    refine ⟨fun bound rest hbound _ => ?_, fun joint hlevel => nomatch hlevel⟩
    obtain ⟨bound, rfl⟩ := exists_of_length_le _ hbound
    have hinner : readOperand v bound (inner.tokens ++ rest) = .ok (inner.tree v, rest) :=
      (ih h.2).1 bound rest (Nat.le_of_succ_le_succ hbound) trivial
    obtain ⟨test, htest⟩ : ∃ test, inner.tree v = .test test := (inner.isSingle_iff {}).mp h.1
    rw [htest] at hinner
    simp [reader, tokens, readOperand, hinner, tree_toggle h.1 htest, askToggle, bind, Except.bind,
      pure, Except.pure]
  | one joint part ih =>
    -- No sign follows, so there are no further parts.
    constructor
    · intro bound rest hbound hend
      have hpart := (ih h).1 bound rest hbound hend.below
      rw [reader_joined]
      exact readRun_of_parts hpart (readMore_of_end hend.ne_sign)
    · rintro _ ⟨⟩ bound more rest hbound _ hend
      have hpart := (ih h).1 bound rest hbound hend.below
      exact readMore_of_sign hpart (readMore_of_end hend.ne_sign)
  | more joint part others ihpart ihothers =>
    have hlength : (Phrase.more joint part others).tokens.length =
        part.tokens.length + others.tokens.length + 1 := by
      simp [tokens, Nat.add_assoc]
    -- The first part ends before the sign, and the other parts are read behind it.
    constructor
    · intro bound rest hbound hend
      have hpart := (ihpart h.1).1 bound (joint.sign :: others.tokens ++ rest) (by omega)
        (endsBefore_sign _)
      have hothers := (ihothers h.2).2 joint rfl bound (others.tokens ++ rest).length rest
        (by omega) (by simp) hend
      rw [reader_joined, tokens, List.append_assoc, readRun_of_parts hpart hothers]
      have hsome : (others.parts v).isEmpty = false := by cases others <;> rfl
      rw [hsome]
      rfl
    · rintro _ ⟨⟩ bound more rest hbound hmore hend
      have hpart := (ihpart h.1).1 bound (joint.sign :: others.tokens ++ rest) (by omega)
        (endsBefore_sign _)
      obtain ⟨more, rfl⟩ := exists_of_length_le _ hmore
      have hothers := (ihothers h.2).2 joint rfl bound more rest (by omega) (by omega) hend
      rw [tokens, List.cons_append, List.append_assoc]
      exact readMore_of_sign hpart hothers

/-- A row of tokens is read as what it derives. -/
theorem ofTokens_eq_ok_iff {tokens : List Token} {c : Condition} :
    ofTokens v tokens = .ok c ↔ Derives v (.joined .or) tokens c := by
  constructor
  · intro h
    unfold ofTokens at h
    split at h
    · contradiction
    · obtain ⟨⟨read, left⟩, hread, h⟩ := Except.bind_eq_ok h
      have hderived := readsDerived_readAny (readsDerived_readOperand _) _ _ _ hread
      split at h
      · rename_i heq
        cases heq
        cases h
        obtain ⟨used, hused, hderives⟩ := hderived
        rw [List.append_nil] at hused
        rwa [hused]
      · contradiction
  · rintro ⟨p, rfl, hadmissible, rfl⟩
    have hread : readAny (readOperand v p.tokens.length) (p.tokens ++ []) = .ok (p.tree v, []) :=
      (isRead_of_admissible p hadmissible).1 _ [] (Nat.le_refl _) (by simp [EndsBefore])
    rw [List.append_nil] at hread
    simp [ofTokens, p.tokens_ne_nil, hread, bind, Except.bind, pure, Except.pure]

end Condition

end VirtualPad
