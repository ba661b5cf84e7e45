import VirtualPad.Proofs.Grammar
import VirtualPad.Proofs.References

/-!
# Writing a condition down and reading it back

In full parentheses a condition is written with a sign between the parts of each group, parentheses
around them, and in front of a control the signs for the release and for the toggle.  The blanks
between the tokens do not matter.

* `Token.spells_write`: what is written for tokens spells them.
* `derives_tokens`: the grammar derives a condition from its full parentheses.
* `parse_grammar`: what an expression means, and that a condition in full parentheses means itself.
-/

namespace VirtualPad

/-! ## §1 Names and blanks -/

namespace Token

/-- What is split off as a name has only characters of a word. -/
theorem Spells.name {cs : List Char} {tokens : List Token} (h : Spells cs tokens) :
    ∀ text, .name text ∈ tokens → text.toList ≠ [] ∧ ∀ c ∈ text.toList, IsWordChar c := by
  induction h with
  | nil => simp
  | blank _ _ ih => exact ih
  | sign hc _ ih =>
    intro text hmem
    rcases List.mem_cons.mp hmem with rfl | hrest
    · simp [signs] at hc
    · exact ih text hrest
  | @word word _ _ _ hsome hword htoken _ _ ih =>
    intro text hmem
    rcases List.mem_cons.mp hmem with rfl | hrest
    · cases htoken with
      | keyword hmem _ => simp [keywords] at hmem
      | name _ =>
        rw [String.toList_ofList]
        exact ⟨hsome, hword⟩
    · exact ih text hrest

/-- Texts are put together where no word goes on. -/
theorem Spells.append {cs ds : List Char} {tokens others : List Token} (h : Spells cs tokens)
    (hothers : Spells ds others) (hend : ∀ c ∈ ds.head?, ¬ IsWordChar c) :
    Spells (cs ++ ds) (tokens ++ others) := by
  induction h with
  | nil => exact hothers
  | blank hc _ ih => exact .blank hc ih
  | sign hc _ ih => exact .sign hc ih
  | @word word cs token tokens hsome hword htoken hstop _ ih =>
    rw [List.append_assoc]
    refine .word hsome hword htoken ?_ ih
    cases cs with
    | nil => exact hend
    | cons c cs => exact hstop

/-- A word with an `@` is no keyword. -/
theorem standsFor_of_at {word : List Char} (h : '@' ∈ word) :
    StandsFor word (.name (String.ofList word)) := by
  refine .name fun entry hentry hword => ?_
  have hnone : ∀ entry ∈ keywords, '@' ∉ entry.1.toList := by decide
  apply hnone entry hentry
  rw [← (spelledLike_iff hentry).mp hword, foldCase, String.toList_ofList, String.toList_ofList]
  exact List.mem_map.mpr ⟨'@', h, by decide⟩

/-- The text is a single name. -/
def IsName (text : String) : Prop := Spells text.toList [.name text]

/-- It stays one when a user is put behind. -/
theorem IsName.at {name : String} (h : IsName name) (ref : UserRef) :
    IsName (name ++ "@" ++ ref.text) := by
  have hword : ∀ c ∈ (name ++ "@" ++ ref.text).toList, IsWordChar c := by
    intro c hc
    simp only [String.toList_append, List.mem_append] at hc
    rcases hc with (hname | hat) | huser
    · exact (h.name name (by simp)).2 c hname
    · obtain rfl : c = '@' := by simpa using hat
      exact isWordChar_iff.mpr (by decide)
    · have hplain := plain_of_isAlphanum (UserRef.isAlphanum_of_mem_text huser)
      exact isWordChar_iff.mpr ⟨hplain.1, hplain.2.1⟩
  have hspells := Spells.word (by simp) hword (standsFor_of_at (by simp)) (by simp) .nil
  rw [List.append_nil, String.ofList_toList] at hspells
  exact hspells

/-- The tokens with a blank behind each. -/
def write : List Token → String
  | [] => ""
  | token :: rest => token.text ++ " " ++ write rest

/-- A sign, or a text that is a single name. -/
def IsWritten : Token → Prop
  | .name text => IsName text
  | _ => True

theorem spells_text {token : Token} (h : token.IsWritten) : Spells token.text.toList [token] := by
  cases token with
  | name text => exact h
  | _ => exact .sign (by decide) .nil

/-- **What is written** spells the tokens that it was written for. -/
theorem spells_write {tokens : List Token} (h : ∀ token ∈ tokens, token.IsWritten) :
    Spells (write tokens).toList tokens := by
  induction tokens with
  | nil => exact .nil
  | cons token rest ih =>
    have hrest := ih fun other hother => h other (List.mem_cons_of_mem _ hother)
    have hblank : isBlank ' ' = true := by decide
    have hcs : (write (token :: rest)).toList = token.text.toList ++ ' ' :: (write rest).toList := by
      simp [write]
    rw [hcs]
    exact (spells_text (h token List.mem_cons_self)).append (.blank hblank hrest)
      (by simp [IsWordChar, hblank])

end Token

/-! ## §2 Tests -/

namespace Test

variable (v : Vocabulary) (t : Test)

/-- How the control is referred to, with the user if it has users. -/
def reference : String :=
  if (v.descriptor t.control).flags.ofUser then v.displayName t.control ++ "@" ++ t.user.text
  else v.displayName t.control

/-- The signs for a release and for the toggle, and the control. -/
def tokens : List Token :=
  (if t.desired then [] else [.not]) ++ (if t.toggle then [.toggle] else []) ++
    [.name (t.reference v)]

/-- The name of the control is a single word that it is found by, and there is a text for the user.
Controls without users have the first one. -/
structure Writable : Prop where
  isName : Token.IsName (v.displayName t.control)
  found : v.readRef (v.displayName t.control) = .ok (t.control, none)
  user : t.user.hasText = true
  noUser : (v.descriptor t.control).flags.ofUser = false → t.user = .index 0

section

variable {v : Vocabulary} {t : Test}

/-- A single word has no blanks, and an `@` in it would have been taken for that of a user. -/
theorem Writable.isWhole (h : t.Writable v) : IsWhole (v.displayName t.control) ∧
    v.resolve? (v.displayName t.control) = some t.control := by
  obtain ⟨hsome, hword⟩ := h.isName.name (v.displayName t.control) (by simp)
  have htrimmed : IsTrimmed (v.displayName t.control).toList :=
    isTrimmed_of_forall fun c hc => (hword c hc).1
  have hunsplit : '@' ∉ (v.displayName t.control).toList := by
    intro hsplit
    obtain ⟨front, behind, hcs, hfront⟩ := List.eq_append_cons_of_mem hsplit
    obtain ⟨-, ref, -, href⟩ :=
      (Vocabulary.readRef_at_iff (htrimmed.trans hcs) hfront).mp h.found
    contradiction
  obtain ⟨-, hresolved⟩ := (Vocabulary.readRef_plain_iff htrimmed hsome hunsplit).mp h.found
  rw [htrimmed, String.ofList_toList] at hresolved
  exact ⟨⟨htrimmed, hunsplit⟩, hresolved⟩

/-- The reference to the control is a name, and it is read as the control with its user. -/
theorem Writable.reference (h : t.Writable v) : Token.IsName (t.reference v) ∧
    ∃ user, v.readRef (t.reference v) = .ok (t.control, user) ∧
      t.user = if (v.descriptor t.control).flags.ofUser then user.getD (.index 0) else .index 0 := by
  obtain ⟨hwhole, hresolved⟩ := h.isWhole
  unfold Test.reference
  split
  · exact ⟨h.isName.at t.user, some t.user, Vocabulary.readRef_at hwhole hresolved h.user, rfl⟩
  · rename_i hnone
    exact ⟨h.isName, none, h.found, h.noUser (by simpa using hnone)⟩

/-- The phrase of the reference has the test as its tree, up to the signs. -/
theorem Writable.namedTest (h : t.Writable v) :
    v.namedTest (t.reference v) = { control := t.control, user := t.user } := by
  obtain ⟨-, user, hread, huser⟩ := h.reference
  simp [Vocabulary.namedTest, hread, huser]

end

end Test

/-! ## §3 Conditions in full parentheses -/

namespace Condition

variable (v : Vocabulary)

mutual

/-- The condition with every group in parentheses. -/
def tokens : Condition → List Token
  | .test t => t.tokens v
  | .all parts => .openParen :: joinedTokens .and parts ++ [.closeParen]
  | .any parts => .openParen :: joinedTokens .or parts ++ [.closeParen]

/-- Parts with the sign of the joint between them. -/
def joinedTokens (joint : Joint) : List Condition → List Token
  | [] => []
  | [c] => c.tokens
  | c :: next :: rest => c.tokens ++ joint.sign :: joinedTokens joint (next :: rest)

end

/-- The text of a condition in full parentheses. -/
def text (c : Condition) : String := Token.write (c.tokens v)

mutual

/-- The tests can be written, and every group has at least two parts. -/
def Writable : Condition → Prop
  | .test t => t.Writable v
  | .all parts => 2 ≤ parts.length ∧ EachWritable parts
  | .any parts => 2 ≤ parts.length ∧ EachWritable parts

def EachWritable : List Condition → Prop
  | [] => True
  | c :: rest => c.Writable ∧ EachWritable rest

end

section

variable {v} {row : List Token}

theorem ne_nil_of_many {parts : List Condition} (h : 2 ≤ parts.length) : parts ≠ [] := by
  rintro rfl
  contradiction

/-- An operand stands for a part of either joint. -/
theorem Derives.below {c : Condition} (h : Derives v .operand row c) (joint : Joint) :
    Derives v joint.below row c := by
  obtain ⟨p, htokens, hadmissible, htree⟩ := h
  cases joint with
  | and => exact ⟨p, htokens, hadmissible, htree⟩
  | or => exact ⟨.one .and p, htokens, hadmissible, htree⟩

/-- Parts in parentheses are a group, if there are at least two. -/
theorem DerivesParts.group {joint : Joint} {parts : List Condition}
    (h : DerivesParts v joint row parts) (hmany : 2 ≤ parts.length) :
    Derives v .operand (.openParen :: row ++ [.closeParen]) (joint.group parts) := by
  obtain ⟨p, rfl, hadmissible, rfl⟩ := h
  have htree : p.tree v = joint.group (p.parts v) := by
    cases p with
    | one joint part => simp [Phrase.parts_one] at hmany
    | more joint part rest => exact Phrase.tree_more joint part rest
  cases joint with
  | and => exact ⟨.group (.one .or p), rfl, hadmissible, htree⟩
  | or => exact ⟨.group p, rfl, hadmissible, htree⟩

/-- The signs ask for the release and for the toggle of what the name stands for. -/
theorem derives_test {t : Test} (h : t.Writable v) : Derives v .operand (t.tokens v) (.test t) := by
  -- The name stands for the plain test; each sign changes the one field that it is about.
  obtain ⟨-, user, hread, -⟩ := h.reference
  have hname := h.namedTest
  obtain ⟨control, asked, desired, toggle⟩ := t
  generalize hreference : Test.reference v _ = reference at hread hname
  have hfound : (Phrase.name reference).Admissible v := ⟨_, hread⟩
  -- Behind signs the name stands for the test that they ask for.
  have hbehind : ∀ signs : Signs, (Phrase.name reference).behind v signs =
      .test { control, user := asked, desired := !signs.negated, toggle := signs.toggle } := by
    intro signs
    rw [Phrase.behind, hname]
  cases desired with
  | true =>
    cases toggle with
    | false =>
      exact ⟨.name reference, by simp [Phrase.tokens, Test.tokens, hreference], hfound, hbehind _⟩
    | true =>
      exact ⟨.toggle (.name reference), by simp [Phrase.tokens, Test.tokens, hreference],
        ⟨rfl, hfound⟩, hbehind _⟩
  | false =>
    cases toggle with
    | false =>
      exact ⟨.not (.name reference), by simp [Phrase.tokens, Test.tokens, hreference], hfound,
        hbehind _⟩
    | true =>
      exact ⟨.not (.toggle (.name reference)),
        by simp [Phrase.tokens, Test.tokens, hreference], ⟨rfl, hfound⟩, hbehind _⟩

mutual

/-- The full parentheses derive the condition. -/
theorem derives_tokens : ∀ c : Condition, c.Writable v → Derives v .operand (c.tokens v) c
  | .test _, h => derives_test h
  | .all parts, h => (derives_joinedTokens .and parts (ne_nil_of_many h.1) h.2).group h.1
  | .any parts, h => (derives_joinedTokens .or parts (ne_nil_of_many h.1) h.2).group h.1

theorem derives_joinedTokens (joint : Joint) : ∀ parts : List Condition, parts ≠ [] →
    EachWritable v parts → DerivesParts v joint (joinedTokens v joint parts) parts
  | [], hsome, _ => absurd rfl hsome
  | [c], _, h => by
    obtain ⟨p, htokens, hadmissible, htree⟩ := (derives_tokens c h.1).below joint
    exact ⟨.one joint p, htokens, hadmissible, by rw [Phrase.parts_one, htree]⟩
  | c :: next :: rest, _, h => by
    obtain ⟨p, htokens, hadmissible, htree⟩ := (derives_tokens c h.1).below joint
    obtain ⟨q, hothers, hrest, hparts⟩ :=
      derives_joinedTokens joint (next :: rest) (List.cons_ne_nil _ _) h.2
    refine ⟨.more joint p q, ?_, ⟨hadmissible, hrest⟩, by rw [Phrase.parts_more, htree, hparts]⟩
    rw [joinedTokens, ← htokens, ← hothers, Phrase.tokens]

end

theorem isWritten_test {t : Test} (h : t.Writable v) : ∀ token ∈ t.tokens v, token.IsWritten := by
  intro token htoken
  simp only [Test.tokens, List.mem_append, List.mem_singleton] at htoken
  rcases htoken with (hnot | htoggle) | rfl
  · split at hnot
    · contradiction
    · obtain rfl := List.mem_singleton.mp hnot
      trivial
  · split at htoggle
    · obtain rfl := List.mem_singleton.mp htoggle
      trivial
    · contradiction
  · exact h.reference.1

mutual

/-- Every name that is written is a single one. -/
theorem isWritten_tokens : ∀ c : Condition, c.Writable v → ∀ token ∈ c.tokens v, token.IsWritten
  | .test _, h => isWritten_test h
  | .all parts, h => by
    have hparts := isWritten_joinedTokens .and parts h.2
    simpa [tokens, or_imp, forall_and, Token.IsWritten] using hparts
  | .any parts, h => by
    have hparts := isWritten_joinedTokens .or parts h.2
    simpa [tokens, or_imp, forall_and, Token.IsWritten] using hparts

theorem isWritten_joinedTokens (joint : Joint) : ∀ parts : List Condition,
    EachWritable v parts → ∀ token ∈ joinedTokens v joint parts, token.IsWritten
  | [], _ => by simp [joinedTokens]
  | [c], h => isWritten_tokens c h.1
  | c :: next :: rest, h => by
    have hfirst := isWritten_tokens c h.1
    have hothers := isWritten_joinedTokens joint (next :: rest) h.2
    have hsign : joint.sign.IsWritten := by cases joint <;> trivial
    simpa [joinedTokens, or_imp, forall_and, hsign] using ⟨hfirst, hothers⟩

end

end

/-! ## §4 What an expression means -/

/-- **The grammar of conditions.**  A text is read as a condition exactly if its tokens are those of
an admissible phrase that has the condition as its tree.  So a condition whose tests can be written
and whose groups have at least two parts is read back from its text in full parentheses, however
that is spaced. -/
theorem parse_grammar :
    (∀ (text : String) (c : Condition), parse v text = .ok c ↔
      ∃ p : Phrase (.joined .or), Token.Spells text.toList p.tokens ∧ p.Admissible v ∧
        p.tree v = c) ∧
    ∀ c : Condition, c.Writable v → Token.Spells (c.text v).toList (c.tokens v) ∧
      ∀ text : String, Token.Spells text.toList (c.tokens v) → parse v text = .ok c := by
  have hparse : ∀ (text : String) (c : Condition), parse v text = .ok c ↔
      ∃ p : Phrase (.joined .or), Token.Spells text.toList p.tokens ∧ p.Admissible v ∧
        p.tree v = c := by
    intro text c
    rw [parse, ofTokens_eq_ok_iff, Derives]
    simp only [Token.spells_iff, eq_comm]
  refine ⟨hparse, fun c h => ⟨Token.spells_write (isWritten_tokens c h), fun text htext => ?_⟩⟩
  obtain ⟨p, htokens, hadmissible, htree⟩ := derives_tokens c h
  exact (hparse text c).mpr ⟨.one .or (.one .and p), htokens ▸ htext, hadmissible, htree⟩

/-- For example, a pad button's toggle is asked of the active user while a key is up. -/
theorem parse_grammar_toggled :
    parse {} "(~PadA@active & !Escape)" =
      .ok (.all [.test ⟨⟨512⟩, .active, true, true⟩, .test ⟨⟨27⟩, .index 0, false, false⟩]) := by
  have hwritable : Writable {}
      (.all [.test ⟨⟨512⟩, .active, true, true⟩, .test ⟨⟨27⟩, .index 0, false, false⟩]) :=
    ⟨by decide,
      ⟨Token.spells_iff.mpr (by decide +kernel), by decide +kernel, by decide, by decide +kernel⟩,
      ⟨Token.spells_iff.mpr (by decide +kernel), by decide +kernel, by decide, by decide +kernel⟩,
      trivial⟩
  exact ((parse_grammar {}).2 _ hwritable).2 _ (Token.spells_iff.mpr (by decide +kernel))

end Condition

end VirtualPad
