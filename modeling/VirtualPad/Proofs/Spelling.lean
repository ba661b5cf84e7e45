import Mathlib.Data.List.Forall2
import VirtualPad.Proofs.References

/-!
# Words and signs

The text of a condition is made up of signs and words.  A sign is a single character.  A word goes on
until a blank or a sign follows, or the text ends; the words `and`, `or` and `not` stand for the signs
`&`, `|` and `!`, in any letter case, and all others are names.

* `Token.standsFor_iff`: what words are taken for.
* `Token.spells_iff`: the tokens of a text are those that its characters make up.
-/

namespace VirtualPad

/-! ## §1 Letters -/

/-- A character folds to a small letter if it is that letter or its capital, and only then. -/
theorem toLower_eq_iff {c letter : Char} (h : letter.isLower = true) :
    c.toLower = letter ↔ c = letter ∨ c = letter.toUpper := by
  have hbound : letter.toNat < 123 := by
    delta Char.isLower at h
    simp only [Bool.and_eq_true, decide_eq_true_eq, UInt32.le_iff_toNat_le] at h
    exact Nat.lt_succ_of_le h.2
  have hletter : letter.toLower = letter ∧ letter.toUpper.toLower = letter :=
    forall_char_below (P := fun c => c.isLower = true → c.toLower = c ∧ c.toUpper.toLower = c)
      (by decide +kernel) hbound h
  constructor
  · rintro rfl
    by_cases hupper : c.isUpper = true
    · right
      have hbound : c.toNat < 91 := by
        have hbetween : 'A'.val ≤ c.val ∧ c.val ≤ 'Z'.val := of_decide_eq_true hupper
        exact Nat.lt_succ_of_le hbetween.2
      exact forall_char_below (P := fun c => c.isUpper = true → c = c.toLower.toUpper)
        (by decide +kernel) hbound hupper
    · left
      unfold Char.toLower
      rw [dif_neg]
      exact fun hbetween => hupper (decide_eq_true hbetween)
  · rintro (rfl | rfl)
    · exact hletter.1
    · exact hletter.2

namespace Token

/-! ## §2 What is spelled -/

/-- The characters that are tokens by themselves. -/
def signs : List (Char × Token) :=
  [('(', .openParen), (')', .closeParen), ('&', .and), ('|', .or), ('!', .not), ('~', .toggle)]

/-- The words that stand for signs. -/
def keywords : List (String × Token) := [("and", .and), ("or", .or), ("not", .not)]

/-- The character can be a part of a word. -/
def IsWordChar (c : Char) : Prop := isBlank c = false ∧ ∀ token, (c, token) ∉ signs

/-- The word is the keyword, with small and capital letters as they come. -/
def SpelledLike (word : List Char) (keyword : String) : Prop :=
  List.Forall₂ (fun c letter => c = letter ∨ c = letter.toUpper) word keyword.toList

/-- A keyword stands for its sign, and any other word is a name. -/
inductive StandsFor (word : List Char) : Token → Prop where
  | keyword {keyword : String} {token : Token} (hmem : (keyword, token) ∈ keywords)
      (hword : SpelledLike word keyword) : StandsFor word token
  | name (hword : ∀ entry ∈ keywords, ¬ SpelledLike word entry.1) :
      StandsFor word (.name (String.ofList word))

/-- The tokens that characters make up.  Blanks only keep words apart; a word ends where a blank or a
sign follows, or the text ends. -/
inductive Spells : List Char → List Token → Prop where
  | nil : Spells [] []
  | blank {c : Char} {cs : List Char} {tokens : List Token} (hc : isBlank c = true)
      (h : Spells cs tokens) : Spells (c :: cs) tokens
  | sign {c : Char} {token : Token} {cs : List Char} {tokens : List Token}
      (hc : (c, token) ∈ signs) (h : Spells cs tokens) : Spells (c :: cs) (token :: tokens)
  | word {word cs : List Char} {token : Token} {tokens : List Token} (hsome : word ≠ [])
      (hword : ∀ c ∈ word, IsWordChar c) (htoken : StandsFor word token)
      (hend : ∀ c ∈ cs.head?, ¬ IsWordChar c) (h : Spells cs tokens) :
      Spells (word ++ cs) (token :: tokens)

/-! ## §3 What is split off -/

theorem sign?_eq_some_iff {c : Char} {token : Token} : sign? c = some token ↔ (c, token) ∈ signs := by
  unfold sign? signs
  split
  all_goals simp_all [eq_comm]

theorem isWordChar_iff {c : Char} : IsWordChar c ↔ isBlank c = false ∧ sign? c = none := by
  simp only [IsWordChar, Option.eq_none_iff_forall_ne_some, ne_eq, sign?_eq_some_iff]

/-- The words that fold to a keyword are those that it is written as. -/
theorem spelledLike_iff {entry : String × Token} (hentry : entry ∈ keywords) {word : List Char} :
    SpelledLike word entry.1 ↔ foldCase (String.ofList word) = entry.1 := by
  have hsmall : ∀ letter ∈ entry.1.toList, letter.isLower = true := by
    have hall : keywords.all (fun entry => entry.1.toList.all Char.isLower) = true := by decide
    exact List.all_eq_true.mp (List.all_eq_true.mp hall entry hentry)
  rw [← String.toList_inj, foldCase, String.toList_ofList, String.toList_ofList, SpelledLike]
  generalize entry.1.toList = letters at hsmall
  induction word generalizing letters with
  | nil => cases letters <;> simp
  | cons c word ih =>
    cases letters with
    | nil => simp
    | cons letter letters =>
      obtain ⟨hletter, hletters⟩ := List.forall_mem_cons.mp hsmall
      rw [List.forall₂_cons, List.map_cons, List.cons_eq_cons, toLower_eq_iff hletter]
      exact and_congr_right' (ih letters hletters)

/-- Words are taken for what they stand for. -/
theorem standsFor_iff {word : List Char} {token : Token} :
    StandsFor word token ↔ ofWord (String.ofList word) = token := by
  constructor
  · rintro (⟨hmem, hword⟩ | hword)
    · have hfolded := (spelledLike_iff hmem).mp hword
      simp only [keywords, List.mem_cons, Prod.mk.injEq, List.not_mem_nil, or_false] at hmem
      rcases hmem with ⟨rfl, rfl⟩ | ⟨rfl, rfl⟩ | ⟨rfl, rfl⟩ <;> simp [ofWord, hfolded]
    · have hfolded := fun entry hentry h => hword entry hentry ((spelledLike_iff hentry).mpr h)
      simp only [keywords, List.forall_mem_cons] at hfolded
      obtain ⟨hand, hor, hnot, -⟩ := hfolded
      simp [ofWord, if_neg hand, if_neg hor, if_neg hnot]
  · rintro rfl
    have hkeyword : ∀ entry ∈ keywords, foldCase (String.ofList word) = entry.1 →
        StandsFor word entry.2 :=
      fun entry hentry h => .keyword hentry ((spelledLike_iff hentry).mpr h)
    simp only [keywords, List.forall_mem_cons] at hkeyword
    obtain ⟨hand, hor, hnot, -⟩ := hkeyword
    unfold ofWord
    simp only [beq_iff_eq]
    split
    · exact hand ‹_›
    · split
      · exact hor ‹_›
      · split
        · exact hnot ‹_›
        · refine .name fun entry hentry h => ?_
          have hfolded := (spelledLike_iff hentry).mp h
          simp only [keywords, List.mem_cons, List.not_mem_nil, or_false] at hentry
          rcases hentry with rfl | rfl | rfl <;> contradiction

theorem isBlank_of_sign {c : Char} {token : Token} (h : (c, token) ∈ signs) : isBlank c = false := by
  have hall : ∀ entry ∈ signs, isBlank entry.1 = false := by decide
  exact hall _ h

/-- A word that has begun ends where no character of a word follows. -/
theorem scan_collected (collected : List Char) {cs : List Char}
    (hend : ∀ c ∈ cs.head?, ¬ IsWordChar c) :
    scan collected cs = ofCollected collected ++ scan [] cs := by
  cases cs with
  | nil => simp [scan, ofCollected]
  | cons c rest =>
    by_cases hblank : isBlank c = true
    · simp [scan, hblank, ofCollected]
    · cases hsign : sign? c with
      | some token => simp [scan, hblank, hsign, ofCollected]
      | none => exact absurd (isWordChar_iff.mpr ⟨by simpa using hblank, hsign⟩) (hend c (by simp))

/-- The characters of a word are collected. -/
theorem scan_word {word : List Char} (hword : ∀ c ∈ word, IsWordChar c)
    (collected cs : List Char) :
    scan collected (word ++ cs) = scan (word.reverse ++ collected) cs := by
  induction word generalizing collected with
  | nil => rfl
  | cons c word ih =>
    obtain ⟨hblank, hsign⟩ := isWordChar_iff.mp (hword c List.mem_cons_self)
    rw [List.cons_append, scan, if_neg (by simp [hblank]), hsign]
    simp only [ih fun c hc => hword c (List.mem_cons_of_mem _ hc), List.reverse_cons,
      List.append_assoc, List.singleton_append]

/-- Characters are split into the tokens that they make up. -/
theorem scan_of_spells {cs : List Char} {tokens : List Token} (h : Spells cs tokens) :
    scan [] cs = tokens := by
  induction h with
  | nil => rfl
  | blank hc _ ih => simp [scan, hc, ofCollected, ih]
  | sign hc _ ih => simp [scan, isBlank_of_sign hc, sign?_eq_some_iff.mpr hc, ofCollected, ih]
  | @word word cs token tokens hsome hword htoken hend _ ih =>
    rw [scan_word hword, List.append_nil, scan_collected _ hend, ih, ← standsFor_iff.mp htoken]
    obtain ⟨last, front, hreverse⟩ := List.exists_cons_of_ne_nil (List.reverse_ne_nil_iff.mpr hsome)
    have hback : (last :: front).reverse = word := by rw [← hreverse, List.reverse_reverse]
    rw [hreverse, ofCollected, hback]
    rfl

/-- What is split off makes up the characters, the word that has begun included. -/
theorem spells_scan (collected : List Char) (hcollected : ∀ c ∈ collected, IsWordChar c)
    (cs : List Char) : Spells (collected.reverse ++ cs) (scan collected cs) := by
  -- Where the word that has begun ends, its token comes before those of the rest.
  have hends : ∀ (collected cs : List Char) {tokens : List Token},
      (∀ c ∈ collected, IsWordChar c) → (∀ c ∈ cs.head?, ¬ IsWordChar c) → Spells cs tokens →
      Spells (collected.reverse ++ cs) (ofCollected collected ++ tokens) := by
    intro collected cs tokens hcollected hend h
    cases collected with
    | nil => exact h
    | cons c rest =>
      exact .word (by simp) (fun c hc => hcollected c (List.mem_reverse.mp hc)) (standsFor_iff.mpr rfl)
        hend h
  induction cs generalizing collected with
  | nil => simpa [scan] using hends collected [] hcollected (by simp) .nil
  | cons c rest ih =>
    unfold scan
    split
    · rename_i hblank
      refine hends collected (c :: rest) hcollected ?_ (.blank hblank (ih [] (by simp)))
      simp [IsWordChar, hblank]
    · rename_i hblank
      split
      · rename_i token hsign
        refine hends collected (c :: rest) hcollected ?_
          (.sign (sign?_eq_some_iff.mp hsign) (ih [] (by simp)))
        simp [isWordChar_iff, hsign]
      · rename_i hsign
        have hword : ∀ d ∈ c :: collected, IsWordChar d := by
          intro d hd
          rcases List.mem_cons.mp hd with rfl | hold
          · exact isWordChar_iff.mpr ⟨by simpa using hblank, hsign⟩
          · exact hcollected d hold
        simpa using ih (c :: collected) hword

/-- **The tokens of a text** are the ones that its characters make up. -/
theorem spells_iff {text : String} {tokens : List Token} :
    Spells text.toList tokens ↔ ofText text = tokens := by
  constructor
  · exact scan_of_spells
  · rintro rfl
    exact spells_scan [] (by simp) text.toList

end Token

end VirtualPad
