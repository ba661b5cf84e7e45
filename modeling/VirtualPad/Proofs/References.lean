import Mathlib.Data.List.DropRight
import VirtualPad.Condition.Expression
import VirtualPad.Proofs.Registration

/-!
# Writing a control down and reading it back

A control is referred to by its name, with the user after an `@` if there is one.  Reading takes the
blanks off both ends and splits at the first `@`, so it finds a name again only if nothing of that
touches the name.  The built-in names are all of this kind.  Custom names can be any texts, and those
that are not cannot be referred to.

* `UserRef.parse_text`: what is written for a user is read back.
* `readRef_name`, `readRef_at`: a whole name is found again, with and without a user.
* `reading_back`: the controls that can be written down again are exactly those with whole names.
-/

namespace VirtualPad

/-! ## §1 Blanks at the ends -/

/-- The characters have no blanks at either end. -/
def IsTrimmed (cs : List Char) : Prop := trimBlanks cs = cs

theorem trimBlanks_eq (cs : List Char) :
    trimBlanks cs = (cs.dropWhile isBlank).rdropWhile isBlank := rfl

theorem trimBlanks_sublist (cs : List Char) : (trimBlanks cs).Sublist (cs.dropWhile isBlank) :=
  (List.rdropWhile_prefix isBlank _).sublist

theorem trimBlanks_sublist_self (cs : List Char) : (trimBlanks cs).Sublist cs :=
  (trimBlanks_sublist cs).trans (List.dropWhile_sublist isBlank)

/-- What loses no character when blanks are taken off has none at its ends. -/
theorem IsTrimmed.of_length {cs : List Char} (h : (trimBlanks cs).length = cs.length) :
    IsTrimmed cs :=
  (trimBlanks_sublist_self cs).eq_of_length h

/-- In particular it does not begin with one. -/
theorem IsTrimmed.dropWhile_eq {cs : List Char} (h : IsTrimmed cs) : cs.dropWhile isBlank = cs := by
  apply (List.dropWhile_sublist isBlank).eq_of_length_le
  have hlength := (trimBlanks_sublist cs).length_le
  rwa [h] at hlength

/-- Blanks are taken off the front only, if what stands behind begins and ends with other
characters. -/
theorem trimBlanks_append (front : List Char) {c : Char} {rest : List Char}
    (hfirst : isBlank c = false) (hlast : isBlank ((c :: rest).getLast (by simp)) = false) :
    trimBlanks (front ++ c :: rest) = front.dropWhile isBlank ++ c :: rest := by
  have hdrop : (front ++ c :: rest).dropWhile isBlank = front.dropWhile isBlank ++ c :: rest := by
    rw [List.dropWhile_append, List.dropWhile_cons_of_neg (by simp [hfirst])]
    split
    · rename_i hnone
      rw [List.isEmpty_iff.mp hnone, List.nil_append]
    · rfl
  rw [trimBlanks_eq, hdrop, List.rdropWhile_eq_self_iff]
  intro hne
  rw [List.getLast_append_of_ne_nil hne (by simp)]
  simp [hlast]

/-- So nothing is taken off where no character is blank. -/
theorem isTrimmed_of_forall {cs : List Char} (h : ∀ c ∈ cs, isBlank c = false) : IsTrimmed cs := by
  cases cs with
  | nil => rfl
  | cons c rest =>
    exact trimBlanks_append [] (h c List.mem_cons_self) (h _ (List.getLast_mem _))

/-- Characters that are no blanks stay. -/
theorem mem_trimBlanks {cs : List Char} {c : Char} (hc : isBlank c = false) (hmem : c ∈ cs) :
    c ∈ trimBlanks cs := by
  have hkept : ∀ cs : List Char, c ∈ cs → c ∈ cs.dropWhile isBlank := by
    intro cs hmem
    rw [← List.takeWhile_append_dropWhile (p := isBlank) (l := cs)] at hmem
    apply (List.mem_append.mp hmem).resolve_left
    intro hblank
    simp [List.mem_takeWhile_imp hblank] at hc
  rw [trimBlanks, List.mem_reverse]
  apply hkept
  rw [List.mem_reverse]
  exact hkept cs hmem

/-! ## §2 Users -/

/-- What holds of the first characters one by one holds of each of them. -/
theorem forall_char_below {P : Char → Prop} {bound : Nat} (h : ∀ n < bound, P (Char.ofNat n))
    {c : Char} (hc : c.toNat < bound) : P c := by
  rw [← Char.ofNat_toNat c]
  exact h c.toNat hc

/-- Letters and digits are neither blanks nor signs. -/
theorem plain_of_isAlphanum {c : Char} (h : c.isAlphanum = true) :
    isBlank c = false ∧ Token.sign? c = none ∧ c ≠ '@' := by
  have hbound : c.toNat < 123 := by
    delta Char.isAlphanum Char.isAlpha Char.isUpper Char.isLower Char.isDigit at h
    simp only [Bool.or_eq_true, Bool.and_eq_true, decide_eq_true_eq, ge_iff_le,
      UInt32.le_iff_toNat_le] at h
    apply Nat.lt_succ_of_le
    rcases h with (⟨-, hle⟩ | ⟨-, hle⟩) | ⟨-, hle⟩
    · exact Nat.le_trans hle (by decide)
    · exact Nat.le_trans hle (by decide)
    · exact Nat.le_trans hle (by decide)
  exact forall_char_below
    (P := fun c => c.isAlphanum = true → isBlank c = false ∧ Token.sign? c = none ∧ c ≠ '@')
    (by decide +kernel) hbound h

theorem isAlphanum_of_isDigit {c : Char} (h : c.isDigit = true) : c.isAlphanum = true := by
  simp [Char.isAlphanum, h]

/-- Digits have no letter case. -/
theorem toLower_of_isDigit {c : Char} (h : c.isDigit = true) : c.toLower = c :=
  forall_char_below (P := fun c => c.isDigit = true → c.toLower = c) (by decide +kernel)
    (Nat.lt_succ_of_le (Char.isDigit_iff_toNat.mp h).2) h

/-- Digits are read as the number they were written for. -/
theorem wordValue?_toDigits {n : Nat} (hn : n < twoTo 64) :
    wordValue? (Nat.toDigits 10 n) = some n := by
  have hdigit : ∀ c ∈ Nat.toDigits 10 n, c.isDigit = true :=
    fun c hc => Nat.isDigit_of_mem_toDigits (by decide) (by decide) hc
  have hvalue : digitsValue? (Nat.toDigits 10 n) = some n := by
    unfold digitsValue?
    rw [if_neg (by simp), if_pos (List.all_eq_true.mpr hdigit)]
    exact congrArg some (Nat.ofDigitChars_toDigits (by decide) (by decide))
  unfold wordValue?
  split
  · -- A plus sign is no digit.
    rename_i rest hplus
    have hsign := hdigit '+' (by simp [hplus])
    contradiction
  · simp [hvalue, hn]

/-- Nothing else is read as a number. -/
theorem wordValue?_eq_none {cs : List Char} {c : Char} (hdigit : c.isDigit = false) (hsign : c ≠ '+')
    (hmem : c ∈ cs) : wordValue? cs = none := by
  have hnone : ∀ digits : List Char, c ∈ digits → digitsValue? digits = none := by
    intro digits hc
    have hall : digits.all Char.isDigit = false := List.all_eq_false.mpr ⟨c, hc, by simp [hdigit]⟩
    simp [digitsValue?, hall]
  unfold wordValue?
  dsimp only
  split
  · rw [hnone _ (by simpa [hsign] using hmem)]
    rfl
  · rw [hnone _ hmem]
    rfl

/-- Texts differ if only one of them has a certain character. -/
theorem beq_eq_false_of_mem {a b : String} {c : Char} (h : c ∈ a.toList ∧ c ∉ b.toList ∨
    c ∉ a.toList ∧ c ∈ b.toList) : (a == b) = false := by
  rw [beq_eq_false_iff_ne]
  rintro rfl
  rcases h with ⟨hin, hout⟩ | ⟨hout, hin⟩
  · exact hout hin
  · exact hout hin

namespace UserRef

/-- No user is written with an `@`. -/
theorem at_not_mem_of_parse {s : String} {ref : UserRef} (h : parse s = .ok ref) :
    '@' ∉ s.toList := by
  intro hmem
  have hword : '@' ∈ (foldCase (trimText s)).toList := by
    simp only [foldCase, trimText, String.toList_ofList]
    exact List.mem_map.mpr ⟨'@', mem_trimBlanks (by decide) hmem, by decide⟩
  unfold parse at h
  generalize foldCase (trimText s) = word at h hword
  have hactive : (word == "active") = false := beq_eq_false_of_mem (.inl ⟨hword, by decide⟩)
  have hall : (word == "all") = false := beq_eq_false_of_mem (.inl ⟨hword, by decide⟩)
  have hnumber : wordValue? word.toList = none :=
    wordValue?_eq_none (by decide) (by decide) hword
  simp [hnumber, hactive, hall] at h

/-- Users are written with letters and digits. -/
theorem isAlphanum_of_mem_text {ref : UserRef} {c : Char} (hc : c ∈ ref.text.toList) :
    c.isAlphanum = true := by
  cases ref with
  | active =>
    have hletters : UserRef.active.text.toList.all Char.isAlphanum = true := by decide
    exact List.all_eq_true.mp hletters c hc
  | everyone =>
    have hletters : UserRef.everyone.text.toList.all Char.isAlphanum = true := by decide
    exact List.all_eq_true.mp hletters c hc
  | index user =>
    have hdigits : (UserRef.index user).text.toList = Nat.toDigits 10 (user + 1) := Nat.toList_repr
    rw [hdigits] at hc
    exact isAlphanum_of_isDigit (Nat.isDigit_of_mem_toDigits (by decide) (by decide) hc)

/-- **What is written for a user** is read back. -/
theorem parse_text {ref : UserRef} (h : ref.hasText = true) : parse ref.text = .ok ref := by
  cases ref with
  | active => decide
  | everyone => decide
  | index user =>
    have hin : user + 1 < twoTo 64 := by simpa [hasText] using h
    have hdigit : ∀ c ∈ Nat.toDigits 10 (user + 1), c.isDigit = true :=
      fun c hc => Nat.isDigit_of_mem_toDigits (by decide) (by decide) hc
    have hword : (foldCase (trimText (UserRef.index user).text)).toList =
        Nat.toDigits 10 (user + 1) := by
      have htrimmed : IsTrimmed (Nat.toDigits 10 (user + 1)) := isTrimmed_of_forall fun c hc =>
        (plain_of_isAlphanum (isAlphanum_of_isDigit (hdigit c hc))).1
      simp only [foldCase, trimText, String.toList_ofList, text, Nat.toList_repr]
      rw [htrimmed, List.map_congr_left fun c hc => toLower_of_isDigit (hdigit c hc), List.map_id']
    unfold parse
    generalize foldCase (trimText (UserRef.index user).text) = word at hword
    -- No letter is a digit.
    have hletter : ∀ c : Char, c.isDigit = false → c ∉ word.toList := by
      intro c hc hmem
      rw [hword] at hmem
      simp [hdigit c hmem] at hc
    have hactive : (word == "active") = false :=
      beq_eq_false_of_mem (.inr ⟨hletter 'a' (by decide), by decide⟩)
    have hall : (word == "all") = false :=
      beq_eq_false_of_mem (.inr ⟨hletter 'a' (by decide), by decide⟩)
    simp [hactive, hall, hword, wordValue?_toDigits hin]

end UserRef

/-! ## §3 Names -/

theorem splitAtSign_of_not_mem {cs : List Char} (h : '@' ∉ cs) : splitAtSign cs = (cs, none) := by
  induction cs with
  | nil => rfl
  | cons c rest ih =>
    obtain ⟨hc, hrest⟩ := not_or.mp (mt List.mem_cons.mpr h)
    simp [splitAtSign, ih hrest, Ne.symm hc]

theorem splitAtSign_append {name : List Char} (h : '@' ∉ name) (rest : List Char) :
    splitAtSign (name ++ '@' :: rest) = (name, some rest) := by
  induction name with
  | nil => rfl
  | cons c name ih =>
    obtain ⟨hc, hname⟩ := not_or.mp (mt List.mem_cons.mpr h)
    simp [splitAtSign, ih hname, Ne.symm hc]

/-- Reading a reference takes nothing off the name. -/
structure IsWhole (name : String) : Prop where
  trimmed : IsTrimmed name.toList
  unsplit : '@' ∉ name.toList

namespace Vocabulary

section

variable {v : Vocabulary} {name text : String} {c : Control} {user : Option UserRef} {ref : UserRef}

/-- A reference without an `@` is a name. -/
theorem readRef_plain_iff {cs : List Char} (htrim : trimBlanks text.toList = cs) (hsome : cs ≠ [])
    (hunsplit : '@' ∉ cs) : v.readRef text = .ok (c, user) ↔
      user = none ∧ v.resolve? (String.ofList (trimBlanks cs)) = some c := by
  have hempty : cs.isEmpty = false := by simpa using hsome
  unfold readRef
  simp only [htrim, hempty, splitAtSign_of_not_mem hunsplit]
  cases v.resolve? (String.ofList (trimBlanks cs)) <;> simp [eq_comm, and_comm]

/-- One with an `@` is a name in front of it and a user behind. -/
theorem readRef_at_iff {front behind : List Char}
    (htrim : trimBlanks text.toList = front ++ '@' :: behind) (hunsplit : '@' ∉ front) :
    v.readRef text = .ok (c, user) ↔ v.resolve? (String.ofList (trimBlanks front)) = some c ∧
      ∃ ref, UserRef.parse (String.ofList behind) = .ok ref ∧ user = some ref := by
  have hempty : (front ++ '@' :: behind).isEmpty = false := by simp
  unfold readRef
  simp only [htrim, hempty, splitAtSign_append hunsplit]
  cases UserRef.parse (String.ofList behind) with
  | error e => simp
  | ok ref => cases v.resolve? (String.ofList (trimBlanks front)) <;> simp [eq_comm]

/-- **A whole name** is found again. -/
theorem readRef_name (hwhole : IsWhole name) (hsome : name ≠ "") (hname : v.resolve? name = some c) :
    v.readRef name = .ok (c, none) := by
  rw [readRef_plain_iff hwhole.trimmed (by simpa using hsome) hwhole.unsplit, hwhole.trimmed,
    String.ofList_toList]
  exact ⟨rfl, hname⟩

/-- The blanks at the end of a reference with a user are those of the user. -/
theorem trimBlanks_at (name : String) (ref : UserRef) :
    trimBlanks (name ++ "@" ++ ref.text).toList =
      name.toList.dropWhile isBlank ++ '@' :: ref.text.toList := by
  have hcs : (name ++ "@" ++ ref.text).toList = name.toList ++ '@' :: ref.text.toList := by simp
  rw [hcs]
  apply trimBlanks_append name.toList (by decide)
  rcases List.mem_cons.mp (List.getLast_mem (by simp)) with hsign | huser
  · rw [hsign]
    decide
  · exact (plain_of_isAlphanum (UserRef.isAlphanum_of_mem_text huser)).1

/-- **So is a whole name with a user**, and the user with it. -/
theorem readRef_at (hwhole : IsWhole name) (hname : v.resolve? name = some c)
    (href : ref.hasText = true) : v.readRef (name ++ "@" ++ ref.text) = .ok (c, some ref) := by
  have htrim := trimBlanks_at name ref
  rw [hwhole.trimmed.dropWhile_eq] at htrim
  rw [readRef_at_iff htrim hwhole.unsplit, hwhole.trimmed, String.ofList_toList,
    String.ofList_toList]
  exact ⟨hname, ref, UserRef.parse_text href, rfl⟩

/-! ## §4 Names that are not whole -/

/-- The names that the control goes by are as long as this one. -/
def OnlyAsLong (v : Vocabulary) (c : Control) (name : String) : Prop :=
  ∀ other : String, v.resolve? other = some c → other.toList.length = name.toList.length

/-- If a name is found again, nothing was taken off it. -/
theorem isWhole_of_readRef (hlong : v.OnlyAsLong c name) (h : v.readRef name = .ok (c, none)) :
    name ≠ "" ∧ IsWhole name := by
  have hsome : trimBlanks name.toList ≠ [] := by
    intro hnone
    simp [readRef, hnone] at h
  by_cases hsplit : '@' ∈ trimBlanks name.toList
  · -- What stands behind the `@` is read as a user, and none was found.
    obtain ⟨front, behind, hcs, hfront⟩ := List.eq_append_cons_of_mem hsplit
    obtain ⟨-, ref, -, href⟩ := (readRef_at_iff hcs hfront).mp h
    contradiction
  · obtain ⟨-, hname⟩ := (readRef_plain_iff rfl hsome hsplit).mp h
    have hlength := hlong _ hname
    rw [String.toList_ofList] at hlength
    have htrimmed : IsTrimmed name.toList := by
      apply IsTrimmed.of_length
      apply Nat.le_antisymm (trimBlanks_sublist_self _).length_le
      rw [← hlength]
      exact (trimBlanks_sublist_self _).length_le
    rw [htrimmed] at hsome hsplit
    exact ⟨by simpa using hsome, htrimmed, hsplit⟩

/-- The same of a name with a user. -/
theorem isWhole_of_readRef_at (hlong : v.OnlyAsLong c name)
    (h : v.readRef (name ++ "@" ++ ref.text) = .ok (c, some ref)) : IsWhole name := by
  have htrim := trimBlanks_at name ref
  by_cases hsplit : '@' ∈ name.toList.dropWhile isBlank
  · -- The first `@` is one of the name, so the other one is taken for a part of the user.
    obtain ⟨front, behind, hcs, hfront⟩ := List.eq_append_cons_of_mem hsplit
    rw [hcs, List.append_assoc, List.cons_append] at htrim
    obtain ⟨-, other, hother, -⟩ := (readRef_at_iff htrim hfront).mp h
    have hat := UserRef.at_not_mem_of_parse hother
    simp at hat
  · obtain ⟨hname, -⟩ := (readRef_at_iff htrim hsplit).mp h
    have hlength := hlong _ hname
    rw [String.toList_ofList] at hlength
    have hdrop : name.toList.dropWhile isBlank = name.toList := by
      apply (List.dropWhile_sublist isBlank).eq_of_length_le
      rw [← hlength]
      exact (trimBlanks_sublist_self _).length_le
    rw [hdrop] at hlength hsplit
    exact ⟨.of_length hlength, hsplit⟩

end

namespace Ledger

variable {l : Ledger}

/-- A custom control goes by the name it was registered with and no other, letter case apart. -/
theorem InStep.onlyAsLong (h : l.InStep) {entry : CustomControl × Control}
    (hentry : entry ∈ l.granted) : l.vocabulary.OnlyAsLong entry.2 entry.1.name := by
  intro other hother
  rcases h.resolve?_eq_some_iff.mp hother with hbuiltin | ⟨found, hfound, hcontrol, hsame⟩
  · have hcustom := (h.custom?_eq hentry).1
    rw [hbuiltin.builtin] at hcustom
    contradiction
  · obtain rfl : found = entry := List.inj_on_of_nodup_map h.nodup hfound hentry hcontrol
    have hlength := congrArg (fun name => name.toList.length) hsame
    simpa [foldCase] using hlength.symm

theorem InStep.resolve?_name (h : l.InStep) {entry : CustomControl × Control}
    (hentry : entry ∈ l.granted) : l.vocabulary.resolve? entry.1.name = some entry.2 :=
  h.resolve?_eq_some_iff.mpr (.inr ⟨entry, hentry, rfl, rfl⟩)

end Ledger

end Vocabulary

namespace Control

/-- Every built-in name is a word of letters and digits. -/
theorem builtin_words : ∀ entry ∈ builtins,
    entry.1 ≠ "" ∧ entry.1.toList.all Char.isAlphanum = true := by
  decide +kernel

/-- So every built-in name is whole. -/
theorem isWhole_of_builtin {entry : String × UInt16} (hentry : entry ∈ builtins) :
    IsWhole entry.1 := by
  have halphanum := List.all_eq_true.mp (builtin_words entry hentry).2
  exact ⟨isTrimmed_of_forall fun c hc => (plain_of_isAlphanum (halphanum c hc)).1,
    fun hat => (plain_of_isAlphanum (halphanum _ hat)).2.2 rfl⟩

/-- No two built-in controls share a number. -/
theorem nodup_builtins : (builtins.map Prod.snd).Nodup := by
  have hascending : (builtins.map fun entry => entry.2.toNat).IsChain (· < ·) := by
    decide +kernel
  apply List.pairwise_map.mpr
  apply (List.pairwise_map.mp (List.isChain_iff_pairwise.mp hascending)).imp
  intro first second hlt hsame
  rw [hsame] at hlt
  exact Nat.lt_irrefl _ hlt

/-- Each is shown by its own name. -/
theorem name?_of_builtin {entry : String × UInt16} (hentry : entry ∈ builtins) :
    name? ⟨entry.2⟩ = some entry.1 := by
  obtain ⟨before, after, hsplit⟩ := List.append_of_mem hentry
  have hnodup := nodup_builtins
  rw [hsplit, List.map_append, List.nodup_append] at hnodup
  have hfound : builtins.find? (fun other => other.2 == entry.2) = some entry := by
    refine List.find?_eq_some_iff_append.mpr ⟨by simp, before, after, hsplit, fun other hother => ?_⟩
    have hne := hnodup.2.2 other.2 (List.mem_map_of_mem hother) entry.2 (by simp)
    simpa using hne
  exact congrArg (Option.map Prod.fst) hfound

theorem goesBy_of_builtin {entry : String × UInt16} (hentry : entry ∈ builtins) :
    GoesBy ⟨entry.2⟩ entry.1 :=
  ⟨entry, List.mem_append_left _ hentry, rfl, rfl⟩

end Control

namespace Vocabulary

theorem displayName_of_builtin (v : Vocabulary) {entry : String × UInt16}
    (hentry : entry ∈ Control.builtins) : v.displayName ⟨entry.2⟩ = entry.1 := by
  have hcustom := (Control.goesBy_of_builtin hentry).builtin
  simp [displayName, custom?, hcustom, Control.text, Control.name?_of_builtin hentry]

/-! ## §5 What can be written down again -/

/-- **Writing a control down and reading it back.**  Every built-in control is found again by its
name, with and without a user.  A custom control is found again by the name it was registered with
exactly if that name is whole; without a user it must not be empty either. -/
theorem reading_back (calls : List CustomControl) :
    (∀ entry ∈ Control.builtins,
      (Ledger.ofCalls calls).vocabulary.displayName ⟨entry.2⟩ = entry.1 ∧
      (Ledger.ofCalls calls).vocabulary.readRef entry.1 = .ok (⟨entry.2⟩, none) ∧
      ∀ ref : UserRef, ref.hasText = true →
        (Ledger.ofCalls calls).vocabulary.readRef (entry.1 ++ "@" ++ ref.text) =
          .ok (⟨entry.2⟩, some ref)) ∧
    ∀ entry ∈ (Ledger.ofCalls calls).granted,
      (Ledger.ofCalls calls).vocabulary.displayName entry.2 = entry.1.name ∧
      ((Ledger.ofCalls calls).vocabulary.readRef entry.1.name = .ok (entry.2, none) ↔
        entry.1.name ≠ "" ∧ IsWhole entry.1.name) ∧
      ∀ ref : UserRef, ref.hasText = true →
        ((Ledger.ofCalls calls).vocabulary.readRef (entry.1.name ++ "@" ++ ref.text) =
          .ok (entry.2, some ref) ↔ IsWhole entry.1.name) := by
  have hstep := Ledger.inStep_ofCalls calls
  constructor
  · intro entry hentry
    have hwhole := Control.isWhole_of_builtin hentry
    have hname : (Ledger.ofCalls calls).vocabulary.resolve? entry.1 = some ⟨entry.2⟩ :=
      hstep.resolve?_eq_some_iff.mpr (.inl (Control.goesBy_of_builtin hentry))
    exact ⟨displayName_of_builtin _ hentry,
      readRef_name hwhole (Control.builtin_words entry hentry).1 hname,
      fun ref href => readRef_at hwhole hname href⟩
  · intro entry hentry
    have hname := hstep.resolve?_name hentry
    have hlong := hstep.onlyAsLong hentry
    refine ⟨hstep.displayName_eq hentry, ⟨isWhole_of_readRef hlong, ?_⟩, fun ref href =>
      ⟨isWhole_of_readRef_at hlong, fun hwhole => readRef_at hwhole hname href⟩⟩
    rintro ⟨hsome, hwhole⟩
    exact readRef_name hwhole hsome hname

/-- A variable with an `@` in its name is registered, and then nothing that is written means it. -/
theorem unreadable_at :
    ((⟨"Mode@2", .var⟩, controlAt 0) : CustomControl × Control) ∈
      (Ledger.ofCalls [⟨"Mode@2", .var⟩]).granted ∧
    (Ledger.ofCalls [⟨"Mode@2", .var⟩]).vocabulary.readRef "Mode@2" ≠ .ok (controlAt 0, none) ∧
    (Ledger.ofCalls [⟨"Mode@2", .var⟩]).vocabulary.readRef "Mode@2@active" ≠
      .ok (controlAt 0, some .active) := by
  decide +kernel

end Vocabulary

end VirtualPad
