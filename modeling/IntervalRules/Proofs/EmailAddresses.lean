import IntervalRules.Proofs.DigitRuns
import IntervalRules.Proofs.Patterns
import IntervalRules.Rule.Check

/-!
Email addresses by their parts: a mailbox, one `@`, and labels with points between them. Reading a
domain in one pass comes to the same as splitting it at its points and looking at each label, as
what has been read of a label is kept in its length and its last character. The addresses are also
the texts of a pattern, in which the length of a label is bounded by a repetition between its ends.
-/

namespace IntervalRules

namespace Format

open Text (split)
open Pattern (one char maybe repeated unlimited)
open scoped Computability

/-- A label of a domain: 1 to 63 letters, digits and hyphens, with no hyphen at either end. -/
structure IsLabel (label : List Char) : Prop where
  one_le_length : 1 ≤ label.length
  length_le : label.length ≤ 63
  chars : ∀ c ∈ label, c.isAlphanum = true ∨ c = '-'
  head : label.head? ≠ some '-'
  last : label.getLast? ≠ some '-'

structure IsMailbox (name : List Char) : Prop where
  ne_nil : name ≠ []
  chars : ∀ c ∈ name, c.isAlphanum = true ∨ c ∈ ".!#$%&'*+/=?^_`\x7b|\x7d~-".toList

/-- A mailbox and a domain, which are the parts of the text at its one `@`. -/
def IsAddress (cs : List Char) : Prop :=
  ∃ mailbox domain, split '@' cs = [mailbox, domain] ∧ IsMailbox mailbox ∧
    ∀ label ∈ split '.' domain, IsLabel label

theorem isAsciiAlphanumeric_eq (c : Char) : isAsciiAlphanumeric c = c.isAlphanum := by
  rw [Bool.eq_iff_iff]
  delta Char.isAlphanum Char.isAlpha Char.isUpper Char.isLower Char.isDigit
  simp only [isAsciiAlphanumeric, Bool.or_eq_true, Literal.isAsciiLetter_iff,
    Literal.isDigit_iff, Bool.and_eq_true, decide_eq_true_eq, ge_iff_le,
    UInt32.le_iff_toNat_le, Char.toNat]
  simp
  omega

theorem isMailboxChar_iff (c : Char) :
    isMailboxChar c = true ↔
      c.isAlphanum = true ∨ c ∈ ".!#$%&'*+/=?^_`\x7b|\x7d~-".toList := by
  simp only [isMailboxChar, isAsciiAlphanumeric_eq, Bool.or_eq_true, List.contains_iff_mem]

theorem isMailbox_iff (name : List Char) :
    IsMailbox name ↔ name ≠ [] ∧ ∀ c ∈ name, isMailboxChar c = true := by
  simp only [isMailboxChar_iff]
  exact ⟨fun h => ⟨h.ne_nil, h.chars⟩, fun h => ⟨h.1, h.2⟩⟩

/-! ## Reading a domain -/

/-- What may be the front of a label. -/
structure IsLabelFront (front : List Char) : Prop where
  length_le : front.length ≤ 63
  chars : ∀ c ∈ front, c.isAlphanum = true ∨ c = '-'
  head : front.head? ≠ some '-'

theorem isLabelFront_nil : IsLabelFront [] := ⟨by simp, by simp, by simp⟩

theorem IsLabel.front {label front : List Char} (h : IsLabel label) (hfront : front <+: label) :
    IsLabelFront front := by
  obtain ⟨rest, rfl⟩ := hfront
  refine ⟨?_, ?_, ?_⟩
  · have := h.length_le
    simp at this
    omega
  · intro c hc
    exact h.chars c (List.mem_append_left rest hc)
  · intro hhead
    apply h.head
    simp [hhead]

/-- A front is a label if it may end. -/
theorem isLabel_iff_front (label : List Char) :
    IsLabel label ↔ IsLabelFront label ∧ label ≠ [] ∧ label.getLast? ≠ some '-' := by
  constructor
  · intro h
    exact ⟨h.front List.prefix_rfl, List.length_pos_iff.1 h.one_le_length, h.last⟩
  · rintro ⟨h, hne, hlast⟩
    exact ⟨List.length_pos_iff.2 hne, h.length_le, h.chars, h.head, hlast⟩

namespace IsLabelFront

variable {front : List Char}

theorem not_mem (h : IsLabelFront front) : '.' ∉ front := by
  intro hpoint
  have hchar := h.chars '.' hpoint
  revert hchar
  decide

theorem concat_iff (h : IsLabelFront front) (c : Char) :
    IsLabelFront (front ++ [c]) ↔
      front.length < 63 ∧ (c.isAlphanum = true ∨ c = '-' ∧ front ≠ []) := by
  constructor
  · intro hconcat
    have hlength := hconcat.length_le
    simp at hlength
    refine ⟨by omega, ?_⟩
    rcases hconcat.chars c (by simp) with hc | rfl
    · exact .inl hc
    · refine .inr ⟨rfl, ?_⟩
      rintro rfl
      exact hconcat.head rfl
  · rintro ⟨hlength, hc⟩
    refine ⟨by simp; omega, ?_, ?_⟩
    · intro d hd
      rcases List.mem_append.1 hd with hd | hd
      · exact h.chars d hd
      · obtain rfl := List.mem_singleton.1 hd
        exact hc.imp_right And.left
    · cases front with
      | nil =>
        rintro ⟨⟩
        revert hc
        decide
      | cons d front => exact h.head

end IsLabelFront

/-- The reader's note of the last character. -/
def endsInHyphen (front : List Char) : Bool := front.getLast? == some '-'

theorem endsInHyphen_concat (front : List Char) (c : Char) :
    endsInHyphen (front ++ [c]) = (c == '-') := by
  simp [endsInHyphen]

/-- One more character of a label. -/
theorem continuesDomain_cons {front : List Char} (hfront : IsLabelFront front) {c : Char}
    (hc : c ≠ '.') (rest : List Char) :
    continuesDomain front.length (endsInHyphen front) (c :: rest) = true ↔
      IsLabelFront (front ++ [c]) ∧
        continuesDomain (front ++ [c]).length (endsInHyphen (front ++ [c])) rest = true := by
  rw [hfront.concat_iff, endsInHyphen_concat, List.length_append, List.length_singleton,
    continuesDomain, if_neg hc]
  by_cases hhyphen : c = '-'
  · subst hhyphen
    simp [List.length_pos_iff, show '-'.isAlphanum = false by decide]
    tauto
  · rw [beq_false_of_ne hhyphen, isAsciiAlphanumeric_eq]
    simp [hhyphen]
    tauto

theorem continuesDomain_end {front : List Char} (hfront : IsLabelFront front) :
    (0 < front.length && !endsInHyphen front) = true ↔ IsLabel front := by
  simp [isLabel_iff_front, hfront, endsInHyphen, List.length_pos_iff]

/-- A domain goes on rightly if all labels are such, the one that is being read included. -/
theorem continuesDomain_iff {front : List Char} (hfront : IsLabelFront front) (cs : List Char) :
    continuesDomain front.length (endsInHyphen front) cs = true ↔
      ∀ label ∈ split '.' (front ++ cs), IsLabel label := by
  induction cs generalizing front with
  | nil =>
    rw [List.append_nil, Text.split_of_not_mem hfront.not_mem, List.forall_mem_singleton]
    exact continuesDomain_end hfront
  | cons c rest ih =>
    by_cases hpoint : c = '.'
    · subst hpoint
      have hrest := ih isLabelFront_nil
      rw [List.nil_append] at hrest
      rw [Text.split_append hfront.not_mem, List.forall_mem_cons, ← continuesDomain_end hfront,
        ← hrest, ← Bool.and_eq_true]
      rfl
    · rw [continuesDomain_cons hfront hpoint, List.append_cons front c rest]
      constructor
      · rintro ⟨hconcat, hrest⟩
        exact (ih hconcat).1 hrest
      · intro hlabels
        -- the character is in a label, so what has been read with it is the front of one
        have hmem : '.' ∉ front ++ [c] := by simp [hfront.not_mem, Ne.symm hpoint]
        obtain ⟨part, parts, hsplit⟩ := List.exists_cons_of_ne_nil (Text.split_ne_nil '.' rest)
        have hlabel : IsLabel (front ++ [c] ++ part) := by
          apply hlabels
          rw [Text.split_prepend hmem hsplit]
          exact List.mem_cons_self
        have hconcat := hlabel.front (List.prefix_append (front ++ [c]) part)
        exact ⟨hconcat, (ih hconcat).2 hlabels⟩

/-! ## Addresses -/

theorem isEmail_iff (cs : List Char) :
    isEmail cs = true ↔ ∃ mailbox domain, cs = mailbox ++ '@' :: domain ∧ mailbox ≠ [] ∧
      (∀ c ∈ mailbox, isMailboxChar c = true) ∧ continuesDomain 0 false domain = true := by
  constructor
  · intro h
    have hsplit := List.takeWhile_append_dropWhile (p := isMailboxChar) (l := cs)
    unfold isEmail at h
    dsimp only at h
    split at h
    · rename_i domain hdomain
      rw [Bool.and_eq_true, bne_iff_ne] at h
      refine ⟨cs.takeWhile isMailboxChar, domain, ?_, h.1, ?_, h.2⟩
      · rw [← hdomain, hsplit]
      · intro c hc
        exact List.all_eq_true.1 List.all_takeWhile c hc
    · cases h
  · rintro ⟨mailbox, domain, rfl, hne, hmailbox, hdomain⟩
    have hat : ∀ c ∈ ('@' :: domain).head?, isMailboxChar c = false := by
      rintro c ⟨⟩
      decide
    obtain ⟨htake, hdrop⟩ := Text.takeWhile_front ('@' :: domain) hmailbox hat
    unfold isEmail
    rw [htake, hdrop]
    simp [hne, hdomain]

theorem IsMailbox.not_mem {name : List Char} (h : IsMailbox name) : '@' ∉ name := by
  intro hat
  have hchar := h.chars '@' hat
  revert hchar
  decide

theorem not_mem_of_labels {domain : List Char} (h : ∀ label ∈ split '.' domain, IsLabel label) :
    '@' ∉ domain := by
  intro hat
  obtain ⟨label, hlabel, hmem⟩ := Text.exists_mem_split hat (by decide : '@' ≠ '.')
  have hchar := (h label hlabel).chars '@' hmem
  revert hchar
  decide

/-- Neither the mailbox nor the labels have an `@` in them. -/
theorem isAddress_iff (cs : List Char) :
    IsAddress cs ↔ ∃ mailbox domain, cs = mailbox ++ '@' :: domain ∧ IsMailbox mailbox ∧
      ∀ label ∈ split '.' domain, IsLabel label := by
  constructor
  · rintro ⟨mailbox, domain, hsplit, hmailbox, hlabels⟩
    obtain ⟨rest, rfl, hrest⟩ := Text.exists_of_split_eq_cons hsplit (by simp)
    obtain ⟨rfl, -⟩ := Text.split_eq_singleton_iff.1 hrest
    exact ⟨mailbox, domain, rfl, hmailbox, hlabels⟩
  · rintro ⟨mailbox, domain, rfl, hmailbox, hlabels⟩
    refine ⟨mailbox, domain, ?_, hmailbox, hlabels⟩
    rw [Text.split_append hmailbox.not_mem, Text.split_of_not_mem (not_mem_of_labels hlabels)]

theorem isEmail_iff_isAddress (cs : List Char) : isEmail cs = true ↔ IsAddress cs := by
  have hdomain (domain : List Char) :
      continuesDomain 0 false domain = true ↔ ∀ label ∈ split '.' domain, IsLabel label :=
    continuesDomain_iff isLabelFront_nil domain
  simp only [isEmail_iff, isAddress_iff, isMailbox_iff, hdomain, and_assoc]

/-! ## The pattern -/

def isLabelChar (c : Char) : Bool := isAsciiAlphanumeric c || c == '-'

/-- A letter or digit, and up to 62 more characters of which the last is one, too. -/
def labelPattern : Language Char :=
  one isAsciiAlphanumeric *
    maybe (repeated (one isLabelChar) 0 61 * one isAsciiAlphanumeric)

def emailPattern : Language Char :=
  unlimited (one isMailboxChar) 1 * (char '@' * (labelPattern * (char '.' * labelPattern)∗))

theorem isLabelChar_iff (c : Char) : isLabelChar c = true ↔ c.isAlphanum = true ∨ c = '-' := by
  simp [isLabelChar, isAsciiAlphanumeric_eq]

theorem ne_hyphen_of_isAlphanum {c : Char} (h : c.isAlphanum = true) : c ≠ '-' :=
  Pattern.ne_of_test h (by decide)

/-- What the pattern of a label asks for comes to its length and to both ends. -/
theorem mem_labelPattern_iff (label : List Char) : label ∈ labelPattern ↔ IsLabel label := by
  simp only [labelPattern, Pattern.mem_one_mul_iff, Pattern.mem_maybe_iff,
    Pattern.mem_mul_one_iff, Pattern.mem_repeated_one_iff (Nat.zero_le 61), isLabelChar_iff,
    isAsciiAlphanumeric_eq]
  constructor
  · rintro ⟨c, _, rfl, hc, rfl | ⟨middle, d, rfl, ⟨-, hlength, hmiddle⟩, hd⟩⟩
    · refine ⟨by simp, by simp, by simp [hc], ?_, ?_⟩
      · simpa using ne_hyphen_of_isAlphanum hc
      · simpa using ne_hyphen_of_isAlphanum hc
    · refine ⟨by simp, by simp; omega, ?_, ?_, ?_⟩
      · rw [List.forall_mem_cons, List.forall_mem_append, List.forall_mem_singleton]
        exact ⟨.inl hc, hmiddle, .inl hd⟩
      · simpa using ne_hyphen_of_isAlphanum hc
      · simpa [List.getLast?_cons] using ne_hyphen_of_isAlphanum hd
  · intro h
    obtain ⟨c, rest, rfl⟩ := List.exists_cons_of_length_pos h.one_le_length
    obtain ⟨hc, hrest⟩ := List.forall_mem_cons.1 h.chars
    have hhead : c ≠ '-' := fun hc => h.head (congrArg some hc)
    refine ⟨c, rest, rfl, hc.resolve_right hhead, ?_⟩
    rcases List.eq_nil_or_concat' rest with rfl | ⟨middle, d, rfl⟩
    · exact .inl rfl
    · obtain ⟨hmiddle, hd⟩ := List.forall_mem_append.1 hrest
      have hlast : d ≠ '-' := by simpa [List.getLast?_cons] using h.last
      have hlength := h.length_le
      simp at hlength
      exact .inr ⟨middle, d, rfl, ⟨Nat.zero_le _, by omega, hmiddle⟩,
        (List.forall_mem_singleton.1 hd).resolve_right hlast⟩

theorem over_labelPattern : Pattern.Over (· != '.') labelPattern := by
  intro label hlabel c hc
  rw [bne_iff_ne]
  rintro rfl
  have hfront := ((mem_labelPattern_iff label).1 hlabel).front List.prefix_rfl
  exact hfront.not_mem hc

/-- The texts of the pattern are the addresses. -/
theorem mem_emailPattern_iff (cs : List Char) : cs ∈ emailPattern ↔ IsAddress cs := by
  rw [isAddress_iff, emailPattern, Language.mem_mul]
  simp only [Pattern.mem_unlimited_one_iff, Pattern.mem_char_mul_iff,
    Pattern.mem_labels_iff over_labelPattern, mem_labelPattern_iff, isMailbox_iff]
  constructor
  · rintro ⟨mailbox, ⟨hlength, hmailbox⟩, _, ⟨domain, rfl, hlabels⟩, rfl⟩
    exact ⟨mailbox, domain, rfl, ⟨List.length_pos_iff.1 hlength, hmailbox⟩, hlabels⟩
  · rintro ⟨mailbox, domain, rfl, ⟨hne, hmailbox⟩, hlabels⟩
    exact ⟨mailbox, ⟨List.length_pos_iff.2 hne, hmailbox⟩, _, ⟨domain, rfl, hlabels⟩, rfl⟩

end Format

/-- The rule for email addresses passes exactly the addresses, which are the texts of the pattern:
nothing is trimmed, and nothing may follow. -/
theorem Rule.check_email_iff (value : String) (params : List String) :
    ∃ passed, Rule.email.check value params = .ok passed ∧
      (passed = true ↔ Format.IsAddress value.toList) ∧
      (passed = true ↔ value.toList ∈ Format.emailPattern) := by
  have haddress := Format.isEmail_iff_isAddress value.toList
  refine ⟨Format.isEmail value.toList, rfl, haddress, ?_⟩
  rw [haddress, Format.mem_emailPattern_iff]

example : Rule.email.check "a@b.co\n" [] = .ok false := by decide +kernel

end IntervalRules
