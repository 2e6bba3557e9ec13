import IntervalRules.Proofs.NumberText
import IntervalRules.Proofs.PlainText
import IntervalRules.Rule.Check

/-!
Numerals and numbers. A numeral is a number in its own notation, which has groups of digits and may
have no integer part. A number is written with other means, and digits after a zero are octal. Where
both are digits with an optional minus and fraction, they come apart only at octal digits.
-/

namespace IntervalRules

open Text (isDigit)
open Literal (Form PlainInteger LegacyDecimal FractionRun DigitRun withoutSeparators)
open Literal.Form (fractionChars)

/-! ## The grammar of numerals -/

namespace Format

/-- Groups of three digits, each after a comma. -/
inductive Groups : List Char → Prop
  | nil : Groups []
  | group {a b c : Char} {rest : List Char} (ha : isDigit 10 a = true) (hb : isDigit 10 b = true)
      (hc : isDigit 10 c = true) : Groups rest → Groups (',' :: a :: b :: c :: rest)

/-- The characters of an optional minus. -/
def minusChars (negative : Bool) : List Char := if negative then ['-'] else []

theorem isDigits_iff (cs : List Char) :
    isDigits cs = true ↔ cs ≠ [] ∧ ∀ c ∈ cs, isDigit 10 c = true := by
  simp [isDigits]

theorem isFraction_iff (cs : List Char) :
    isFraction cs = true ↔
      ∃ fraction, cs = fractionChars fraction ∧ ∀ digits ∈ fraction, isDigits digits = true := by
  constructor
  · intro h
    unfold isFraction at h
    split at h
    · exact ⟨none, rfl, nofun⟩
    · rename_i digits
      exact ⟨some digits, rfl, by rintro _ ⟨⟩; exact h⟩
    · cases h
  · rintro ⟨fraction, rfl, hdigits⟩
    cases fraction with
    | none => rfl
    | some digits => exact hdigits digits rfl

theorem isGrouped_iff (cs : List Char) :
    isGrouped cs = true ↔ ∃ groups fraction, cs = groups ++ fraction ∧ groups ≠ [] ∧
      Groups groups ∧ isFraction fraction = true := by
  constructor
  · intro h
    fun_induction isGrouped cs with
    | case1 a b c rest ih =>
      simp only [Bool.and_eq_true, Bool.or_eq_true] at h
      obtain ⟨⟨⟨ha, hb⟩, hc⟩, hfraction | hgrouped⟩ := h
      · exact ⟨[',', a, b, c], rest, rfl, List.cons_ne_nil _ _, .group ha hb hc .nil, hfraction⟩
      · obtain ⟨groups, fraction, rfl, -, hgroups, hfraction⟩ := ih hgrouped
        exact ⟨',' :: a :: b :: c :: groups, fraction, rfl, List.cons_ne_nil _ _,
          .group ha hb hc hgroups, hfraction⟩
    | case2 => cases h
  · rintro ⟨groups, fraction, rfl, hne, hgroups, hfraction⟩
    induction hgroups with
    | nil => exact absurd rfl hne
    | @group a b c rest ha hb hc _ ih =>
      have hrest : isFraction (rest ++ fraction) = true ∨ isGrouped (rest ++ fraction) = true := by
        by_cases hnil : rest = []
        · rw [hnil]
          exact .inl hfraction
        · exact .inr (ih hnil)
      simpa [isGrouped, ha, hb, hc] using hrest

/-- The rest of a numeral after its first digits. -/
theorem isTail_iff (count : Nat) (rest : List Char) :
    (isFraction rest || (decide (count ≤ 3) && isGrouped rest)) = true ↔
      ∃ groups fraction, rest = groups ++ fraction ∧ Groups groups ∧
        (groups ≠ [] → count ≤ 3) ∧ isFraction fraction = true := by
  rw [Bool.or_eq_true, Bool.and_eq_true, decide_eq_true_eq, isGrouped_iff]
  constructor
  · rintro (hfraction | ⟨hcount, groups, fraction, hrest, -, hgroups, hfraction⟩)
    · exact ⟨[], rest, rfl, .nil, fun h => absurd rfl h, hfraction⟩
    · exact ⟨groups, fraction, hrest, hgroups, fun _ => hcount, hfraction⟩
  · rintro ⟨groups, fraction, rfl, hgroups, hcount, hfraction⟩
    by_cases hnil : groups = []
    · rw [hnil]
      exact .inl hfraction
    · exact .inr ⟨hcount hnil, groups, fraction, rfl, hnil, hgroups, hfraction⟩

theorem head?_groups_append {groups : List Char} {fraction : List Char} (hgroups : Groups groups)
    (hfraction : isFraction fraction = true) :
    ∀ c ∈ (groups ++ fraction).head?, isDigit 10 c = false := by
  cases hgroups with
  | nil =>
    obtain ⟨fraction, rfl, -⟩ := (isFraction_iff fraction).1 hfraction
    cases fraction with
    | none => exact nofun
    | some digits =>
      rintro c ⟨⟩
      rfl
  | group =>
    rintro c ⟨⟩
    rfl

theorem exists_minusChars (cs : List Char) :
    ∃ negative unsigned, cs = minusChars negative ++ unsigned ∧
      (negative = false → unsigned.head? ≠ some '-') := by
  by_cases hminus : cs.head? = some '-'
  · refine ⟨true, cs.tail, ?_, nofun⟩
    cases cs with
    | nil => cases hminus
    | cons c rest =>
      cases hminus
      rfl
  · exact ⟨false, cs, rfl, fun _ => hminus⟩

/-- Past the minus a numeral goes by its first digits. -/
theorem isNumeral_minusChars {negative : Bool} {unsigned : List Char}
    (hhead : negative = false → unsigned.head? ≠ some '-') :
    isNumeral (minusChars negative ++ unsigned) =
      if unsigned.takeWhile (isDigit 10) = [] then
        !negative && isFraction (unsigned.dropWhile (isDigit 10))
      else isFraction (unsigned.dropWhile (isDigit 10)) ||
        (decide ((unsigned.takeWhile (isDigit 10)).length ≤ 3) &&
          isGrouped (unsigned.dropWhile (isDigit 10))) := by
  cases negative with
  | true => rfl
  | false =>
    have hfalse : (unsigned.head? == some '-') = false := beq_eq_false_iff_ne.2 (hhead rfl)
    simp only [isNumeral, minusChars, Bool.false_eq_true, if_false, List.nil_append, hfalse]

/-- A numeral is a fraction alone, or digits with an optional minus in front, groups if there are
at most three digits, and an optional fraction. -/
theorem isNumeral_iff (cs : List Char) :
    isNumeral cs = true ↔ isFraction cs = true ∨ ∃ negative integer groups fraction,
      cs = minusChars negative ++ (integer ++ (groups ++ fraction)) ∧ isDigits integer = true ∧
        Groups groups ∧ (groups ≠ [] → integer.length ≤ 3) ∧ isFraction fraction = true := by
  constructor
  · intro h
    obtain ⟨negative, unsigned, rfl, hhead⟩ := exists_minusChars cs
    have hsplit := List.takeWhile_append_dropWhile (p := isDigit 10) (l := unsigned)
    rw [isNumeral_minusChars hhead] at h
    by_cases hnil : unsigned.takeWhile (isDigit 10) = []
    · rw [if_pos hnil, Bool.and_eq_true, Bool.not_eq_true'] at h
      obtain ⟨rfl, hfraction⟩ := h
      rw [hnil, List.nil_append] at hsplit
      exact .inl (hsplit ▸ hfraction)
    · rw [if_neg hnil, isTail_iff] at h
      obtain ⟨groups, fraction, hrest, hgroups, hcount, hfraction⟩ := h
      refine .inr ⟨negative, _, groups, fraction, ?_, (isDigits_iff _).2 ⟨hnil, ?_⟩, hgroups,
        hcount, hfraction⟩
      · rw [← hrest, hsplit]
      · exact fun c hc => List.all_eq_true.1 List.all_takeWhile c hc
  · rintro (h | ⟨negative, integer, groups, fraction, rfl, hinteger, hgroups, hcount, hfraction⟩)
    · obtain ⟨fraction, rfl, hdigits⟩ := (isFraction_iff cs).1 h
      cases fraction with
      | none => rfl
      | some digits => exact hdigits digits rfl
    · obtain ⟨hne, hdigits⟩ := (isDigits_iff integer).1 hinteger
      obtain ⟨htake, hdrop⟩ := Text.takeWhile_front (groups ++ fraction) hdigits
        (head?_groups_append hgroups hfraction)
      have hhead : (integer ++ (groups ++ fraction)).head? ≠ some '-' := by
        obtain ⟨c, rest, rfl⟩ := List.exists_cons_of_ne_nil hne
        rintro ⟨⟩
        exact absurd (hdigits '-' List.mem_cons_self) (by decide)
      rw [isNumeral_minusChars fun _ => hhead, htake, hdrop, if_neg hne, isTail_iff]
      exact ⟨groups, fraction, rfl, hgroups, hcount, hfraction⟩

/-- Digits are a numeral. -/
theorem isNumeral_of_isDigits {cs : List Char} (h : isDigits cs = true) : isNumeral cs = true :=
  (isNumeral_iff cs).2 (.inr ⟨false, cs, [], [], by simp [minusChars], h, .nil,
    fun hne => absurd rfl hne, rfl⟩)

/-- A character that may stand in a numeral. -/
def isNumeralChar (c : Char) : Bool := isDigit 10 c || c == '-' || c == ',' || c == '.'

theorem isNumeralChar_of_isDigit {c : Char} (h : isDigit 10 c = true) :
    isNumeralChar c = true := by
  simp [isNumeralChar, h]

theorem isNumeralChar_of_isFraction {cs : List Char} (h : isFraction cs = true) :
    ∀ c ∈ cs, isNumeralChar c = true := by
  obtain ⟨fraction, rfl, hdigits⟩ := (isFraction_iff cs).1 h
  cases fraction with
  | none => exact nofun
  | some digits =>
    refine List.forall_mem_cons.2 ⟨rfl, fun c hc => ?_⟩
    exact isNumeralChar_of_isDigit (((isDigits_iff digits).1 (hdigits digits rfl)).2 c hc)

theorem isNumeralChar_of_groups {cs : List Char} (h : Groups cs) :
    ∀ c ∈ cs, isNumeralChar c = true := by
  induction h with
  | nil => exact nofun
  | group ha hb hc _ ih =>
    simp only [List.forall_mem_cons]
    exact ⟨rfl, isNumeralChar_of_isDigit ha, isNumeralChar_of_isDigit hb,
      isNumeralChar_of_isDigit hc, ih⟩

theorem isNumeralChar_of_isNumeral {cs : List Char} (h : isNumeral cs = true) :
    ∀ c ∈ cs, isNumeralChar c = true := by
  rcases (isNumeral_iff cs).1 h with hfraction | ⟨negative, integer, groups, fraction, rfl,
    hinteger, hgroups, -, hfraction⟩
  · exact isNumeralChar_of_isFraction hfraction
  · simp only [List.forall_mem_append]
    refine ⟨?_, fun c hc => isNumeralChar_of_isDigit (((isDigits_iff _).1 hinteger).2 c hc),
      isNumeralChar_of_groups hgroups, isNumeralChar_of_isFraction hfraction⟩
    cases negative
    · exact nofun
    · exact List.forall_mem_singleton.2 rfl

end Format

open Format (isDigits isDigits_iff minusChars isNumeralChar)

/-! ## Numbers without other means -/

namespace Literal

/-- Two or more octal digits, of which the first is a zero. -/
def LooksOctal (digits : List Char) : Prop :=
  2 ≤ digits.length ∧ digits.head? = some '0' ∧ ∀ c ∈ digits, isDigit 8 c = true

/-- An integer part of digits, and a fraction of digits or of the point alone. -/
structure DigitParts (integer : List Char) (fraction : Option (List Char)) : Prop where
  integer : isDigits integer = true
  fraction : ∀ digits ∈ fraction, ∀ c ∈ digits, isDigit 10 c = true

instance (digits : List Char) : Decidable (LooksOctal digits) :=
  decidable_of_iff (2 ≤ digits.length ∧ digits.head? = some '0' ∧ digits.all (isDigit 8) = true)
    (and_congr_right fun _ => and_congr_right fun _ => List.all_eq_true)

/-- What an integer part and a fraction are read as. -/
def IsMagnitude (integer : List Char) (fraction : Option (List Char)) (x : Binary64) : Prop :=
  (LooksOctal integer → fraction = none ∧ x = Binary64.ofDigits 8 integer) ∧
    (¬ LooksOctal integer →
      Binary64.ofDecimalText? (integer ++ fractionChars fraction) = some x)

variable {integer : List Char} {fraction : Option (List Char)} {x : Binary64}

/-- A zero and octal digits. -/
theorem looksOctal_iff (digits : List Char) : LooksOctal digits ↔
    ∃ more, digits = '0' :: more ∧ more ≠ [] ∧ ∀ c ∈ more, isDigit 8 c = true := by
  constructor
  · rintro ⟨hlength, hhead, hdigits⟩
    obtain ⟨more, rfl⟩ := List.head?_eq_some_iff.1 hhead
    refine ⟨more, rfl, ?_, fun c hc => hdigits c (List.mem_cons_of_mem _ hc)⟩
    rintro rfl
    exact absurd hlength (by decide)
  · rintro ⟨more, rfl, hne, hdigits⟩
    exact ⟨Nat.succ_le_succ (List.length_pos_iff.2 hne), rfl,
      List.forall_mem_cons.2 ⟨rfl, hdigits⟩⟩

/-- Digits are octal, or they are the integer part of a decimal. -/
theorem looksOctal_or (h : isDigits integer = true) :
    LooksOctal integer ∨ PlainInteger integer ∨ LegacyDecimal integer := by
  obtain ⟨hne, hdigits⟩ := (isDigits_iff integer).1 h
  by_cases hhead : integer.head? = some '0'
  · obtain ⟨more, rfl⟩ := List.head?_eq_some_iff.1 hhead
    by_cases hnil : more = []
    · rw [hnil]
      exact .inr (.inl (.inl rfl))
    · have hmore : ∀ c ∈ more, isDigit 10 c = true := fun c hc =>
        hdigits c (List.mem_cons_of_mem _ hc)
      by_cases hhigh : '8' ∈ more ∨ '9' ∈ more
      · exact .inr (.inr ⟨more, rfl, hmore, hhigh⟩)
      · obtain ⟨height, hnine⟩ := not_or.1 hhigh
        refine .inl ((looksOctal_iff _).2 ⟨more, rfl, hnil, fun c hc => ?_⟩)
        refine (isDigit_eight_iff c).2 ⟨hmore c hc, ?_, ?_⟩
        · rintro rfl
          exact height hc
        · rintro rfl
          exact hnine hc
  · exact .inr (.inl (.inr ⟨digitRun_of_digits hne hdigits, hhead⟩))

theorem not_looksOctal (h : PlainInteger integer ∨ LegacyDecimal integer) :
    ¬ LooksOctal integer := by
  intro hoctal
  obtain ⟨more, hinteger, hne, hmore⟩ := (looksOctal_iff integer).1 hoctal
  exact Form.octal_chars_ne_integer ⟨hne, hmore⟩ h hinteger

theorem ofDecimalText?_of_digits (h : DigitParts integer fraction) :
    ∃ x, Binary64.ofDecimalText? (integer ++ fractionChars fraction) = some x := by
  obtain ⟨hne, hdigits⟩ := (isDigits_iff integer).1 h.integer
  have hread := @Decimal.read?_parts _ [] _ hne hdigits h.fraction nofun
  rw [List.append_nil] at hread
  exact ⟨_, congrArg (Option.map Decimal.toBinary64) hread⟩

/-- Digits are a magnitude, but not octal ones with a fraction. -/
theorem exists_isMagnitude_iff (hparts : DigitParts integer fraction) :
    (∃ x, IsMagnitude integer fraction x) ↔ (LooksOctal integer → fraction = none) := by
  constructor
  · rintro ⟨x, hoctal, -⟩ h
    exact (hoctal h).1
  · intro h
    by_cases hoctal : LooksOctal integer
    · exact ⟨_, fun _ => ⟨h hoctal, rfl⟩, fun hnot => absurd hoctal hnot⟩
    · obtain ⟨x, hx⟩ := ofDecimalText?_of_digits hparts
      exact ⟨x, fun hyes => absurd hyes hoctal, fun _ => hx⟩

theorem withoutSeparators_parts (h : DigitParts integer fraction) :
    withoutSeparators (integer ++ fractionChars fraction) = integer ++ fractionChars fraction := by
  rw [withoutSeparators_append, withoutSeparators_fractionChars,
    withoutSeparators_of_digits ((isDigits_iff integer).1 h.integer).2]
  cases fraction with
  | none => rfl
  | some digits =>
    rw [Option.map_some, withoutSeparators_of_digits (h.fraction digits rfl)]

/-- A magnitude is the value of a number that is written so. -/
theorem exists_form_of_isMagnitude (h : DigitParts integer fraction)
    (hx : IsMagnitude integer fraction x) :
    ∃ form : Form, form.WellFormed ∧ form.chars = integer ++ fractionChars fraction ∧
      form.literal? = some (.number x) := by
  rcases looksOctal_or h.integer with hoctal | hdecimal
  · obtain ⟨more, rfl, hne, hmore⟩ := (looksOctal_iff integer).1 hoctal
    obtain ⟨rfl, rfl⟩ := hx.1 hoctal
    exact ⟨.octal more, ⟨hne, hmore⟩, (List.append_nil _).symm, rfl⟩
  · have hplaces : ∀ digits ∈ fraction, FractionRun digits := by
      intro digits hdigits
      by_cases hnil : digits = []
      · exact .inl hnil
      · exact .inr (digitRun_of_digits hnil (h.fraction digits hdigits))
    refine ⟨.decimal integer fraction none, ⟨hdecimal, hplaces, nofun⟩, List.append_nil _, ?_⟩
    have hnone : Form.exponentChars none = [] := rfl
    rw [Form.literal?, hnone, List.append_nil, withoutSeparators_parts h,
      hx.2 (not_looksOctal hdecimal)]
    rfl

/-- A run without separators is digits. -/
theorem isDigits_of_digitRun {digits : List Char} (h : DigitRun 10 digits)
    (hchars : ∀ c ∈ digits, isNumeralChar c = true) : isDigits digits = true := by
  refine (isDigits_iff digits).2 ⟨h.ne_nil, fun c hc => ?_⟩
  rcases (isRunChar_iff 10 c).1 (h.chars c hc) with rfl | hdigit
  · cases hchars '_' hc
  · exact hdigit

/-- A number in the characters of numerals has only an integer part and a fraction. -/
theorem isMagnitude_of_form {form : Form} {literal : Literal} (h : form.WellFormed)
    (hliteral : form.literal? = some literal) (hchars : ∀ c ∈ form.chars, isNumeralChar c = true) :
    ∃ integer fraction, form.chars = integer ++ fractionChars fraction ∧
      DigitParts integer fraction ∧ IsMagnitude integer fraction literal.value := by
  cases form with
  | marked radix mark digits exact =>
    have hmark := hchars mark (by simp [Form.chars])
    obtain ⟨-, -, hrun, hmarks, -⟩ := Radix.facts_of_ofMark? h.1
    rw [isRunChar, Bool.or_eq_false_iff] at hrun
    simp only [isNumeralChar, hrun.2, Bool.false_or, Bool.or_eq_true, beq_iff_eq] at hmark
    rcases hmark with (rfl | rfl) | rfl
    · exact absurd (by decide) hmarks
    · cases h.1
    · exact absurd (by decide) hmarks
  | octal digits =>
    cases hliteral
    have hoctal : LooksOctal ('0' :: digits) := (looksOctal_iff _).2 ⟨digits, rfl, h⟩
    have hdigits : isDigits ('0' :: digits) = true := (isDigits_iff _).2
      ⟨List.cons_ne_nil _ _, fun c hc => ((isDigit_eight_iff c).1 (hoctal.2.2 c hc)).1⟩
    exact ⟨'0' :: digits, none, (List.append_nil _).symm,
      ⟨hdigits, fun places h => absurd h (Option.not_mem_none places)⟩,
      fun _ => ⟨rfl, rfl⟩, fun hnot => absurd hoctal hnot⟩
  | decimal integer fraction exponent =>
    obtain ⟨hinteger, hfraction, hexponent⟩ := h
    cases exponent with
    | some e =>
      have hmark := hchars e.mark (by simp [Form.chars, Form.exponentChars, Exponent.chars])
      rcases (hexponent e rfl).mark with he | he <;> rw [he] at hmark <;> cases hmark
    | none =>
      have hnone : Form.exponentChars none = [] := rfl
      rw [Form.chars, hnone, List.append_nil] at hchars ⊢
      have hdigits : isDigits integer = true := isDigits_of_digitRun (digitRun_of_integer hinteger)
        fun c hc => hchars c (List.mem_append_left _ hc)
      have hplaces : ∀ digits ∈ fraction, ∀ c ∈ digits, isDigit 10 c = true := by
        rintro digits rfl
        rcases hfraction digits rfl with rfl | hrun
        · exact List.forall_mem_nil _
        · exact ((isDigits_iff digits).1 (isDigits_of_digitRun hrun fun c hc =>
            hchars c (List.mem_append_right _ (List.mem_cons_of_mem _ hc)))).2
      refine ⟨integer, fraction, rfl, ⟨hdigits, hplaces⟩,
        fun hoctal => absurd hoctal (not_looksOctal hinteger), fun _ => ?_⟩
      rw [Form.literal?, hnone, List.append_nil, withoutSeparators_parts ⟨hdigits, hplaces⟩]
        at hliteral
      obtain ⟨x, hx, rfl⟩ := Option.map_eq_some_iff.1 hliteral
      exact hx
  | bigInteger integer => cases hchars 'n' (by simp [Form.chars])
  | exactDecimal integer fraction => cases hchars 'm' (by simp [Form.chars])

end Literal

open Literal (DigitParts IsMagnitude LooksOctal)

/-! ## Numbers in the characters of numerals -/

namespace Format

/-- The negative of a number, if that is asked for. -/
def signed (negative : Bool) (x : Binary64) : Binary64 := if negative then -x else x

theorem eq_nil_of_trivia {gap : List Char} (h : Token.Trivia gap)
    (hchars : ∀ c ∈ gap, isNumeralChar c = true) : gap = [] := by
  cases h with
  | nil => rfl
  | @blank c rest hc _ =>
    have hchar := hchars c List.mem_cons_self
    simp only [isNumeralChar, Bool.or_eq_true, beq_iff_eq] at hchar
    rcases hchar with ((hdigit | rfl) | rfl) | rfl
    · rw [(Token.isBlank_of_digit hdigit).1] at hc
      cases hc
    all_goals exact absurd hc (by decide)
  | block => cases hchars '/' List.mem_cons_self
  | line => cases hchars '/' List.mem_cons_self

theorem eq_nil_of_endTrivia {cs : List Char} (h : Token.EndTrivia cs)
    (hchars : ∀ c ∈ cs, isNumeralChar c = true) : cs = [] := by
  rcases h with h | ⟨front, body, -, -, rfl⟩
  · exact eq_nil_of_trivia h hchars
  · cases hchars '/' (by simp)

/-- In the characters of numerals a number is digits with an optional minus and fraction. -/
theorem parseNumber?_eq_some_iff_of_chars {text : String}
    (h : ∀ c ∈ text.toList, isNumeralChar c = true) (x : Binary64) :
    parseNumber? text = some x ↔ ∃ negative integer fraction y,
      text.toList = minusChars negative ++ (integer ++ fractionChars fraction) ∧
        DigitParts integer fraction ∧ IsMagnitude integer fraction y ∧ x = signed negative y := by
  constructor
  · intro hx
    obtain ⟨⟨lead, sign, gap, form, tail, hlead, hgap, hform, htail⟩, literal, hchars, hliteral,
      rfl⟩ := NumberText.exists_of_parseNumber? hx
    rw [← hchars, NumberText.chars] at h
    simp only [List.forall_mem_append] at h
    obtain ⟨hleadChars, hsign, hgapChars, hformChars, htailChars⟩ := h
    obtain rfl := eq_nil_of_trivia hlead hleadChars
    obtain rfl := eq_nil_of_trivia hgap hgapChars
    obtain rfl := eq_nil_of_endTrivia htail htailChars
    obtain ⟨integer, fraction, hparts, hdigits, hvalue⟩ :=
      Literal.isMagnitude_of_form hform hliteral hformChars
    rw [NumberText.chars, List.append_nil, hparts] at hchars
    cases sign with
    | none => exact ⟨false, integer, fraction, _, hchars.symm, hdigits, hvalue, rfl⟩
    | some sign =>
      cases sign with
      | minus => exact ⟨true, integer, fraction, _, hchars.symm, hdigits, hvalue, rfl⟩
      | plus => cases hsign '+' List.mem_cons_self
  · rintro ⟨negative, integer, fraction, y, htext, hdigits, hy, rfl⟩
    obtain ⟨form, hform, hchars, hliteral⟩ := Literal.exists_form_of_isMagnitude hdigits hy
    rw [← hchars] at htext
    cases negative with
    | false =>
      exact (NumberText.parseNumber?_eq ⟨[], none, [], form, [], .nil, .nil, hform, .inl .nil⟩
        (by rw [htext, NumberText.chars, List.append_nil]; rfl) hliteral).1
    | true =>
      exact (NumberText.parseNumber?_eq
        ⟨[], some .minus, [], form, [], .nil, .nil, hform, .inl .nil⟩
        (by rw [htext, NumberText.chars, List.append_nil]; rfl) hliteral).1

/-! ## The parts of a numeral -/

/-- The characters after an optional minus. -/
def unsigned (cs : List Char) : List Char := if cs.head? = some '-' then cs.tail else cs

/-- The characters between an optional minus and the point. -/
def integerPart (cs : List Char) : List Char := (unsigned cs).takeWhile (· != '.')

/-- The number that a decimal text with an optional minus is read as. -/
def signedDecimal? (cs : List Char) : Option Binary64 :=
  (Binary64.ofDecimalText? (unsigned cs)).map (signed (cs.head? == some '-'))

section Parts

variable {negative : Bool} {integer : List Char} {fraction : Option (List Char)} {cs : List Char}

theorem ne_of_mem_digits {digits : List Char} (h : ∀ c ∈ digits, isDigit 10 c = true) {d : Char}
    (hd : isDigit 10 d = false) : d ∉ digits := by
  intro hmem
  rw [h d hmem] at hd
  cases hd

theorem head?_parts (h : DigitParts integer fraction) :
    ((minusChars negative ++ (integer ++ fractionChars fraction)).head? == some '-') =
      negative := by
  cases negative with
  | true => rfl
  | false =>
    obtain ⟨hne, hdigits⟩ := (isDigits_iff integer).1 h.integer
    obtain ⟨c, rest, rfl⟩ := List.exists_cons_of_ne_nil hne
    refine beq_eq_false_iff_ne.2 ?_
    rintro ⟨⟩
    exact ne_of_mem_digits hdigits (by decide) List.mem_cons_self

theorem unsigned_parts (h : DigitParts integer fraction) :
    unsigned (minusChars negative ++ (integer ++ fractionChars fraction)) =
      integer ++ fractionChars fraction := by
  have hhead := @head?_parts negative _ _ h
  unfold unsigned
  cases negative with
  | true => rfl
  | false => exact if_neg (beq_eq_false_iff_ne.1 hhead)

theorem integerPart_parts (h : DigitParts integer fraction) :
    integerPart (minusChars negative ++ (integer ++ fractionChars fraction)) = integer := by
  have hpoint : ∀ c ∈ integer, (c != '.') = true := by
    intro c hc
    rw [bne_iff_ne]
    rintro rfl
    exact ne_of_mem_digits ((isDigits_iff integer).1 h.integer).2 (by decide) hc
  rw [integerPart, unsigned_parts h, List.takeWhile_append_of_pos hpoint]
  cases fraction with
  | none => exact List.append_nil _
  | some digits => exact List.append_nil _

theorem point_mem_parts (h : DigitParts integer fraction) :
    '.' ∈ minusChars negative ++ (integer ++ fractionChars fraction) ↔ fraction ≠ none := by
  have hinteger := ne_of_mem_digits ((isDigits_iff integer).1 h.integer).2
    (show isDigit 10 '.' = false by decide)
  have hminus : '.' ∉ minusChars negative := by cases negative <;> decide
  cases fraction with
  | none => simp [fractionChars, hinteger, hminus]
  | some digits => simp [fractionChars]

theorem comma_not_mem_parts (h : DigitParts integer fraction) :
    ',' ∉ minusChars negative ++ (integer ++ fractionChars fraction) := by
  have hcomma : isDigit 10 ',' = false := by decide
  have hinteger := ne_of_mem_digits ((isDigits_iff integer).1 h.integer).2 hcomma
  have hminus : ',' ∉ minusChars negative := by cases negative <;> decide
  cases fraction with
  | none => simp [fractionChars, hinteger, hminus]
  | some digits =>
    have hdigits := ne_of_mem_digits (h.fraction digits rfl) hcomma
    simp [fractionChars, hinteger, hminus, hdigits]

theorem digit_before_point (h : DigitParts integer fraction) :
    ∃ c ∈ (minusChars negative ++ (integer ++ fractionChars fraction)).takeWhile (· != '.'),
      isDigit 10 c = true := by
  obtain ⟨hne, hdigits⟩ := (isDigits_iff integer).1 h.integer
  obtain ⟨c, rest, rfl⟩ := List.exists_cons_of_ne_nil hne
  have hc := hdigits c List.mem_cons_self
  have hpoint : (c != '.') = true := by
    rw [bne_iff_ne]
    rintro rfl
    cases hc
  refine ⟨c, ?_, hc⟩
  cases negative <;> simp [minusChars, hpoint]

/-- A numeral with a digit before the point and no groups. -/
theorem exists_parts_of_isNumeral (h : isNumeral cs = true) (hcomma : ',' ∉ cs)
    (hdigit : ∃ c ∈ cs.takeWhile (· != '.'), isDigit 10 c = true) :
    ∃ negative integer fraction,
      cs = minusChars negative ++ (integer ++ fractionChars fraction) ∧
        DigitParts integer fraction := by
  rcases (isNumeral_iff cs).1 h with hfraction | ⟨negative, integer, groups, fraction, rfl,
    hinteger, hgroups, -, hfraction⟩
  · obtain ⟨fraction, rfl, -⟩ := (isFraction_iff cs).1 hfraction
    obtain ⟨c, hc, -⟩ := hdigit
    cases fraction <;> cases hc
  · obtain ⟨fraction, rfl, hdigits⟩ := (isFraction_iff fraction).1 hfraction
    cases hgroups with
    | nil =>
      exact ⟨negative, integer, fraction, rfl, hinteger, fun digits hmem =>
        ((isDigits_iff digits).1 (hdigits digits hmem)).2⟩
    | group => exact absurd (by simp) hcomma

end Parts

/-! ## What a numeral is read as -/

variable {value : String} {x : Binary64}

theorem exists_number_iff (h : isNumeral value.toList = true) :
    (∃ x, parseNumber? value = some x) ↔ ',' ∉ value.toList ∧
      (∃ c ∈ value.toList.takeWhile (· != '.'), isDigit 10 c = true) ∧
        ¬ ('.' ∈ value.toList ∧ LooksOctal (integerPart value.toList)) := by
  have hread := parseNumber?_eq_some_iff_of_chars (isNumeralChar_of_isNumeral h)
  constructor
  · rintro ⟨x, hx⟩
    obtain ⟨negative, integer, fraction, y, htext, hparts, hy, -⟩ := (hread x).1 hx
    rw [htext]
    refine ⟨comma_not_mem_parts hparts, digit_before_point hparts, ?_⟩
    rw [point_mem_parts hparts, integerPart_parts hparts]
    rintro ⟨hfraction, hoctal⟩
    exact hfraction ((Literal.exists_isMagnitude_iff hparts).1 ⟨y, hy⟩ hoctal)
  · rintro ⟨hcomma, hdigit, hoctal⟩
    obtain ⟨negative, integer, fraction, htext, hparts⟩ :=
      exists_parts_of_isNumeral h hcomma hdigit
    rw [htext, point_mem_parts hparts, integerPart_parts hparts] at hoctal
    obtain ⟨y, hy⟩ := (Literal.exists_isMagnitude_iff hparts).2 fun hlooks =>
      Classical.not_not.1 fun hfraction => hoctal ⟨hfraction, hlooks⟩
    exact ⟨_, (hread _).2 ⟨negative, integer, fraction, y, htext, hparts, hy, rfl⟩⟩

theorem number_of_isNumeral (h : isNumeral value.toList = true)
    (hx : parseNumber? value = some x) :
    (LooksOctal (integerPart value.toList) → x = signed (value.toList.head? == some '-')
      (Binary64.ofDigits 8 (integerPart value.toList))) ∧
    (¬ LooksOctal (integerPart value.toList) → signedDecimal? value.toList = some x) := by
  obtain ⟨negative, integer, fraction, y, htext, hparts, hy, rfl⟩ :=
    (parseNumber?_eq_some_iff_of_chars (isNumeralChar_of_isNumeral h) x).1 hx
  rw [htext, integerPart_parts hparts, head?_parts hparts]
  refine ⟨fun hoctal => ?_, fun hoctal => ?_⟩
  · rw [(hy.1 hoctal).2]
  · rw [signedDecimal?, unsigned_parts hparts, head?_parts hparts, hy.2 hoctal]
    rfl

/-- Digits alone are read as a number. -/
theorem exists_number_of_isDigits (h : isDigits value.toList = true) :
    ∃ x, parseNumber? value = some x := by
  obtain ⟨hne, hdigits⟩ := (isDigits_iff value.toList).1 h
  have hparts : DigitParts value.toList none := ⟨h, nofun⟩
  have htext : value.toList = minusChars false ++ (value.toList ++ fractionChars none) :=
    (List.append_nil _).symm
  refine (exists_number_iff (isNumeral_of_isDigits h)).2 ?_
  rw [htext]
  refine ⟨comma_not_mem_parts hparts, digit_before_point hparts, ?_⟩
  rintro ⟨hpoint, -⟩
  exact (point_mem_parts hparts).1 hpoint rfl

end Format

open Format (integerPart signed signedDecimal?)

/-- Whatever passes as digits is a number. What passes as a number is read as one exactly if it has
no comma, a digit before the point, and no fraction after a zero and further octal digits; then it
is the fold of such digits in radix eight, with its sign, or else what the text is read as. -/
theorem numeral_as_number (value : String) (params : List String) :
    (Rule.digits.check value params = .ok true →
      Rule.number.check value params = .ok true ∧ ∃ x, parseNumber? value = some x) ∧
    (Rule.number.check value params = .ok true →
      ((∃ x, parseNumber? value = some x) ↔ ',' ∉ value.toList ∧
        (∃ c ∈ value.toList.takeWhile (· != '.'), isDigit 10 c = true) ∧
          ¬ ('.' ∈ value.toList ∧ LooksOctal (integerPart value.toList))) ∧
      ∀ x, parseNumber? value = some x →
        (LooksOctal (integerPart value.toList) → x = signed (value.toList.head? == some '-')
          (Binary64.ofDigits 8 (integerPart value.toList))) ∧
        (¬ LooksOctal (integerPart value.toList) → signedDecimal? value.toList = some x)) := by
  refine ⟨fun h => ?_, fun h => ?_⟩
  · have hdigits : isDigits value.toList = true := Except.ok.inj h
    exact ⟨congrArg Except.ok (Format.isNumeral_of_isDigits hdigits),
      Format.exists_number_of_isDigits hdigits⟩
  · have hnumeral : Format.isNumeral value.toList = true := Except.ok.inj h
    exact ⟨Format.exists_number_iff hnumeral, fun x hx => Format.number_of_isNumeral hnumeral hx⟩

/-- Past a zero the digits are octal, unless there is an eight among them. With a fraction octal
digits are no number, although they pass as one. -/
theorem numeral_as_number_of_zeros :
    (Rule.digits.check "010" [] = .ok true ∧ parseNumber? "010" = some (Binary64.ofNat 8)) ∧
      (Rule.number.check "-08.5" [] = .ok true ∧
        parseNumber? "-08.5" = some (Binary64.ofUnits true (17 * Binary64.one) 2)) ∧
      Rule.number.check "01.5" [] = .ok true ∧ parseNumber? "01.5" = none := by
  have hdigits : Rule.digits.check "010" [] = .ok true := by decide +kernel
  have hnumber : Rule.number.check "-08.5" [] = .ok true := by decide +kernel
  have hmixed : Rule.number.check "01.5" [] = .ok true := by decide +kernel
  refine ⟨⟨hdigits, ?_⟩, ⟨hnumber, ?_⟩, hmixed, ?_⟩
  · obtain ⟨hpasses, x, hx⟩ := (numeral_as_number "010" []).1 hdigits
    obtain rfl := (((numeral_as_number "010" []).2 hpasses).2 x hx).1 (by decide +kernel)
    rw [hx]
    decide +kernel
  · obtain ⟨hread, hvalue⟩ := (numeral_as_number "-08.5" []).2 hnumber
    obtain ⟨x, hx⟩ := hread.2 ⟨by decide +kernel, ⟨'0', by decide +kernel, rfl⟩, by decide +kernel⟩
    have hdecimal := (hvalue x hx).2 (by decide +kernel)
    rw [hx, ← hdecimal]
    decide +kernel
  · obtain ⟨hread, -⟩ := (numeral_as_number "01.5" []).2 hmixed
    rw [Option.eq_none_iff_forall_ne_some]
    intro x hx
    exact (hread.1 ⟨x, hx⟩).2.2 (by decide +kernel)

end IntervalRules
