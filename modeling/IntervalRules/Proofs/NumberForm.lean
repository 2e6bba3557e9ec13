import IntervalRules.Proofs.NumberShape

/-!
The decimal shapes that are accepted, and the literals they denote, are those of the well-formed
forms without a radix mark.
-/

namespace IntervalRules

open Text (isDigit)

namespace Literal

theorem isDigit_eight_iff (c : Char) :
    isDigit 8 c = true ↔ isDigit 10 c = true ∧ c ≠ '8' ∧ c ≠ '9' := by
  have hne (d : Char) : c ≠ d ↔ c.toNat ≠ d.toNat := not_congr Char.toNat_inj.symm
  rw [isDigit_iff, isDigit_iff, hne, hne, show '8'.toNat = 56 from rfl,
    show '9'.toNat = 57 from rfl]
  omega

theorem ne_separator_of_isDigit {base : Nat} {c : Char} (h : isDigit base c = true) : c ≠ '_' := by
  rintro rfl
  rw [isDigit_separator] at h
  cases h

/-- Digits alone are a run. -/
theorem digitRun_of_digits {base : Nat} {digits : List Char} (hne : digits ≠ [])
    (h : ∀ c ∈ digits, isDigit base c = true) : DigitRun base digits where
  ne_nil := hne
  chars := fun c hc => (isRunChar_iff base c).2 (.inr (h c hc))
  separated := by
    rintro front back rfl
    exact absurd rfl (ne_separator_of_isDigit (h '_' (by simp)))

theorem PlainInteger.digitRun {cs : List Char} (h : PlainInteger cs) : DigitRun 10 cs := by
  rcases h with rfl | h
  · refine digitRun_of_digits (by simp) ?_
    intro c hc
    rw [List.mem_singleton] at hc
    subst hc
    rfl
  · exact h.1

theorem LegacyDecimal.digitRun {cs : List Char} (h : LegacyDecimal cs) : DigitRun 10 cs := by
  obtain ⟨digits, rfl, hdigits, -⟩ := h
  refine digitRun_of_digits (by simp) ?_
  intro c hc
  rcases List.mem_cons.1 hc with rfl | hc
  · rfl
  · exact hdigits c hc

end Literal

open Literal (DigitRun PlainInteger LegacyDecimal FractionRun ExponentPart Form)

namespace DecimalShape

theorem hasLeadingZero_iff (s : DecimalShape) :
    s.hasLeadingZero = true ↔ ∃ digits, s.integer = '0' :: digits ∧ digits ≠ [] := by
  rw [hasLeadingZero]
  constructor
  · intro h
    match hinteger : s.integer with
    | [] => simp [hinteger] at h
    | [c] => simp [hinteger] at h
    | c :: d :: digits =>
      simp only [hinteger, List.head?_cons, Bool.and_eq_true, beq_iff_eq, Option.some.injEq] at h
      exact ⟨d :: digits, by rw [h.1], List.cons_ne_nil _ _⟩
  · rintro ⟨digits, hinteger, hne⟩
    have hpos := List.length_pos_iff.2 hne
    simp only [hinteger, List.head?_cons, beq_self_eq_true, List.length_cons, Bool.true_and,
      decide_eq_true_eq]
    omega

theorem plainInteger_iff (s : DecimalShape) :
    PlainInteger s.integer ↔ DigitRun 10 s.integer ∧ s.hasLeadingZero = false := by
  rw [Bool.eq_false_iff, Ne, hasLeadingZero_iff]
  constructor
  · intro h
    refine ⟨h.digitRun, ?_⟩
    rintro ⟨digits, hinteger, hne⟩
    rcases h with h | h
    · rw [hinteger] at h
      exact hne (List.cons.inj h).2
    · rw [hinteger] at h
      exact h.2 rfl
  · rintro ⟨hrun, hzero⟩
    by_cases hhead : s.integer.head? = some '0'
    · left
      obtain ⟨digits, hinteger⟩ : ∃ digits, s.integer = '0' :: digits := by
        cases hi : s.integer with
        | nil => exact absurd hi hrun.ne_nil
        | cons c digits =>
          rw [hi] at hhead
          cases hhead
          exact ⟨digits, rfl⟩
      have hnil : digits = [] := Classical.not_not.1 fun hne => hzero ⟨digits, hinteger, hne⟩
      rw [hinteger, hnil]
    · exact .inr ⟨hrun, hhead⟩

theorem isOctal_iff (s : DecimalShape) :
    s.isOctal = true ↔ s.hasLeadingZero = true ∧ '8' ∉ s.integer ∧ '9' ∉ s.integer := by
  simp [isOctal, and_assoc]

theorem isOctal_of_plainInteger {s : DecimalShape} (h : PlainInteger s.integer) :
    s.isOctal = false :=
  isOctal_of_no_leading_zero ((plainInteger_iff s).1 h).2

/-- After a leading zero there are digits only. -/
theorem exists_legacy_digits {s : DecimalShape} (hrun : DigitRun 10 s.integer)
    (hzero : s.hasLeadingZero = true) (hseparator : '_' ∉ s.integer) :
    ∃ digits, s.integer = '0' :: digits ∧ digits ≠ [] ∧ ∀ c ∈ digits, isDigit 10 c = true := by
  obtain ⟨digits, hinteger, hne⟩ := (hasLeadingZero_iff s).1 hzero
  refine ⟨digits, hinteger, hne, ?_⟩
  intro c hc
  rw [hinteger] at hrun hseparator
  have hmem := List.mem_cons_of_mem '0' hc
  rcases (Literal.isRunChar_iff 10 c).1 (hrun.chars c hmem) with rfl | hdigit
  · exact absurd hmem hseparator
  · exact hdigit

theorem legacyDecimal_of_not_octal {s : DecimalShape} (hrun : DigitRun 10 s.integer)
    (hzero : s.hasLeadingZero = true) (hseparator : '_' ∉ s.integer)
    (hoctal : s.isOctal = false) : LegacyDecimal s.integer := by
  obtain ⟨digits, hinteger, -, hdigits⟩ := exists_legacy_digits hrun hzero hseparator
  refine ⟨digits, hinteger, hdigits, ?_⟩
  rw [Bool.eq_false_iff, Ne, isOctal_iff, hinteger] at hoctal
  by_cases height : '8' ∈ digits
  · exact .inl height
  · right
    refine Classical.not_not.1 fun hnine => hoctal ⟨hzero, ?_, ?_⟩
    · simpa using height
    · simpa using hnine

theorem hasLeadingZero_of_legacyDecimal {s : DecimalShape} (h : LegacyDecimal s.integer) :
    s.hasLeadingZero = true ∧ s.isOctal = false ∧ '_' ∉ s.integer := by
  obtain ⟨digits, hinteger, hdigits, hhigh⟩ := h
  have hne : digits ≠ [] := by
    rintro rfl
    simp at hhigh
  refine ⟨(hasLeadingZero_iff s).2 ⟨digits, hinteger, hne⟩, ?_, ?_⟩
  · rw [Bool.eq_false_iff, Ne, isOctal_iff, hinteger]
    rintro ⟨-, height, hnine⟩
    rcases hhigh with h | h
    · exact height (List.mem_cons_of_mem '0' h)
    · exact hnine (List.mem_cons_of_mem '0' h)
  · rw [hinteger]
    intro hmem
    rcases List.mem_cons.1 hmem with h | h
    · cases h
    · exact Literal.ne_separator_of_isDigit (hdigits '_' h) rfl

end DecimalShape

namespace Literal

theorem FractionRun.chars {digits : List Char} (h : FractionRun digits) :
    ∀ c ∈ digits, isRunChar 10 c = true := by
  rcases h with rfl | h
  · exact nofun
  · exact h.chars

namespace Form

/-- The parts of a form without a radix mark. -/
def shape? : Form → Option DecimalShape
  | .marked _ _ _ _ => none
  | .octal digits => some ⟨'0' :: digits, none, none, none⟩
  | .decimal integer fraction exponent => some ⟨integer, fraction, exponent, none⟩
  | .bigInteger integer => some ⟨integer, none, none, some .bigInteger⟩
  | .exactDecimal integer fraction => some ⟨integer, fraction, none, some .decimal⟩

theorem marked_or_shape (form : Form) :
    (∃ radix mark digits exact, form = .marked radix mark digits exact) ∨
      ∃ s, form.shape? = some s := by
  cases form with
  | marked radix mark digits exact => exact .inl ⟨radix, mark, digits, exact, rfl⟩
  | octal => exact .inr ⟨_, rfl⟩
  | decimal => exact .inr ⟨_, rfl⟩
  | bigInteger => exact .inr ⟨_, rfl⟩
  | exactDecimal => exact .inr ⟨_, rfl⟩

theorem chars_of_shape {form : Form} {s : DecimalShape} (h : form.shape? = some s) :
    form.chars = s.chars := by
  cases form with
  | marked => cases h
  | octal => cases h; simp [chars, DecimalShape.chars_eq, fractionChars, exponentChars]
  | decimal => cases h; simp [chars, DecimalShape.chars_eq]
  | bigInteger =>
    cases h
    simp [chars, DecimalShape.chars_eq, fractionChars, exponentChars, Suffix.char]
  | exactDecimal =>
    cases h
    simp [chars, DecimalShape.chars_eq, exponentChars, Suffix.char]

theorem proper_of_shape {form : Form} {s : DecimalShape} (h : form.shape? = some s)
    (hform : form.WellFormed) : s.Proper ∧ DigitRun 10 s.integer := by
  have hmark (integer : List Char) (fraction : Option (List Char)) (suffix : Option Suffix)
      (hinteger : DigitRun 10 integer) (hfraction : ∀ digits ∈ fraction, FractionRun digits) :
      (DecimalShape.mk integer fraction none suffix).Proper :=
    ⟨hinteger.chars, fun digits hdigits => (hfraction digits hdigits).chars,
      nofun, nofun, nofun⟩
  cases form with
  | marked => cases h
  | octal digits =>
    cases h
    have hrun : DigitRun 10 ('0' :: digits) := by
      refine digitRun_of_digits (List.cons_ne_nil _ _) ?_
      intro c hc
      rcases List.mem_cons.1 hc with rfl | hc
      · rfl
      · exact ((isDigit_eight_iff c).1 (hform.2 c hc)).1
    exact ⟨hmark _ none none hrun nofun, hrun⟩
  | decimal integer fraction exponent =>
    cases h
    obtain ⟨hinteger, hfraction, hexponent⟩ := hform
    have hrun : DigitRun 10 integer := by
      rcases hinteger with hinteger | hinteger
      · exact hinteger.digitRun
      · exact hinteger.digitRun
    exact ⟨⟨hrun.chars, fun digits hdigits => (hfraction digits hdigits).chars,
      fun e he => (hexponent e he).mark, fun e he => (hexponent e he).sign,
      fun e he => ⟨(hexponent e he).digits.ne_nil, (hexponent e he).digits.chars⟩⟩, hrun⟩
  | bigInteger integer =>
    cases h
    have hrun := PlainInteger.digitRun hform
    exact ⟨hmark integer none _ hrun nofun, hrun⟩
  | exactDecimal integer fraction =>
    cases h
    have hrun := PlainInteger.digitRun hform.1
    exact ⟨hmark integer fraction _ hrun hform.2, hrun⟩

end Form

end Literal

namespace Token

open DecimalShape

/-- No separator is at fault exactly if every part is a run and there is none after a leading
zero. -/
theorem separatorFault?_eq_none_iff {s : DecimalShape} (hs : s.Proper) (hne : s.integer ≠ []) :
    separatorFault? s = none ↔
      DigitRun 10 s.integer ∧ (∀ digits ∈ s.fraction, FractionRun digits) ∧
        (∀ e ∈ s.exponent, DigitRun 10 e.digits) ∧
          (s.hasLeadingZero = true → '_' ∉ s.integer) := by
  have hinteger : DigitRun 10 s.integer ↔
      Literal.misplacedSeparator? 10 false s.integer = none := by
    rw [Literal.digitRun_iff hs.integer]
    exact and_iff_right hne
  have hfraction : (∀ digits ∈ s.fraction, FractionRun digits) ↔
      ∀ digits ∈ s.fraction, Literal.misplacedSeparator? 10 false digits = none := by
    refine forall₂_congr fun digits hdigits => ?_
    rw [FractionRun, Literal.digitRun_iff (hs.fraction digits hdigits)]
    by_cases hnil : digits = []
    · subst hnil
      simp [Literal.misplacedSeparator?]
    · simp [hnil]
  have hexponent : (∀ e ∈ s.exponent, DigitRun 10 e.digits) ↔
      ∀ e ∈ s.exponent, Literal.misplacedSeparator? 10 false e.digits = none := by
    refine forall₂_congr fun e he => ?_
    rw [Literal.digitRun_iff (hs.exponent e he).2]
    exact and_iff_right (hs.exponent e he).1
  rw [hinteger, hfraction, hexponent]
  simp only [separatorFault?, misplacedSeparator?, Option.or_eq_none_iff, and_assoc]
  refine and_congr Iff.rfl (and_congr ?_ (and_congr ?_ ?_))
  · cases s.fraction <;> simp
  · cases s.exponent <;> simp
  · simp

theorem exists_octal_of_shape {s : DecimalShape} (hoctal : s.isOctal = true)
    (hrun : DigitRun 10 s.integer) (hseparator : '_' ∉ s.integer) (hfraction : s.fraction = none)
    (hexponent : s.exponent = none) (hsuffix : s.suffix = none) :
    ∃ form : Form, form.shape? = some s ∧ form.WellFormed ∧
      form.literal? = some (.number (Binary64.ofDigits 8 s.integer)) := by
  obtain ⟨hzero, height, hnine⟩ := (isOctal_iff s).1 hoctal
  obtain ⟨digits, hinteger, hne, hdigits⟩ := exists_legacy_digits hrun hzero hseparator
  rw [hinteger] at height hnine
  refine ⟨.octal digits, ?_, ⟨hne, fun c hc => ?_⟩, ?_⟩
  · rw [Form.shape?, ← hinteger, ← hfraction, ← hexponent, ← hsuffix]
  · refine (Literal.isDigit_eight_iff c).2 ⟨hdigits c hc, ?_, ?_⟩
    · rintro rfl
      exact height (List.mem_cons_of_mem '0' hc)
    · rintro rfl
      exact hnine (List.mem_cons_of_mem '0' hc)
  · rw [Form.literal?, hinteger]

/-- What is no octal starts with an integer that may start a decimal. -/
theorem integer_of_not_octal {s : DecimalShape} (hs : s.Proper) (hne : s.integer ≠ [])
    (hseparators : separatorFault? s = none) (hoctal : s.isOctal = false) :
    PlainInteger s.integer ∨ LegacyDecimal s.integer := by
  obtain ⟨hrun, -, -, hseparator⟩ := (separatorFault?_eq_none_iff hs hne).1 hseparators
  cases hzero : s.hasLeadingZero with
  | false => exact .inl ((plainInteger_iff s).2 ⟨hrun, hzero⟩)
  | true => exact .inr (legacyDecimal_of_not_octal hrun hzero (hseparator hzero) hoctal)

/-- An accepted shape is that of a form with its literal. -/
theorem exists_form_of_accepted {s : DecimalShape} {x : Literal} (hs : s.Proper)
    (hne : s.integer ≠ []) (hseparators : separatorFault? s = none)
    (hliteral : decimalLiteral s = .ok x) :
    ∃ form : Form, form.shape? = some s ∧ form.WellFormed ∧ form.literal? = some x := by
  obtain ⟨hrun, hfraction, hexponent, hseparator⟩ :=
    (separatorFault?_eq_none_iff hs hne).1 hseparators
  have hplain (hzero : s.hasLeadingZero = false) : PlainInteger s.integer :=
    (plainInteger_iff s).2 ⟨hrun, hzero⟩
  cases decimalLiteral_eq_iff.1 hliteral with
  | bigInteger suffix fraction exponent zero =>
    refine ⟨.bigInteger s.integer, ?_, hplain zero, rfl⟩
    rw [Form.shape?, ← suffix, ← fraction, ← exponent]
  | decimal suffix exponent zero =>
    refine ⟨.exactDecimal s.integer s.fraction, ?_, ⟨hplain zero, hfraction⟩, rfl⟩
    rw [Form.shape?, ← suffix, ← exponent]
  | octal octal suffix fraction exponent =>
    have hclean := hseparator ((isOctal_iff s).1 octal).1
    exact exists_octal_of_shape octal hrun hclean fraction exponent suffix
  | number octal suffix read =>
    refine ⟨.decimal s.integer s.fraction s.exponent, ?_,
      ⟨integer_of_not_octal hs hne hseparators octal, hfraction, ?_⟩, ?_⟩
    · rw [Form.shape?, ← suffix]
    · exact fun e he => ⟨hs.mark e he, hs.sign e he, hexponent e he⟩
    · exact congrArg (Option.map Literal.number) read

theorem isOctal_of_octal {digits : List Char} (hform : (Form.octal digits).WellFormed) :
    (DecimalShape.mk ('0' :: digits) none none none).isOctal = true ∧ '_' ∉ '0' :: digits := by
  have hdigits (c : Char) (hc : c ∈ '0' :: digits) : isDigit 8 c = true := by
    rcases List.mem_cons.1 hc with rfl | hc
    · rfl
    · exact hform.2 c hc
  refine ⟨(isOctal_iff _).2 ⟨(hasLeadingZero_iff _).2 ⟨digits, rfl, hform.1⟩, ?_, ?_⟩, ?_⟩
  · exact fun h => absurd rfl ((Literal.isDigit_eight_iff '8').1 (hdigits '8' h)).2.1
  · exact fun h => absurd rfl ((Literal.isDigit_eight_iff '9').1 (hdigits '9' h)).2.2
  · exact fun h => Literal.ne_separator_of_isDigit (hdigits '_' h) rfl

/-- An integer that may start a decimal is not octal, and has no separator after a zero. -/
theorem not_octal_of_integer {s : DecimalShape}
    (h : PlainInteger s.integer ∨ LegacyDecimal s.integer) :
    s.isOctal = false ∧ (s.hasLeadingZero = true → '_' ∉ s.integer) := by
  rcases h with hplain | hlegacy
  · refine ⟨isOctal_of_plainInteger hplain, ?_⟩
    rw [((plainInteger_iff s).1 hplain).2]
    exact nofun
  · obtain ⟨-, hoctal, hseparator⟩ := hasLeadingZero_of_legacyDecimal hlegacy
    exact ⟨hoctal, fun _ => hseparator⟩

/-- The shape of a form is accepted with its literal. -/
theorem accepted_of_form {form : Form} {s : DecimalShape} {x : Literal}
    (hshape : form.shape? = some s) (hform : form.WellFormed) (hliteral : form.literal? = some x) :
    separatorFault? s = none ∧ decimalLiteral s = .ok x := by
  obtain ⟨hs, hrun⟩ := Literal.Form.proper_of_shape hshape hform
  rw [separatorFault?_eq_none_iff hs hrun.ne_nil]
  cases form with
  | marked => cases hshape
  | octal digits =>
    cases hshape
    cases hliteral
    obtain ⟨hoctal, hseparator⟩ := isOctal_of_octal hform
    exact ⟨⟨hrun, nofun, nofun, fun _ => hseparator⟩,
      decimalLiteral_eq_iff.2 (.octal hoctal rfl rfl rfl)⟩
  | decimal integer fraction exponent =>
    cases hshape
    obtain ⟨hinteger, hfraction, hexponent⟩ := hform
    obtain ⟨hoctal, hseparator⟩ :=
      not_octal_of_integer (s := ⟨integer, fraction, exponent, none⟩) hinteger
    refine ⟨⟨hrun, hfraction, fun e he => (hexponent e he).digits, hseparator⟩, ?_⟩
    obtain ⟨value, hvalue, rfl⟩ := Option.map_eq_some_iff.1 hliteral
    exact decimalLiteral_eq_iff.2 (.number hoctal rfl hvalue)
  | bigInteger integer =>
    cases hshape
    cases hliteral
    have hseparator :=
      (not_octal_of_integer (s := ⟨integer, none, none, some .bigInteger⟩) (.inl hform)).2
    have hzero := ((plainInteger_iff ⟨integer, none, none, some .bigInteger⟩).1 hform).2
    exact ⟨⟨hrun, nofun, nofun, hseparator⟩,
      decimalLiteral_eq_iff.2 (.bigInteger rfl rfl rfl hzero)⟩
  | exactDecimal integer fraction =>
    cases hshape
    cases hliteral
    have hseparator :=
      (not_octal_of_integer (s := ⟨integer, fraction, none, some .decimal⟩) (.inl hform.1)).2
    have hzero := ((plainInteger_iff ⟨integer, fraction, none, some .decimal⟩).1 hform.1).2
    exact ⟨⟨hrun, hform.2, nofun, hseparator⟩, decimalLiteral_eq_iff.2 (.decimal rfl rfl hzero)⟩

end Token

end IntervalRules
