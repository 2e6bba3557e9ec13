import IntervalRules.Proofs.Display
import IntervalRules.Proofs.NumberText
import IntervalRules.Proofs.Positions
import IntervalRules.Proofs.Relocation

/-!
No NaN comes from a text. A number is folded from its digits or read as a decimal, and neither gives
less than zero or NaN, however large it is; so each text with the tokens of one number is read as a
number, and the bounds of an interval that is read are apart. The ways out for a number that has no
digits or cannot be read are never taken.
-/

namespace IntervalRules

open Literal (Form withoutSeparators)
open Literal.Form (fractionChars)

namespace Binary64

variable {x : Binary64} {positive : Prop}

theorem Folded.isNaN_eq_false (h : x.Folded positive) : x.isNaN = false := by
  rcases h with rfl | ⟨units, hgrid, rfl, -⟩
  · rfl
  · rfl

theorem Folded.zero_le (h : x.Folded positive) : zero.le x = true := by
  rcases h with rfl | ⟨units, hgrid, rfl, -⟩
  · decide +kernel
  · simp [zero, le, compares, position, isNegative, magnitude]

theorem lower_of_lt {y : Binary64} (h : x.lt y = true) : x.isNaN = false ∧ x ≠ posInfinity := by
  rcases (lt_cases h).1 with rfl | ⟨negative, units, hgrid, rfl⟩
  · exact ⟨rfl, nofun⟩
  · exact ⟨rfl, nofun⟩

theorem upper_of_lt {y : Binary64} (h : x.lt y = true) : y.isNaN = false ∧ y ≠ negInfinity := by
  rcases (lt_cases h).2 with rfl | ⟨negative, units, hgrid, rfl⟩
  · exact ⟨rfl, nofun⟩
  · exact ⟨rfl, nofun⟩

end Binary64

/-- The bounds are numbers, in order, and neither is infinite on the other's side. -/
structure Interval.Proper (i : Interval) : Prop where
  lower_number : i.lower.isNaN = false
  upper_number : i.upper.isNaN = false
  ordered : i.lower.lt i.upper = true
  lower_ne : i.lower ≠ .posInfinity
  upper_ne : i.upper ≠ .negInfinity

/-- The order of the bounds is all that it takes: NaN is below nothing and above nothing. -/
theorem Interval.proper_of_lt {i : Interval} (h : i.lower.lt i.upper = true) : i.Proper := by
  obtain ⟨hlower, hlower_ne⟩ := Binary64.lower_of_lt h
  obtain ⟨hupper, hupper_ne⟩ := Binary64.upper_of_lt h
  exact ⟨hlower, hupper, h, hlower_ne, hupper_ne⟩

/-! ## Values of numbers -/

namespace Literal.Form

variable {form : Form} {x : Literal}

theorem ofDecimalText?_isSome {text : String} (hform : form.WellFormed)
    (hx : form.literal? = some (.decimal text)) :
    (Binary64.ofDecimalText? text.toList).isSome = true := by
  cases form with
  | exactDecimal integer fraction =>
    obtain rfl : String.ofList (withoutSeparators (integer ++ fractionChars fraction)) = text :=
      Literal.decimal.inj (Option.some.inj hx)
    rw [String.toList_ofList, ofDecimalText?_exact hform]
    rfl
  | decimal integer fraction exponent =>
    obtain ⟨value, -, hvalue⟩ := Option.map_eq_some_iff.1 hx
    cases hvalue
  | marked radix mark digits exact => cases exact <;> cases hx
  | octal digits => cases hx
  | bigInteger integer => cases hx

/-- A value is a fold of digits or a decimal. -/
theorem value_cases (hform : form.WellFormed) (hx : form.literal? = some x) :
    (∃ (radix : Radix) (n : Nat), x.value = .foldNat radix.base n) ∨
      ∃ d : Decimal, x.value = d.toBinary64 := by
  have hfolded {n : Nat} (hn : form.Denotes n) {radix : Radix}
      (hradix : form.foldRadix? = some radix) :
      ∃ (radix : Radix) (n : Nat), x.value = .foldNat radix.base n :=
    ⟨radix, n, (value_of_denotes hform hx hn).1 radix hradix⟩
  cases form with
  | marked radix mark digits exact => exact .inl (hfolded rfl rfl)
  | octal digits => exact .inl (hfolded rfl rfl)
  | bigInteger integer => exact .inl (hfolded rfl rfl)
  | decimal integer fraction exponent =>
    rw [literal?, ofDecimalText?_eq hform.1 hform.2.1 hform.2.2] at hx
    obtain rfl := Option.some.inj hx
    exact .inr ⟨_, rfl⟩
  | exactDecimal integer fraction =>
    obtain rfl := Option.some.inj hx
    rw [value, String.toList_ofList, ofDecimalText?_exact hform]
    exact .inr ⟨_, rfl⟩

/-- The value of a number is not negative and no NaN. -/
theorem folded_value (hform : form.WellFormed) (hx : form.literal? = some x) :
    x.value.Folded False := by
  rcases value_cases hform hx with ⟨radix, n, hvalue⟩ | ⟨d, hvalue⟩
  · rw [hvalue]
    have hfold := Binary64.folded_foldNat radix.two_le_base radix.base_le n
    exact hfold.imp_right fun ⟨units, hgrid, hunits, _⟩ => ⟨units, hgrid, hunits, False.elim⟩
  · rw [hvalue, d.toBinary64_eq_ofUnits]
    exact Binary64.folded_ofUnits d.den_pos False.elim

end Literal.Form

theorem Token.folded_value_of_next {text : String} {offset : Nat} {t : Token} {x : Literal}
    (h : next text offset = .ok t) (hkind : t.kind = .number x) : x.value.Folded False := by
  obtain ⟨form, ⟨hform, -⟩, hx⟩ := exists_form_of_next h hkind
  exact Form.folded_value hform hx

/-! ## Faults that there are none of -/

namespace Token

section

variable {s : DecimalShape}

/-- A decimal with its separators in place can be read. -/
theorem ofDecimalText?_numeral (hs : s.Proper) (hne : s.integer ≠ [])
    (hseparators : separatorFault? s = none) (hoctal : s.isOctal = false) :
    (Binary64.ofDecimalText? (withoutSeparators s.numeral)).isSome = true := by
  have hinteger := integer_of_not_octal hs hne hseparators hoctal
  obtain ⟨-, hfraction, hexponent, -⟩ := (separatorFault?_eq_none_iff hs hne).1 hseparators
  have hread := Form.ofDecimalText?_eq hinteger hfraction
    fun e he => ⟨hs.mark e he, hs.sign e he, hexponent e he⟩
  exact Option.isSome_iff_exists.2 ⟨_, hread⟩

theorem fault_of_decimalLiteral (hs : s.Proper) (hne : s.integer ≠ [])
    (hseparators : separatorFault? s = none) {fault : NumberFault}
    (h : decimalLiteral s = .error fault) : fault ≠ .noDigits ∧ fault ≠ .unreadable := by
  cases decimalLiteral_eq_iff.1 h with
  | octalParts | bigIntegerParts | decimalParts => decide
  | unreadable octal _ read =>
    have hread := ofDecimalText?_numeral hs hne hseparators octal
    rw [read] at hread
    cases hread

end

section

variable {start : Nat} {cs : List Char} {span : Span} {fault : NumberFault}

theorem fault_of_scanRadix {radix : Radix}
    (h : scanRadix start radix cs = .error (.malformedNumber span fault)) :
    fault ≠ .noDigits ∧ fault ≠ .unreadable := by
  cases scanRadix_eq_iff.1 h with
  | noDigits | decimalSuffix => decide

/-- A number is only scanned where there is a digit, so its integer part has one. -/
theorem fault_of_scanDecimal {c : Char} (hc : Text.isDigit 10 c = true)
    (h : scanDecimal start (c :: cs) = .error (.malformedNumber span fault)) :
    fault ≠ .noDigits ∧ fault ≠ .unreadable := by
  obtain ⟨s, rest, -, hproper, -, hinteger, houtcome⟩ := exists_shape_of_scanDecimal h
  cases houtcome with
  | noDigits empty =>
    exact absurd empty (hinteger c rfl ((Literal.isRunChar_iff 10 c).2 (.inr hc)))
  | noExponentDigits => decide
  | malformed checks refused =>
    exact fault_of_decimalLiteral hproper checks.ne_nil checks.separators refused

theorem fault_of_scanNumber {c : Char} (hc : Text.isDigit 10 c = true)
    (h : scanNumber start (c :: cs) = .error (.malformedNumber span fault)) :
    fault ≠ .noDigits ∧ fault ≠ .unreadable := by
  cases scanNumber_eq_iff.1 h with
  | fault literal =>
    cases scanLiteral_eq_iff.1 literal with
    | marked _ _ scanned => exact fault_of_scanRadix scanned
    | unmarked _ scanned => exact fault_of_scanDecimal hc scanned

end

theorem fault_of_next {text : String} {offset : Nat} {span : Span} {fault : NumberFault}
    (h : next text offset = .error (.malformedNumber span fault)) :
    fault ≠ .noDigits ∧ fault ≠ .unreadable := by
  obtain ⟨front, cs, -, -, hscan⟩ := exists_scan_of_error h
  cases scanFault_of_scan hscan with
  | number _ hc hscan => exact fault_of_scanNumber hc hscan

end Token

open Grammar (Bound)

/-- The texts that are read as a number are those whose tokens are an optional sign and a number. -/
theorem parseNumber?_isSome_iff (text : String) :
    (parseNumber? text).isSome = true ↔ ∃ (tokens : List Token) (b : Bound),
      Token.tokenize text = .ok tokens ∧ tokens.map Token.kind = b.kinds ++ [.endOfInput] := by
  simp only [Token.tokenize_eq_ok_iff]
  constructor
  · intro h
    obtain ⟨x, hx⟩ := Option.isSome_iff_exists.1 h
    obtain ⟨-, b, -, hkinds⟩ := (parseNumber?_eq_some_iff text x).1 hx
    obtain ⟨tokens, htokens, hb⟩ := (Token.kinds_eq_map_some_iff text _).1 hkinds
    exact ⟨tokens, b, htokens, hb⟩
  · rintro ⟨tokens, b, htokens, hb⟩
    have hkinds := (Token.kinds_eq_map_some_iff text _).2 ⟨tokens, htokens, hb⟩
    obtain ⟨n, hn⟩ := NumberText.exists_of_kinds hkinds
    obtain ⟨x, hx, -⟩ := n.exists_parseNumber? hn
    rw [hx]
    rfl

theorem proper_of_parse {text : String} {e : Expression} (h : Expression.parse text = .ok e) :
    e.intervals ≠ [] ∧ ∀ i ∈ e.intervals, i.Proper := by
  obtain ⟨u, -, hordered, hintervals⟩ := (Expression.parse_eq_ok_iff_kinds text e).1 h
  rw [hintervals]
  refine ⟨List.cons_ne_nil _ _, ?_⟩
  intro i hi
  obtain ⟨c, hc, rfl⟩ := List.mem_map.1 hi
  exact Interval.proper_of_lt (hordered c hc)

/-- No text is read as NaN. The value of each number token is zero or more, infinity included;
a text is read as a number exactly if its tokens are an optional sign, a number and the end of the
input, and then not as NaN; an expression has intervals, and each has bounds that are numbers, in
order, the lower one not positive and the upper one not negative infinity. The text that an exact
decimal keeps can be read, and no number is malformed for having no digits or for being
unreadable. -/
theorem isNaN_of_text_eq_false (text : String) :
    (∀ offset t x, Token.next text offset = .ok t → t.kind = .number x →
      x.value.isNaN = false ∧ Binary64.zero.le x.value = true) ∧
    ((parseNumber? text).isSome = true ↔ ∃ (tokens : List Token) (b : Bound),
      Token.tokenize text = .ok tokens ∧ tokens.map Token.kind = b.kinds ++ [.endOfInput]) ∧
    (∀ x, parseNumber? text = some x → x.isNaN = false) ∧
    (∀ e, Expression.parse text = .ok e →
      e.intervals ≠ [] ∧ ∀ i ∈ e.intervals, i.Proper) ∧
    (∀ offset t decimal, Token.next text offset = .ok t → t.kind = .number (.decimal decimal) →
      (Binary64.ofDecimalText? decimal.toList).isSome = true) ∧
    ∀ offset span fault, Token.next text offset = .error (.malformedNumber span fault) →
      fault ≠ .noDigits ∧ fault ≠ .unreadable := by
  refine ⟨?_, parseNumber?_isSome_iff text, ?_, fun _ => proper_of_parse, ?_,
    fun _ _ _ => Token.fault_of_next⟩
  · intro offset t x hnext hkind
    have hvalue := Token.folded_value_of_next hnext hkind
    exact ⟨hvalue.isNaN_eq_false, hvalue.zero_le⟩
  · intro x hx
    exact ((parseNumber?_eq_some_iff text x).1 hx).1
  · intro offset t decimal hnext hkind
    obtain ⟨form, ⟨hform, -⟩, hx⟩ := Token.exists_form_of_next hnext hkind
    exact Form.ofDecimalText?_isSome hform hx

/-- An exact decimal that is read, a bound that is too large to be finite, and a malformed number. -/
theorem isNaN_of_text_eq_false_beyond :
    (Token.next "[0.5m, 1e400)" 1 = .ok ⟨.number (.decimal "0.5"), ⟨1, 5⟩⟩ ∧
      (Binary64.ofDecimalText? "0.5".toList).isSome = true) ∧
    (Token.next "[0.5m, 1e400)" 6 = .ok ⟨.number (.number .posInfinity), ⟨7, 12⟩⟩ ∧
      Binary64.zero.le .posInfinity = true) ∧
    (∃ e, Expression.parse "[0.5m, 1e400)" = .ok e ∧ ∀ i ∈ e.intervals, i.Proper) ∧
    (parseNumber? "-1e400" = some .negInfinity ∧ Binary64.isNaN .negInfinity = false) ∧
    Token.next "010.5" 0 = .error (.malformedNumber ⟨0, 5⟩ .octalWithFraction) ∧
      NumberFault.octalWithFraction ≠ .unreadable := by
  obtain ⟨hvalues, -, -, hintervals, hexact, -⟩ := isNaN_of_text_eq_false "[0.5m, 1e400)"
  obtain ⟨-, -, hnumber, -, -, -⟩ := isNaN_of_text_eq_false "-1e400"
  obtain ⟨-, -, -, -, -, hfault⟩ := isNaN_of_text_eq_false "010.5"
  have hfirst : Token.next "[0.5m, 1e400)" 1 = .ok ⟨.number (.decimal "0.5"), ⟨1, 5⟩⟩ := by
    decide +kernel
  have hsecond : Token.next "[0.5m, 1e400)" 6 =
      .ok ⟨.number (.number .posInfinity), ⟨7, 12⟩⟩ := by
    decide +kernel
  have hread : parseNumber? "-1e400" = some .negInfinity := by decide +kernel
  have hmalformed : Token.next "010.5" 0 =
      .error (.malformedNumber ⟨0, 5⟩ .octalWithFraction) := by
    decide +kernel
  have hparse : (Expression.parse "[0.5m, 1e400)").toOption.isSome = true := by decide +kernel
  refine ⟨⟨hfirst, hexact 1 _ _ hfirst rfl⟩, ⟨hsecond, (hvalues 6 _ _ hsecond rfl).2⟩, ?_,
    ⟨hread, hnumber _ hread⟩, hmalformed, (hfault 0 _ _ hmalformed).2⟩
  cases he : Expression.parse "[0.5m, 1e400)" with
  | error e =>
    rw [he] at hparse
    cases hparse
  | ok e => exact ⟨e, rfl, (hintervals e he).2⟩

end IntervalRules
