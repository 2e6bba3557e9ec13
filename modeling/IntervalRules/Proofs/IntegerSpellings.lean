import IntervalRules.Proofs.Cover
import IntervalRules.Proofs.DigitFolds
import IntervalRules.Proofs.NumberToken

/-!
Spellings of one natural. A number that is read as decimal text has the binary64 number nearest to
what it denotes. One with a radix mark, a leading zero or the suffix `n` has its digits folded,
which comes to the same as long as no step but the last rounds. So spellings that are folded in one
radix always agree, and beyond that limit others may not.
-/

namespace IntervalRules

/-- The decimal is the natural. -/
def Decimal.Denotes (d : Decimal) (n : Nat) : Prop :=
  d.digits * Nat.pow 10 d.exponent.toNat = n * Nat.pow 10 (-d.exponent).toNat

instance (d : Decimal) (n : Nat) : Decidable (d.Denotes n) :=
  inferInstanceAs (Decidable (_ = _))

theorem Decimal.toBinary64_of_denotes {d : Decimal} {n : Nat} (h : d.Denotes n) :
    d.toBinary64 = Binary64.ofNat n := by
  rw [toBinary64_eq_ofUnits]
  refine Binary64.ofUnits_congr false d.den_pos Nat.one_pos ?_
  have hunits := congrArg (· * Binary64.one) h
  simp only [num, den, Nat.pow_eq, Nat.mul_one]
  rw [Nat.mul_right_comm n]
  exact hunits

namespace Literal.Form

/-- The natural that a form denotes, if it denotes one. -/
def Denotes : Form → Nat → Prop
  | .marked radix _ digits _, n => Text.natOf radix.base digits = n
  | .octal digits, n => Text.natOf 8 digits = n
  | .decimal integer fraction exponent, n => (Decimal.ofParts integer fraction exponent).Denotes n
  | .bigInteger integer, n => Text.natOf 10 integer = n
  | .exactDecimal integer fraction, n => (Decimal.ofParts integer fraction none).Denotes n

instance (n : Nat) : (form : Form) → Decidable (form.Denotes n)
  | .marked .. | .octal _ | .bigInteger _ => inferInstanceAs (Decidable (_ = _))
  | .decimal .. | .exactDecimal .. => inferInstanceAs (Decidable (Decimal.Denotes _ _))

/-- The radix in which the digits of a form are folded, unless it is read as decimal text. -/
def foldRadix? : Form → Option Radix
  | .marked radix _ _ _ => some radix
  | .octal _ => some .octal
  | .bigInteger _ => some .decimal
  | .decimal .. | .exactDecimal .. => none

/-- Whatever is folded is rounded once. -/
def RoundsOnce (form : Form) (n : Nat) : Prop :=
  ∀ radix ∈ form.foldRadix?, Binary64.RoundsOnce radix.base n

variable {form : Form} {x : Literal} {n : Nat}

theorem ofDigits_of_natOf {radix : Radix} {cs : List Char} (h : Text.natOf radix.base cs = n) :
    Binary64.ofDigits radix.base cs = Binary64.foldNat radix.base n := by
  rw [Binary64.ofDigits_eq_foldNat radix.two_le_base (Binary64.isExact_of_le radix.base_le), h]

theorem ofDecimalText?_of_denotes {integer : List Char} {fraction : Option (List Char)}
    {exponent : Option Exponent} (hinteger : PlainInteger integer ∨ LegacyDecimal integer)
    (hfraction : ∀ digits ∈ fraction, FractionRun digits)
    (hexponent : ∀ e ∈ exponent, ExponentPart e)
    (hn : (Decimal.ofParts integer fraction exponent).Denotes n) :
    Binary64.ofDecimalText? (withoutSeparators
      (integer ++ fractionChars fraction ++ exponentChars exponent)) = some (.ofNat n) := by
  rw [Binary64.ofDecimalText?, Decimal.read?_eq (digitRun_of_integer hinteger) hfraction hexponent,
    Option.map_some, Decimal.toBinary64_of_denotes hn]

/-- The value of a number is determined by the natural and the radix in which it is folded. -/
theorem value_of_denotes (hform : form.WellFormed) (hx : form.literal? = some x)
    (hn : form.Denotes n) :
    (∀ radix, form.foldRadix? = some radix → x.value = .foldNat radix.base n) ∧
      (form.foldRadix? = none → x.value = .ofNat n) := by
  cases form with
  | marked radix mark digits exact =>
    have hdigits : Text.natOf radix.base (withoutSeparators digits) = n :=
      (natOf_withoutSeparators radix.base digits).trans hn
    refine ⟨?_, fun h => absurd h (Option.some_ne_none _)⟩
    rintro radix ⟨⟩
    cases exact with
    | true =>
      obtain rfl := Option.some.inj hx
      rw [value, String.toList_ofList]
      exact ofDigits_of_natOf hdigits
    | false =>
      obtain rfl := Option.some.inj hx
      rw [value]
      exact ofDigits_of_natOf hdigits
  | octal digits =>
    refine ⟨?_, fun h => absurd h (Option.some_ne_none _)⟩
    rintro radix ⟨⟩
    obtain rfl := Option.some.inj hx
    have hdigits : Text.natOf Radix.octal.base ('0' :: digits) = n := hn
    have hvalue := ofDigits_of_natOf hdigits
    rw [value]
    exact hvalue
  | bigInteger integer =>
    refine ⟨?_, fun h => absurd h (Option.some_ne_none _)⟩
    rintro radix ⟨⟩
    obtain rfl := Option.some.inj hx
    rw [value, String.toList_ofList]
    exact ofDigits_of_natOf ((natOf_withoutSeparators 10 integer).trans hn)
  | decimal integer fraction exponent =>
    refine ⟨fun radix h => absurd h.symm (Option.some_ne_none radix), fun _ => ?_⟩
    have hread := ofDecimalText?_of_denotes hform.1 hform.2.1 hform.2.2 hn
    rw [literal?, hread] at hx
    obtain rfl := Option.some.inj hx
    rw [value]
  | exactDecimal integer fraction =>
    refine ⟨fun radix h => absurd h.symm (Option.some_ne_none radix), fun _ => ?_⟩
    have hexponent : ∀ e ∈ (none : Option Exponent), ExponentPart e :=
      fun e he => absurd he (Option.not_mem_none e)
    have hread := ofDecimalText?_of_denotes (.inl hform.1) hform.2 hexponent hn
    rw [exponentChars, Option.map_none, Option.getD_none, List.append_nil] at hread
    obtain rfl := Option.some.inj hx
    rw [value, String.toList_ofList, hread, Option.getD_some]

/-- With one rounding it is the number nearest to the natural. -/
theorem value_of_roundsOnce (hform : form.WellFormed) (hx : form.literal? = some x)
    (hn : form.Denotes n) (honce : form.RoundsOnce n) : x.value = .ofNat n := by
  obtain ⟨hfolded, hread⟩ := value_of_denotes hform hx hn
  cases hradix : form.foldRadix? with
  | none => exact hread hradix
  | some radix =>
    rw [hfolded radix hradix]
    exact Binary64.foldNat_eq_ofNat radix.two_le_base radix.base_le (honce radix hradix)

end Literal.Form

open Literal (DigitRun Form)

namespace Token

/-- A number that is all of a text. -/
theorem parseNumber?_of_form {form : Form} {x : Literal} (hform : form.WellFormed)
    (hx : form.literal? = some x) :
    parseNumber? (String.ofList form.chars) = if x.value.isNaN then none else some x.value := by
  have halone := (Lexeme.number hform hx).alone
  rw [Alone] at halone
  unfold parseNumber?
  rw [halone]
  cases hnan : x.value.isNaN <;>
    simp [Expression.bound, Expression.magnitude, Expression.head, bind, Except.bind, pure,
      Except.pure, hnan]

/-- Spellings of one natural are the same number if they are folded in one radix, if neither is
folded, or if whatever is folded is rounded once, and then they are the number nearest to it. -/
theorem spellings_alike {n : Nat} {form form' : Form} {text text' : String} {span span' : Span}
    (h : StandsAt form text span) (h' : StandsAt form' text' span') (hn : form.Denotes n)
    (hn' : form'.Denotes n)
    (hfold : form.foldRadix? = form'.foldRadix? ∨ form.RoundsOnce n ∧ form'.RoundsOnce n) :
    ∃ x x', next text span.start = .ok ⟨.number x, span⟩ ∧
      next text' span'.start = .ok ⟨.number x', span'⟩ ∧ x.value = x'.value ∧
      (form.RoundsOnce n → x.value = .ofNat n) ∧
      parseNumber? (String.ofList form.chars) = parseNumber? (String.ofList form'.chars) := by
  obtain ⟨x, hx, hnext⟩ := next_of_standsAt h
  obtain ⟨x', hx', hnext'⟩ := next_of_standsAt h'
  have hvalue : x.value = x'.value := by
    rcases hfold with hradix | ⟨honce, honce'⟩
    · obtain ⟨hfolded, hread⟩ := Form.value_of_denotes h.1 hx hn
      obtain ⟨hfolded', hread'⟩ := Form.value_of_denotes h'.1 hx' hn'
      cases hform : form.foldRadix? with
      | none => rw [hread hform, hread' (hradix.symm.trans hform)]
      | some radix => rw [hfolded radix hform, hfolded' radix (hradix.symm.trans hform)]
    · rw [Form.value_of_roundsOnce h.1 hx hn honce, Form.value_of_roundsOnce h'.1 hx' hn' honce']
  refine ⟨x, x', hnext, hnext', hvalue, Form.value_of_roundsOnce h.1 hx hn, ?_⟩
  rw [parseNumber?_of_form h.1 hx, parseNumber?_of_form h'.1 hx', hvalue]

/-- The first natural that is no binary64 number, in two radixes. -/
theorem spellings_alike_above_two_pow_53 :
    ∃ x x', next "0x20000000000001n" 0 = .ok ⟨.number x, ⟨0, 17⟩⟩ ∧
      next "9_007_199_254_740_993" 0 = .ok ⟨.number x', ⟨0, 21⟩⟩ ∧ x.value = x'.value := by
  have hrun : DigitRun 16 "20000000000001".toList :=
    (Literal.digitRun_iff (List.all_eq_true.1 (by decide))).2 ⟨by decide, by decide⟩
  have hrun' : DigitRun 10 "9_007_199_254_740_993".toList :=
    (Literal.digitRun_iff (List.all_eq_true.1 (by decide))).2 ⟨by decide, by decide⟩
  have hhex : StandsAt (.marked .hexadecimal 'x' "20000000000001".toList true)
      "0x20000000000001n" ⟨0, 17⟩ :=
    ⟨⟨rfl, hrun⟩, [], [], by decide +kernel, rfl, by decide +kernel, nofun⟩
  have hdecimal : StandsAt (.decimal "9_007_199_254_740_993".toList none none)
      "9_007_199_254_740_993" ⟨0, 21⟩ :=
    ⟨⟨.inl (.inr ⟨hrun', by decide⟩), nofun, nofun⟩, [], [], by decide +kernel, rfl,
      by decide +kernel, nofun⟩
  have honce : (Form.marked .hexadecimal 'x' "20000000000001".toList true).RoundsOnce
      9007199254740993 := by
    rintro radix ⟨⟩
    exact Radix.roundsOnce_of_le .hexadecimal (by decide)
  obtain ⟨x, x', hnext, hnext', hvalue, -⟩ := spellings_alike (n := 9007199254740993) hhex hdecimal
    (by decide +kernel) (by decide +kernel) (.inr ⟨honce, nofun⟩)
  exact ⟨x, x', hnext, hnext', hvalue⟩

/-- Beyond that, spellings of one natural may be different numbers. -/
theorem spellings_differ :
    ¬ ∀ (n : Nat) (form form' : Form) (text text' : String) (span span' : Span) (x x' : Literal),
      StandsAt form text span → StandsAt form' text' span' → form.Denotes n → form'.Denotes n →
      next text span.start = .ok ⟨.number x, span⟩ →
      next text' span'.start = .ok ⟨.number x', span'⟩ → x.value = x'.value := by
  intro h
  have hrun : DigitRun 10 "18014398509481993".toList :=
    (Literal.digitRun_iff (List.all_eq_true.1 (by decide))).2 ⟨by decide, by decide⟩
  have hplain : Literal.PlainInteger "18014398509481993".toList := .inr ⟨hrun, by decide⟩
  have hbig : StandsAt (.bigInteger "18014398509481993".toList) "18014398509481993n" ⟨0, 18⟩ :=
    ⟨hplain, [], [], by decide +kernel, rfl, by decide +kernel, nofun⟩
  have hdecimal : StandsAt (.decimal "18014398509481993".toList none none) "18014398509481993"
      ⟨0, 17⟩ :=
    ⟨⟨.inl hplain, nofun, nofun⟩, [], [], by decide +kernel, rfl, by decide +kernel, nofun⟩
  have hn' : (Form.decimal "18014398509481993".toList none none).Denotes 18014398509481993 := by
    decide +kernel
  obtain ⟨x, hx, hnext⟩ := next_of_standsAt hbig
  obtain ⟨x', hx', hnext'⟩ := next_of_standsAt hdecimal
  have hequal := h 18014398509481993 _ _ _ _ _ _ x x' hbig hdecimal (by decide +kernel) hn' hnext
    hnext'
  obtain rfl := Option.some.inj hx
  rw [Form.value_of_roundsOnce hdecimal.1 hx' hn' nofun, Literal.value] at hequal
  exact absurd hequal (by decide +kernel)

end Token

end IntervalRules
