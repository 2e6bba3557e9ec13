import IntervalRules.Proofs.NumberForm
import IntervalRules.Proofs.Splitting

/-!
Reading of decimal texts by their parts: the digits before and after the point, and an exponent.
A number without separators is always read, as the decimal that its parts denote.
-/

namespace IntervalRules

open Text (isDigit)

namespace Decimal

/-- The text splits at the point and before the exponent. -/
theorem read?_parts {integer exponent : List Char} {fraction : Option (List Char)}
    (hne : integer ≠ []) (hinteger : ∀ c ∈ integer, isDigit 10 c = true)
    (hfraction : ∀ digits ∈ fraction, ∀ c ∈ digits, isDigit 10 c = true)
    (hexponent : ∀ c ∈ exponent.head?, isDigit 10 c = false ∧ c ≠ '.') :
    read? (integer ++ Literal.Form.fractionChars fraction ++ exponent) =
      (readExponent? exponent).map fun e =>
        ⟨Text.natOf 10 (integer ++ fraction.getD []), e - (fraction.getD []).length⟩ := by
  rw [List.append_assoc]
  cases fraction with
  | none =>
    have hparts := Text.takeWhile_front exponent hinteger fun c hc => (hexponent c hc).1
    have hpoint : exponent.head? ≠ some '.' := fun h => (hexponent '.' h).2 rfl
    simp only [Literal.Form.fractionChars, Option.map_none, Option.getD_none, List.nil_append]
    unfold read?
    dsimp only
    rw [hparts.1, hparts.2, if_neg hpoint, if_neg hpoint]
    simp [hne]
  | some digits =>
    have hparts := Text.takeWhile_front ('.' :: (digits ++ exponent)) hinteger
      (by rintro c ⟨⟩; rfl)
    have hafter := Text.takeWhile_front exponent (hfraction digits rfl)
      fun c hc => (hexponent c hc).1
    simp only [Literal.Form.fractionChars, Option.map_some, Option.getD_some, List.cons_append]
    unfold read?
    dsimp only
    rw [hparts.1, hparts.2]
    simp only [List.head?_cons, if_true, List.tail_cons, hafter.1, hafter.2]
    simp [hne]

end Decimal

namespace Literal

theorem natOf_withoutSeparators (base : Nat) (cs : List Char) :
    Text.natOf base (withoutSeparators cs) = Text.natOf base cs := by
  have hvalues : Text.digitValues base (withoutSeparators cs) = Text.digitValues base cs := by
    induction cs with
    | nil => rfl
    | cons c cs ih =>
      unfold Text.digitValues at ih ⊢
      by_cases hc : c = '_'
      · subst hc
        have hnone : Text.digit? base '_' = none := by
          simpa [isDigit] using isDigit_separator base
        rw [List.filterMap_cons_none hnone, ← ih]
        rfl
      · have hkeep : withoutSeparators (c :: cs) = c :: withoutSeparators cs := by
          simp [withoutSeparators, hc]
        rw [hkeep, List.filterMap_cons, List.filterMap_cons, ih]
  rw [Text.natOf, hvalues, Text.natOf]

theorem withoutSeparators_append (front back : List Char) :
    withoutSeparators (front ++ back) = withoutSeparators front ++ withoutSeparators back :=
  List.filter_append ..

theorem withoutSeparators_fractionChars (fraction : Option (List Char)) :
    withoutSeparators (Form.fractionChars fraction) =
      Form.fractionChars (fraction.map withoutSeparators) := by
  cases fraction <;> simp [Form.fractionChars, withoutSeparators]

theorem withoutSeparators_exponentChars {e : Exponent} (h : ExponentPart e) :
    withoutSeparators e.chars = e.mark :: (e.sign.toList ++ withoutSeparators e.digits) := by
  obtain ⟨mark, sign, digits⟩ := e
  have hmark : mark ≠ '_' := by rcases h.mark with rfl | rfl <;> decide
  have hsign : withoutSeparators sign.toList = sign.toList := by
    cases sign with
    | none => rfl
    | some c => rcases h.sign c rfl with rfl | rfl <;> rfl
  rw [Exponent.chars, withoutSeparators_append, hsign.symm]
  simp [withoutSeparators, hmark]

end Literal

/-- The number of an exponent part. -/
def Exponent.value (e : Exponent) : Int :=
  if e.sign = some '-' then -(Text.natOf 10 e.digits) else Text.natOf 10 e.digits

namespace Decimal

open Literal (DigitRun ExponentPart FractionRun withoutSeparators)

/-- The decimal that an integer part, a fraction and an exponent denote. -/
def ofParts (integer : List Char) (fraction : Option (List Char)) (exponent : Option Exponent) :
    Decimal where
  digits := Text.natOf 10 (integer ++ fraction.getD [])
  exponent := (exponent.map Exponent.value).getD 0 - (withoutSeparators (fraction.getD [])).length

theorem readExponent?_eq {e : Exponent} (h : ExponentPart e) :
    readExponent? (withoutSeparators e.chars) = some e.value := by
  have hall : (withoutSeparators e.digits).all (isDigit 10) = true :=
    List.all_eq_true.2 fun c hc => Literal.isDigit_of_mem_withoutSeparators h.digits.chars hc
  have hne := h.digits.withoutSeparators_ne_nil
  rw [Literal.withoutSeparators_exponentChars h]
  unfold readExponent?
  dsimp only
  rw [if_pos h.mark]
  cases hsign : e.sign with
  | some c =>
    rcases h.sign c hsign with rfl | rfl <;>
      simp [Exponent.value, hsign, hne, hall, Literal.natOf_withoutSeparators, -List.all_eq_true]
  | none =>
    obtain ⟨d, rest, hdigits⟩ := List.exists_cons_of_ne_nil hne
    have hd : isDigit 10 d = true := List.all_eq_true.1 hall d (by rw [hdigits]; simp)
    have hminus : d ≠ '-' := by
      rintro rfl
      cases hd
    have hplus : d ≠ '+' := by
      rintro rfl
      cases hd
    have hnat := Literal.natOf_withoutSeparators 10 e.digits
    rw [hdigits] at hall hnat
    simp [Exponent.value, hsign, hdigits, hminus, hplus, hall, hnat, -List.all_eq_true,
      -List.all_cons]

/-- Without its separators a decimal is read as what its parts denote. -/
theorem read?_eq {integer : List Char} {fraction : Option (List Char)} {exponent : Option Exponent}
    (hinteger : DigitRun 10 integer) (hfraction : ∀ digits ∈ fraction, FractionRun digits)
    (hexponent : ∀ e ∈ exponent, ExponentPart e) :
    read? (withoutSeparators (integer ++ Literal.Form.fractionChars fraction ++
      Literal.Form.exponentChars exponent)) = some (ofParts integer fraction exponent) := by
  have hfractionDigits : ∀ digits ∈ fraction.map withoutSeparators, ∀ c ∈ digits,
      isDigit 10 c = true := by
    intro digits hdigits c hc
    obtain ⟨run, hmem, rfl⟩ := Option.map_eq_some_iff.1 hdigits
    exact Literal.isDigit_of_mem_withoutSeparators (hfraction run hmem).chars hc
  have hread : readExponent? (withoutSeparators (Literal.Form.exponentChars exponent)) =
      some ((exponent.map Exponent.value).getD 0) := by
    cases exponent with
    | none => rfl
    | some e => exact readExponent?_eq (hexponent e rfl)
  have hhead : ∀ c ∈ (withoutSeparators (Literal.Form.exponentChars exponent)).head?,
      isDigit 10 c = false ∧ c ≠ '.' := by
    cases exponent with
    | none => exact nofun
    | some e =>
      have hchars : withoutSeparators (Literal.Form.exponentChars (some e)) =
          e.mark :: (e.sign.toList ++ withoutSeparators e.digits) :=
        Literal.withoutSeparators_exponentChars (hexponent e rfl)
      rw [hchars]
      rintro c ⟨⟩
      rcases (hexponent e rfl).mark with h | h <;> rw [h] <;> decide
  have hparts := read?_parts hinteger.withoutSeparators_ne_nil
    (fun c hc => Literal.isDigit_of_mem_withoutSeparators hinteger.chars hc) hfractionDigits hhead
  have hgetD : (fraction.map withoutSeparators).getD [] = withoutSeparators (fraction.getD []) := by
    cases fraction <;> rfl
  rw [Literal.withoutSeparators_append, Literal.withoutSeparators_append,
    Literal.withoutSeparators_fractionChars, hparts, hread, hgetD,
    ← Literal.withoutSeparators_append, Literal.natOf_withoutSeparators]
  rfl

end Decimal

namespace Literal

theorem digitRun_of_integer {integer : List Char}
    (h : PlainInteger integer ∨ LegacyDecimal integer) : DigitRun 10 integer := by
  rcases h with hplain | hlegacy
  · exact hplain.digitRun
  · exact hlegacy.digitRun

/-- What a well-formed number denotes is defined. -/
theorem Form.literal?_isSome {form : Form} (h : form.WellFormed) : form.literal?.isSome = true := by
  cases form with
  | marked _ _ _ exact => cases exact <;> rfl
  | octal => rfl
  | bigInteger => rfl
  | exactDecimal => rfl
  | decimal integer fraction exponent =>
    rw [literal?, Binary64.ofDecimalText?,
      Decimal.read?_eq (digitRun_of_integer h.1) h.2.1 h.2.2]
    rfl

end Literal

end IntervalRules
