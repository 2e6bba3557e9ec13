import IntervalRules.Proofs.NumberText
import IntervalRules.Rule.Step

/-!
Counted places. The count of places goes by the first point of a text and the digits directly after
it. It is that of the number if there is no exponent, no separator after the point of the number and
no point of a comment before it; such a number is a whole number of its last place.
-/

namespace IntervalRules

open Literal (Form)
open Text (isDigit)

/-! ## The count of a text -/

section

variable {text more : String}

theorem decimalPlaces_of_point {front rest : List Char} (htext : text.toList = front ++ '.' :: rest)
    (hfront : '.' ∉ front) : decimalPlaces text = (rest.takeWhile (isDigit 10)).length := by
  have hbefore : ∀ c ∈ front, (c != '.') = true := by
    intro c hc
    rw [bne_iff_ne]
    rintro rfl
    exact hfront hc
  have hpoint : text.toList.dropWhile (· != '.') = '.' :: rest := by
    rw [htext, List.dropWhile_append_of_pos hbefore]
    rfl
  rw [decimalPlaces, hpoint, List.drop_one, List.tail_cons]

theorem decimalPlaces_eq_zero (h : '.' ∉ text.toList) : decimalPlaces text = 0 := by
  have hdrop : text.toList.dropWhile (· != '.') = [] := by
    rw [List.dropWhile_eq_nil_iff]
    intro c hc
    rw [bne_iff_ne]
    rintro rfl
    exact h hc
  rw [decimalPlaces, hdrop]
  rfl

/-- The digits after the first point end where other characters follow. -/
theorem decimalPlaces_append_of_mem (h : '.' ∈ text.toList)
    (hmore : ∀ c ∈ more.toList.head?, isDigit 10 c = false) :
    decimalPlaces (text ++ more) = decimalPlaces text := by
  obtain ⟨front, rest, htext, hfront⟩ := List.eq_append_cons_of_mem h
  have happend : (text ++ more).toList = front ++ '.' :: (rest ++ more.toList) := by
    simp [htext]
  have hstop : more.toList.takeWhile (isDigit 10) = [] := by
    cases hcs : more.toList with
    | nil => rfl
    | cons c cs =>
      rw [hcs] at hmore
      exact List.takeWhile_cons_of_neg (by simp [hmore c rfl])
  rw [decimalPlaces_of_point htext hfront, decimalPlaces_of_point happend hfront,
    List.takeWhile_append]
  split
  · rename_i hall
    rw [hstop, List.append_nil, hall]
  · rfl

theorem decimalPlaces_append_of_not_mem (h : '.' ∉ text.toList) (more : String) :
    decimalPlaces (text ++ more) = decimalPlaces more := by
  by_cases hmore : '.' ∈ more.toList
  · obtain ⟨front, rest, hcs, hfront⟩ := List.eq_append_cons_of_mem hmore
    have happend : (text ++ more).toList = text.toList ++ front ++ '.' :: rest := by
      simp [hcs]
    have hbefore : '.' ∉ text.toList ++ front := by simp [h, hfront]
    rw [decimalPlaces_of_point hcs hfront, decimalPlaces_of_point happend hbefore]
  · have happend : '.' ∉ (text ++ more).toList := by simp [h, hmore]
    rw [decimalPlaces_eq_zero hmore, decimalPlaces_eq_zero happend]

/-- Blanks are neither points nor digits. -/
theorem decimalPlaces_trim (text : String) :
    decimalPlaces (Text.trim text) = decimalPlaces text := by
  obtain ⟨lead, tail, htext, hlead, htail⟩ := Text.exists_trimChars text.toList
  have hpoint {blanks : List Char} (h : ∀ c ∈ blanks, Text.isBlank c = true) : '.' ∉ blanks := by
    intro hmem
    cases h '.' hmem
  have hsplit : text = String.ofList lead ++ (Text.trim text ++ String.ofList tail) := by
    apply String.toList_injective
    simpa [Text.trim] using htext
  have hstop : ∀ c ∈ (String.ofList tail).toList.head?, isDigit 10 c = false := by
    intro c hc
    rw [String.toList_ofList] at hc
    rw [Bool.eq_false_iff]
    intro hdigit
    have hblank := htail c (List.mem_of_head? hc)
    rw [Literal.not_isBlank_of_isDigit hdigit] at hblank
    cases hblank
  conv_rhs => rw [hsplit]
  rw [decimalPlaces_append_of_not_mem (by simpa using hpoint hlead)]
  by_cases hmem : '.' ∈ (Text.trim text).toList
  · rw [decimalPlaces_append_of_mem hmem hstop]
  · rw [decimalPlaces_append_of_not_mem hmem, decimalPlaces_eq_zero hmem, decimalPlaces_eq_zero]
    simpa using hpoint htail

end

/-! ## The places of a number -/

/-- There is no exponent, and no separator after the point. -/
def Literal.Form.Counted : Form → Prop
  | .decimal _ fraction exponent => exponent = none ∧ ∀ digits ∈ fraction, '_' ∉ digits
  | .exactDecimal _ fraction => ∀ digits ∈ fraction, '_' ∉ digits
  | .marked .. | .octal _ | .bigInteger _ => True

/-- Nor is there a point before the number. -/
structure NumberText.Counted (n : NumberText) : Prop where
  lead : '.' ∉ n.lead
  gap : '.' ∉ n.gap
  form : n.form.Counted

theorem length_fraction_le {text : String} {front integer rest : List Char}
    {fraction : Option (List Char)} (hfront : '.' ∉ front) (hinteger : Literal.DigitRun 10 integer)
    (hfraction : ∀ digits ∈ fraction, Literal.FractionRun digits ∧ '_' ∉ digits)
    (htext : text.toList = front ++ (integer ++ (Form.fractionChars fraction ++ rest))) :
    (fraction.getD []).length ≤ decimalPlaces text := by
  cases fraction with
  | none => exact Nat.zero_le _
  | some digits =>
    obtain ⟨hrun, hseparators⟩ := hfraction digits rfl
    have hdigits : ∀ c ∈ digits, isDigit 10 c = true := fun c hc =>
      ((Literal.isRunChar_iff 10 c).1 (hrun.chars c hc)).resolve_left fun h => hseparators (h ▸ hc)
    have hbefore : '.' ∉ front ++ integer := by
      rw [List.mem_append, not_or]
      refine ⟨hfront, fun hmem => ?_⟩
      have hpoint := hinteger.chars '.' hmem
      revert hpoint
      decide
    have hpoint : text.toList = front ++ integer ++ '.' :: (digits ++ rest) := by
      rw [htext, List.append_assoc]
      rfl
    rw [decimalPlaces_of_point hpoint hbefore, List.takeWhile_append_of_pos hdigits,
      List.length_append]
    exact Nat.le_add_right _ _

/-- Without an exponent a decimal is a whole number of its last place. -/
theorem Decimal.exists_rational_mul_eq (integer : List Char) {fraction : Option (List Char)}
    {places : Nat} (h : (fraction.getD []).length ≤ places) :
    ∃ m : Nat, (ofParts integer fraction none).rational * 10 ^ places = m := by
  have hlength : (Literal.withoutSeparators (fraction.getD [])).length ≤ places :=
    (List.length_filter_le ..).trans h
  refine ⟨Text.natOf 10 (integer ++ fraction.getD []) *
    10 ^ (places - (Literal.withoutSeparators (fraction.getD [])).length), ?_⟩
  change (Text.natOf 10 _ : ℚ) * 10 ^ (0 - _ : ℤ) * 10 ^ places = _
  rw [zero_sub, zpow_neg, zpow_natCast, Nat.cast_mul, mul_assoc, Nat.cast_pow, Nat.cast_ofNat,
    pow_sub₀ _ (by norm_num) hlength, mul_comm (_ ^ places)]

/-- A number whose places are counted is a whole number of the last one. -/
theorem NumberText.Counted.exists_rational_mul_eq {n : NumberText} (hcounted : n.Counted)
    {text : String} (h : n.chars = text.toList) {places : Nat}
    (hplaces : decimalPlaces text ≤ places) : ∃ m : ℤ, n.rational * 10 ^ places = m := by
  obtain ⟨lead, sign, gap, form, tail, _, _, hform, _⟩ := n
  obtain ⟨hlead, hgap, hcounted⟩ := hcounted
  have hfront : '.' ∉ lead ++ (Grammar.signChars sign ++ gap) := by
    have hsign : '.' ∉ Grammar.signChars sign := by
      rcases sign with _ | _ | _ <;> decide
    simpa using ⟨hlead, hsign, hgap⟩
  have hnat (k : Nat) : ∃ m : Nat, (k : ℚ) * 10 ^ places = m :=
    ⟨k * 10 ^ places, by push_cast; rfl⟩
  have hmagnitude : ∃ m : Nat, form.rational * 10 ^ places = m := by
    cases form with
    | marked | octal | bigInteger => exact hnat _
    | decimal integer fraction exponent =>
      obtain ⟨rfl, hseparators⟩ := hcounted
      have htext : text.toList = (lead ++ (Grammar.signChars sign ++ gap)) ++
          (integer ++ (Form.fractionChars fraction ++ tail)) := by
        rw [← h]
        simp [chars, Form.chars, Form.exponentChars]
      have hlength := length_fraction_le hfront (Literal.digitRun_of_integer hform.1)
        (fun digits hd => ⟨hform.2.1 digits hd, hseparators digits hd⟩) htext
      exact Decimal.exists_rational_mul_eq integer (hlength.trans hplaces)
    | exactDecimal integer fraction =>
      have htext : text.toList = (lead ++ (Grammar.signChars sign ++ gap)) ++
          (integer ++ (Form.fractionChars fraction ++ 'm' :: tail)) := by
        rw [← h]
        simp [chars, Form.chars]
      have hlength := length_fraction_le hfront hform.1.digitRun
        (fun digits hd => ⟨hform.2 digits hd, hcounted digits hd⟩) htext
      exact Decimal.exists_rational_mul_eq integer (hlength.trans hplaces)
  obtain ⟨m, hm⟩ := hmagnitude
  cases sign with
  | none => exact ⟨m, by rw [Int.cast_natCast, ← hm]; rfl⟩
  | some sign =>
    cases sign with
    | minus => exact ⟨-m, by rw [Int.cast_neg, Int.cast_natCast, ← hm]; exact neg_mul ..⟩
    | plus => exact ⟨m, by rw [Int.cast_natCast, ← hm]; rfl⟩

end IntervalRules
