import IntervalRules.Proofs.DecimalReading
import IntervalRules.Proofs.RatioRounding
import IntervalRules.Binary64.Layout

/-!
Texts of finite magnitudes without an exponent. Such a text is a plain decimal, digits with no
superfluous zero at the front and possibly a point with digits after it, and it is read as the
magnitude that was written.
-/

namespace IntervalRules

open Text (isDigit natOf)

/-! ## Digits of a natural -/

namespace Text

theorem isDigit_of_mem_toDigits {n : Nat} {c : Char} (h : c ∈ Nat.toDigits 10 n) :
    isDigit 10 c = true := by
  have hdigit := Nat.isDigit_of_mem_toDigits (by decide) (by decide) h
  rw [Literal.isDigit_iff]
  simp only [Char.isDigit, Bool.and_eq_true, decide_eq_true_eq, ge_iff_le,
    UInt32.le_iff_toNat_le] at hdigit
  have hcode : c.toNat = c.val.toNat := rfl
  have hzero : '0'.val.toNat = 48 := rfl
  have hnine : '9'.val.toNat = 57 := rfl
  omega

theorem digit?_digitChar {d : Nat} (h : d < 10) : digit? 10 d.digitChar = some d := by
  match d, h with
  | 0, _ | 1, _ | 2, _ | 3, _ | 4, _ | 5, _ | 6, _ | 7, _ | 8, _ | 9, _ => rfl

theorem foldl_digitValues (n : Nat) {cs : List Char} (h : ∀ c ∈ cs, isDigit 10 c = true) :
    (digitValues 10 cs).foldl (fun n d => n * 10 + d) n =
      n * Nat.pow 10 cs.length + natOf 10 cs := by
  simp only [Nat.pow_eq]
  induction cs generalizing n with
  | nil => simp [digitValues, natOf]
  | cons c cs ih =>
    obtain ⟨d, hd⟩ := Option.isSome_iff_exists.1 (h c List.mem_cons_self)
    have hrest : ∀ c ∈ cs, isDigit 10 c = true := fun c hc => h c (List.mem_cons_of_mem _ hc)
    have hvalues : digitValues 10 (c :: cs) = d :: digitValues 10 cs := by
      simp [digitValues, hd]
    rw [natOf, hvalues, List.foldl_cons, List.foldl_cons, ih _ hrest, ih _ hrest,
      List.length_cons, Nat.pow_succ]
    rw [Nat.zero_mul, Nat.zero_add, Nat.add_mul, Nat.mul_assoc, Nat.mul_comm 10, Nat.add_assoc]

theorem natOf_append (front : List Char) {back : List Char}
    (h : ∀ c ∈ back, isDigit 10 c = true) :
    natOf 10 (front ++ back) = natOf 10 front * Nat.pow 10 back.length + natOf 10 back := by
  rw [← foldl_digitValues _ h, natOf, digitValues, List.filterMap_append, List.foldl_append]
  rfl

theorem natOf_zeros (count : Nat) : natOf 10 (List.replicate count '0') = 0 := by
  induction count with
  | zero => rfl
  | succ count ih =>
    rw [List.replicate_succ', natOf_append _ (by simp; rfl), ih]
    rfl

theorem natOf_toDigits (n : Nat) : natOf 10 (Nat.toDigits 10 n) = n := by
  induction n using Nat.strongRecOn with
  | ind n ih =>
    have hlast (d : Nat) (hd : d < 10) : natOf 10 [d.digitChar] = d := by
      simp [natOf, digitValues, digit?_digitChar hd]
    rcases Nat.lt_or_ge n 10 with hlt | hge
    · rw [Nat.toDigits_of_lt_base hlt, hlast n hlt]
    · have hmod : n % 10 < 10 := Nat.mod_lt n (by decide)
      have hdigit : ∀ c ∈ [(n % 10).digitChar], isDigit 10 c = true := by
        intro c hc
        rw [List.mem_singleton.1 hc, isDigit, digit?_digitChar hmod]
        rfl
      rw [Nat.toDigits_of_base_le (by decide) hge, natOf_append _ hdigit,
        ih (n / 10) (Nat.div_lt_self (by omega) (by decide)), hlast _ hmod]
      have hten : Nat.pow 10 [(n % 10).digitChar].length = 10 := rfl
      rw [hten]
      omega

/-- The first digit of a positive number is not zero. -/
theorem head?_toDigits_ne {n : Nat} (h : n ≠ 0) : (Nat.toDigits 10 n).head? ≠ some '0' := by
  induction n using Nat.strongRecOn with
  | ind n ih =>
    rcases Nat.lt_or_ge n 10 with hlt | hge
    · rw [Nat.toDigits_of_lt_base hlt]
      simpa using h
    · have hrest := ih (n / 10) (Nat.div_lt_self (by omega) (by decide)) (by omega)
      obtain ⟨c, more, hdigits⟩ :=
        List.exists_cons_of_ne_nil (Nat.toDigits_ne_nil (n := n / 10) (b := 10))
      rw [hdigits] at hrest
      rw [Nat.toDigits_of_base_le (by decide) hge, hdigits]
      exact hrest

end Text

/-! ## Plain decimals -/

namespace Literal

/-- Digits without a superfluous zero at the front, and digits after a point if there is one. -/
structure PlainDecimal (integer : List Char) (fraction : Option (List Char)) : Prop where
  ne_nil : integer ≠ []
  head : integer = ['0'] ∨ integer.head? ≠ some '0'
  digits : ∀ c ∈ integer, isDigit 10 c = true
  places : ∀ digits ∈ fraction, digits ≠ [] ∧ ∀ c ∈ digits, isDigit 10 c = true

variable {integer : List Char} {fraction : Option (List Char)}

theorem PlainDecimal.wellFormed (h : PlainDecimal integer fraction) :
    (Form.decimal integer fraction none).WellFormed := by
  refine ⟨.inl ?_, fun digits hdigits => .inr ?_, nofun⟩
  · rcases h.head with hzero | hhead
    · exact .inl hzero
    · exact .inr ⟨digitRun_of_digits h.ne_nil h.digits, hhead⟩
  · exact digitRun_of_digits (h.places digits hdigits).1 (h.places digits hdigits).2

theorem withoutSeparators_of_digits {digits : List Char}
    (h : ∀ c ∈ digits, isDigit 10 c = true) : withoutSeparators digits = digits := by
  refine List.filter_eq_self.2 fun c hc => ?_
  simp [ne_separator_of_isDigit (h c hc)]

/-- The decimal is read from all its digits. -/
theorem PlainDecimal.literal? (h : PlainDecimal integer fraction) :
    (Form.decimal integer fraction none).literal? =
      some (.number (Decimal.toBinary64
        ⟨natOf 10 (integer ++ fraction.getD []), -((fraction.getD []).length : Int)⟩)) := by
  have hfraction : fraction.map withoutSeparators = fraction := by
    cases fraction with
    | none => rfl
    | some digits =>
      exact congrArg some (withoutSeparators_of_digits (h.places digits rfl).2)
  have hread : Decimal.read? (integer ++ Form.fractionChars fraction ++ []) =
      some ⟨natOf 10 (integer ++ fraction.getD []), 0 - ((fraction.getD []).length : Int)⟩ :=
    Decimal.read?_parts h.ne_nil h.digits (fun digits hdigits => (h.places digits hdigits).2) nofun
  have hnone : withoutSeparators (Form.exponentChars none) = [] := rfl
  simp only [Form.literal?, Binary64.ofDecimalText?, withoutSeparators_append,
    withoutSeparators_fractionChars, withoutSeparators_of_digits h.digits, hfraction, hnone, hread,
    Int.zero_sub, Option.map_some]

end Literal

/-! ## Digits with a point -/

namespace Layout

open Literal (PlainDecimal)

theorem isDigit_of_mem_zeros {count : Nat} {c : Char} (h : c ∈ List.replicate count '0') :
    isDigit 10 c = true := by
  rw [(List.mem_replicate.1 h).2]
  rfl

theorem writePositional_whole (digits : List Char) {exponent : Int} (h : 0 ≤ exponent) :
    plain.writePositional digits exponent =
      digits ++ List.replicate exponent.toNat '0' ++ [] := if_pos h

theorem writePositional_point (digits : List Char) {exponent : Int} (h : exponent < 0) :
    plain.writePositional digits exponent =
      let padded := List.replicate ((-exponent).toNat + 1 - digits.length) '0' ++ digits
      padded.take (padded.length - (-exponent).toNat) ++
        '.' :: padded.drop (padded.length - (-exponent).toNat) :=
  if_neg (by omega)

/-- Digits, with zeros in front so that one more stands before the places after the point. -/
def padded (places : Nat) (digits : List Char) : List Char :=
  List.replicate (places + 1 - digits.length) '0' ++ digits

theorem isDigit_of_mem_padded (places : Nat) {digits : List Char}
    (hdigits : ∀ c ∈ digits, isDigit 10 c = true) :
    ∀ c ∈ padded places digits, isDigit 10 c = true := by
  intro c hc
  rcases List.mem_append.1 hc with hc | hc
  · exact isDigit_of_mem_zeros hc
  · exact hdigits c hc

theorem length_padded (places : Nat) (digits : List Char) :
    (padded places digits).length = places + 1 - digits.length + digits.length := by
  rw [padded, List.length_append, List.length_replicate]

/-- A digit stands before the point, or a single zero in front of all digits. -/
theorem head_take_padded {places : Nat} {digits : List Char} (hhead : digits.head? ≠ some '0') :
    (padded places digits).take ((padded places digits).length - places) = ['0'] ∨
      ((padded places digits).take ((padded places digits).length - places)).head? ≠ some '0' := by
  have hlength := length_padded places digits
  rcases Nat.lt_or_ge places digits.length with hmany | hfew
  · right
    have hnone : places + 1 - digits.length = 0 := by omega
    have hpadded : padded places digits = digits := by
      rw [padded, hnone, List.replicate_zero, List.nil_append]
    rw [hpadded, List.head?_take, if_neg (by omega)]
    exact hhead
  · left
    have hone : (padded places digits).length - places = 1 := by omega
    obtain ⟨zeros, hzeros⟩ : ∃ zeros, places + 1 - digits.length = zeros + 1 :=
      ⟨places - digits.length, by omega⟩
    rw [hone, padded, hzeros, List.replicate_succ]
    rfl

theorem exists_plainDecimal_point {digits : List Char} {exponent : Int} (hneg : exponent < 0)
    (hhead : digits.head? ≠ some '0') (hdigits : ∀ c ∈ digits, isDigit 10 c = true) :
    ∃ integer fraction, PlainDecimal integer (some fraction) ∧
      plain.writePositional digits exponent = integer ++ '.' :: fraction ∧
      natOf 10 (integer ++ fraction) = natOf 10 digits ∧
      fraction.length = (-exponent).toNat := by
  rw [writePositional_point digits hneg]
  generalize hplaces : (-exponent).toNat = places
  have hlength := length_padded places digits
  have hpaddedDigits := isDigit_of_mem_padded places hdigits
  refine ⟨(padded places digits).take ((padded places digits).length - places),
    (padded places digits).drop ((padded places digits).length - places),
    ⟨?_, head_take_padded hhead, ?_, ?_⟩, rfl, ?_, ?_⟩
  · intro hnil
    have hzero := congrArg List.length hnil
    rw [List.length_take, List.length_nil] at hzero
    omega
  · exact fun c hc => hpaddedDigits c (List.mem_of_mem_take hc)
  · rintro digits' ⟨⟩
    refine ⟨?_, fun c hc => hpaddedDigits c (List.mem_of_mem_drop hc)⟩
    intro hnil
    have hzero := congrArg List.length hnil
    rw [List.length_drop, List.length_nil] at hzero
    omega
  · rw [List.take_append_drop, padded, Text.natOf_append _ hdigits, Text.natOf_zeros]
    omega
  · rw [List.length_drop]
    omega

theorem exists_plainDecimal_whole {digits : List Char} {exponent : Int} (hpos : 0 ≤ exponent)
    (hne : digits ≠ []) (hhead : digits.head? ≠ some '0')
    (hdigits : ∀ c ∈ digits, isDigit 10 c = true) :
    ∃ integer, PlainDecimal integer none ∧ plain.writePositional digits exponent = integer ∧
      natOf 10 integer = natOf 10 digits * Nat.pow 10 exponent.toNat := by
  rw [writePositional_whole digits hpos]
  refine ⟨digits ++ List.replicate exponent.toNat '0', ⟨?_, ?_, ?_, nofun⟩,
    List.append_nil _, ?_⟩
  · simp [hne]
  · obtain ⟨c, more, rfl⟩ := List.exists_cons_of_ne_nil hne
    exact .inr hhead
  · intro c hc
    rcases List.mem_append.1 hc with hc | hc
    · exact hdigits c hc
    · exact isDigit_of_mem_zeros hc
  · rw [Text.natOf_append _ fun c hc => isDigit_of_mem_zeros hc, Text.natOf_zeros,
      List.length_replicate, Nat.add_zero]

/-- The places after the point are as many as a negative exponent counts, and a positive one
appends zeros. -/
theorem exists_plainDecimal_of_digits {digits : List Char} (exponent : Int) (hne : digits ≠ [])
    (hhead : digits.head? ≠ some '0') (hdigits : ∀ c ∈ digits, isDigit 10 c = true) :
    ∃ integer fraction, PlainDecimal integer fraction ∧
      plain.writePositional digits exponent = integer ++ Literal.Form.fractionChars fraction ∧
      natOf 10 (integer ++ fraction.getD []) = natOf 10 digits * Nat.pow 10 exponent.toNat ∧
      (fraction.getD []).length = (-exponent).toNat := by
  rcases Int.lt_or_le exponent 0 with hneg | hpos
  · obtain ⟨integer, fraction, hplain, htext, hnat, hlength⟩ :=
      exists_plainDecimal_point hneg hhead hdigits
    have hpower : exponent.toNat = 0 := by omega
    refine ⟨integer, some fraction, hplain, htext, ?_, hlength⟩
    rw [hpower, Option.getD_some, hnat]
    exact (Nat.mul_one _).symm
  · obtain ⟨integer, hplain, htext, hnat⟩ := exists_plainDecimal_whole hpos hne hhead hdigits
    have hplaces : (-exponent).toNat = 0 := by omega
    refine ⟨integer, none, hplain, ?_, ?_, hplaces.symm⟩
    · rw [htext]
      exact (List.append_nil _).symm
    · rw [Option.getD_none, List.append_nil]
      exact hnat

theorem writeMagnitude_of_ne_zero {units : Nat} (h : units ≠ 0) :
    plain.writeMagnitude units =
      plain.writePositional (Nat.toDigits 10 (Decimal.shortest .up units).stripZeros.digits)
        (Decimal.shortest .up units).stripZeros.exponent := by
  have hpositional (exponent : Int) : plain.positional exponent = true := rfl
  have htie : plain.tie = .up := rfl
  unfold writeMagnitude
  rw [if_neg h]
  dsimp only
  rw [hpositional, if_pos rfl, htie]

theorem writeMagnitude_zero : plain.writeMagnitude 0 = ['0'] := if_pos rfl

theorem plainDecimal_zero : PlainDecimal ['0'] none := by
  refine ⟨List.cons_ne_nil _ _, .inl rfl, ?_, nofun⟩
  intro c hc
  rw [List.mem_singleton.1 hc]
  rfl

theorem literal?_zero :
    (Literal.Form.decimal ['0'] none none).literal? = some (.number Binary64.zero) := by
  have hnat : natOf 10 (['0'] ++ (none : Option (List Char)).getD []) = 0 := rfl
  have hread (exponent : Int) : Decimal.toBinary64 ⟨0, exponent⟩ = Binary64.zero :=
    if_pos (.inl rfl)
  rw [plainDecimal_zero.literal?, hnat, hread]

/-- A decimal written with its point is read as before. -/
theorem exists_plainDecimal_of_value {d : Decimal} {x : Binary64} (hdigits : d.digits ≠ 0)
    (hvalue : d.toBinary64 = x) :
    ∃ integer fraction, PlainDecimal integer fraction ∧
      plain.writePositional (Nat.toDigits 10 d.digits) d.exponent =
        integer ++ Literal.Form.fractionChars fraction ∧
      (Literal.Form.decimal integer fraction none).literal? = some (.number x) := by
  obtain ⟨integer, fraction, hplain, htext, hnat, hlength⟩ :=
    exists_plainDecimal_of_digits d.exponent Nat.toDigits_ne_nil
      (Text.head?_toDigits_ne hdigits) fun c hc => Text.isDigit_of_mem_toDigits hc
  refine ⟨integer, fraction, hplain, htext, ?_⟩
  have hexponent : -((-d.exponent).toNat : Int) = d.exponent - d.exponent.toNat := by omega
  rw [hplain.literal?, hnat, hlength, Text.natOf_toDigits, hexponent, Decimal.toBinary64_shift,
    ← hvalue]

theorem digits_ne_zero_of_value {d : Decimal} {units : Nat} {h : Binary64.OnGrid units}
    (hvalue : d.toBinary64 = .finite false units h) (hunits : units ≠ 0) : d.digits ≠ 0 := by
  intro hnone
  have hread : d.toBinary64 = Binary64.zero := if_pos (.inl hnone)
  rw [hread] at hvalue
  exact hunits (congrArg Binary64.magnitude hvalue).symm

/-- The text of a magnitude is a plain decimal that denotes it. -/
theorem exists_plainDecimal {units : Nat} (h : Binary64.OnGrid units) :
    ∃ integer fraction, PlainDecimal integer fraction ∧
      plain.writeMagnitude units = integer ++ Literal.Form.fractionChars fraction ∧
      (Literal.Form.decimal integer fraction none).literal? =
        some (.number (.finite false units h)) := by
  by_cases hzero : units = 0
  · refine ⟨['0'], none, plainDecimal_zero, ?_, ?_⟩
    · rw [hzero, writeMagnitude_zero]
      rfl
    · rw [literal?_zero]
      subst hzero
      rfl
  · have hvalue : (Decimal.shortest .up units).stripZeros.toBinary64 = .finite false units h := by
      rw [Decimal.toBinary64_stripZeros]
      exact Decimal.toBinary64_of_readsAs h (Decimal.shortest_readsAs .up h)
    rw [writeMagnitude_of_ne_zero hzero]
    exact exists_plainDecimal_of_value (digits_ne_zero_of_value hvalue hzero) hvalue

end Layout

end IntervalRules
