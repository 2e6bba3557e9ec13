import IntervalRules.Binary64.Basic

/-!
The 64-bit interchange words of binary64 numbers: a sign bit, eleven bits of exponent
and fifty-two of fraction. A number is read back from its word (`ofWord_toWord`), and a word from
its number unless it is one of the many words for NaN, of which one is written (`toWord_ofWord`).
-/

namespace IntervalRules.Binary64

/-- The number that a word encodes. -/
def ofWord (word : UInt64) : Binary64 :=
  let negative := word.toNat / Nat.pow 2 63 == 1
  let exponent := word.toNat / Nat.pow 2 52 % Nat.pow 2 11
  let fraction := word.toNat % Nat.pow 2 52
  if exponent = 2047 then if fraction = 0 then .infinite negative else .nan
  else if exponent = 0 then ofUnits negative fraction 1
  else ofUnits negative ((Nat.pow 2 52 + fraction) * Nat.pow 2 (exponent - 1)) 1

/-- The word of a magnitude. A normal significand's top bit runs into the exponent field,
which is why the field holds one less than the exponent before the sum. -/
def magnitudeWord (units : Nat) : Nat :=
  let shift := units.log2 - 52
  shift * Nat.pow 2 52 + units / Nat.pow 2 shift

def toWord : Binary64 → UInt64
  | .nan => 0x7ff8000000000000
  | .infinite negative => if negative then 0xfff0000000000000 else 0x7ff0000000000000
  | .finite negative units _ =>
    UInt64.ofNat ((if negative then Nat.pow 2 63 else 0) + magnitudeWord units)

/-! ## Fields -/

/-- The word of a sign, an exponent field and a fraction. -/
def fieldWord (negative : Bool) (exponent fraction : Nat) : UInt64 :=
  UInt64.ofNat ((if negative then Nat.pow 2 63 else 0) + (exponent * Nat.pow 2 52 + fraction))

section

variable {negative : Bool} {exponent fraction : Nat}

theorem toNat_fieldWord (hexponent : exponent < 2048) (hfraction : fraction < Nat.pow 2 52) :
    (fieldWord negative exponent fraction).toNat =
      (if negative then Nat.pow 2 63 else 0) + (exponent * Nat.pow 2 52 + fraction) := by
  rw [fieldWord, UInt64.toNat_ofNat', Nat.mod_eq_of_lt]
  simp only [Nat.pow_eq] at *
  split <;> omega

theorem ofWord_fieldWord (hexponent : exponent < 2048) (hfraction : fraction < Nat.pow 2 52) :
    ofWord (fieldWord negative exponent fraction) =
      if exponent = 2047 then if fraction = 0 then .infinite negative else .nan
      else if exponent = 0 then ofUnits negative fraction 1
      else ofUnits negative ((Nat.pow 2 52 + fraction) * Nat.pow 2 (exponent - 1)) 1 := by
  have hword := @toNat_fieldWord negative exponent fraction hexponent hfraction
  generalize fieldWord negative exponent fraction = word at hword ⊢
  have hsign : (word.toNat / Nat.pow 2 63 == 1) = negative := by
    rw [hword]
    simp only [Nat.pow_eq] at *
    cases negative with
    | false =>
      rw [beq_eq_false_iff_ne, if_neg Bool.false_ne_true]
      omega
    | true =>
      rw [beq_iff_eq, if_pos rfl]
      omega
  have hfields : word.toNat / Nat.pow 2 52 % Nat.pow 2 11 = exponent ∧
      word.toNat % Nat.pow 2 52 = fraction := by
    rw [hword]
    simp only [Nat.pow_eq] at *
    split <;> omega
  simp only [ofWord, hsign, hfields.1, hfields.2]

end

theorem exists_fields (word : UInt64) : ∃ negative exponent fraction, exponent < 2048 ∧
    fraction < Nat.pow 2 52 ∧ word = fieldWord negative exponent fraction := by
  have hlt := word.toNat_lt
  have hexponent : word.toNat / Nat.pow 2 52 % Nat.pow 2 11 < 2048 := Nat.mod_lt _ (by decide)
  have hfraction : word.toNat % Nat.pow 2 52 < Nat.pow 2 52 := Nat.mod_lt _ (by decide)
  refine ⟨decide (Nat.pow 2 63 ≤ word.toNat), _, _, hexponent, hfraction, ?_⟩
  apply UInt64.toNat.inj
  rw [toNat_fieldWord hexponent hfraction]
  simp only [Nat.pow_eq, decide_eq_true_eq] at *
  split <;> omega

/-! ## Magnitudes

Below `2 ^ 52` units the exponent field is zero. From there on the significand has 53 bits, the
first of which is left out. -/

theorem magnitudeWord_of_lt {units : Nat} (h : units < Nat.pow 2 52) :
    magnitudeWord units = units := by
  have hshift : units.log2 - 52 = 0 := by
    by_cases hzero : units = 0
    · rw [hzero, Nat.log2_zero]
    · have hlog := (Nat.log2_lt hzero).2 h
      omega
  simp [magnitudeWord, hshift]

theorem log2_significand {fraction : Nat} (h : fraction < Nat.pow 2 52) (shift : Nat) :
    ((Nat.pow 2 52 + fraction) * Nat.pow 2 shift).log2 = 52 + shift := by
  have hpos : 0 < 2 ^ shift := Nat.two_pow_pos shift
  simp only [Nat.pow_eq] at *
  rw [Nat.log2_eq_iff (Nat.mul_ne_zero (by omega) (by omega))]
  constructor
  · rw [Nat.pow_add]
    exact Nat.mul_le_mul_right _ (Nat.le_add_right _ _)
  · calc (2 ^ 52 + fraction) * 2 ^ shift < 2 ^ 53 * 2 ^ shift :=
          Nat.mul_lt_mul_of_pos_right (by omega) hpos
      _ = 2 ^ (52 + shift + 1) := by rw [← Nat.pow_add, Nat.add_right_comm]

theorem magnitudeWord_significand {fraction : Nat} (h : fraction < Nat.pow 2 52) (shift : Nat) :
    magnitudeWord ((Nat.pow 2 52 + fraction) * Nat.pow 2 shift) =
      (shift + 1) * Nat.pow 2 52 + fraction := by
  rw [magnitudeWord, log2_significand h, Nat.add_sub_cancel_left]
  simp only [Nat.pow_eq]
  rw [Nat.mul_div_cancel _ (Nat.two_pow_pos shift)]
  omega

theorem significand_onGrid {m shift : Nat} (hm : m < Nat.pow 2 53) (hshift : shift ≤ 2045) :
    OnGrid (m * Nat.pow 2 shift) := by
  obtain ⟨bits, hbits, hoverflow⟩ := exists_overflow_eq_two_pow
  refine ⟨?_, pow_dvd_of_significand (Nat.le_of_lt hm) shift⟩
  rw [hoverflow]
  simp only [Nat.pow_eq] at *
  calc m * 2 ^ shift < 2 ^ 53 * 2 ^ shift := Nat.mul_lt_mul_of_pos_right hm (Nat.two_pow_pos shift)
    _ = 2 ^ (53 + shift) := (Nat.pow_add 2 53 shift).symm
    _ ≤ 2 ^ bits := Nat.pow_le_pow_right (by decide) (by omega)

theorem exists_significand {units : Nat} (h : OnGrid units) (hlarge : Nat.pow 2 52 ≤ units) :
    ∃ fraction shift, fraction < Nat.pow 2 52 ∧ shift ≤ 2045 ∧
      units = (Nat.pow 2 52 + fraction) * Nat.pow 2 shift := by
  obtain ⟨bits, hexponent, hoverflow⟩ := exists_overflow_eq_two_pow
  obtain ⟨hfinite, significand, hsignificand⟩ := h
  rw [hoverflow] at hfinite
  simp only [Nat.pow_eq] at *
  have hne : units ≠ 0 := by omega
  have hlog : units.log2 < bits := (Nat.log2_lt hne).2 hfinite
  have hbits : 52 ≤ units.log2 := (Nat.le_log2 hne).2 hlarge
  have hlow := Nat.log2_self_le hne
  have hhigh := @Nat.lt_log2_self units
  generalize hshift : units.log2 - 52 = shift at *
  have hlog' : units.log2 = 52 + shift := by omega
  rw [hlog'] at hlow hhigh
  have hpos : 0 < 2 ^ shift := Nat.two_pow_pos shift
  have hleast : 2 ^ 52 ≤ significand := by
    refine Nat.le_of_mul_le_mul_left ?_ hpos
    rwa [← hsignificand, ← Nat.pow_add, Nat.add_comm]
  have hmost : significand < 2 ^ 53 := by
    refine Nat.lt_of_mul_lt_mul_left (a := 2 ^ shift) ?_
    rwa [← hsignificand, ← Nat.pow_add, Nat.add_comm, Nat.add_right_comm 52 1]
  refine ⟨significand - 2 ^ 52, shift, by omega, by omega, ?_⟩
  rw [Nat.add_sub_cancel' hleast, Nat.mul_comm]
  exact hsignificand

/-! ## Round trips -/

theorem toWord_of_lt (negative : Bool) {units : Nat} (h : OnGrid units)
    (hsmall : units < Nat.pow 2 52) :
    toWord (.finite negative units h) = fieldWord negative 0 units := by
  rw [toWord, magnitudeWord_of_lt hsmall, fieldWord, Nat.zero_mul, Nat.zero_add]

theorem toWord_significand (negative : Bool) {fraction shift : Nat}
    (hfraction : fraction < Nat.pow 2 52)
    (h : OnGrid ((Nat.pow 2 52 + fraction) * Nat.pow 2 shift)) :
    toWord (.finite negative _ h) = fieldWord negative (shift + 1) fraction := by
  rw [toWord, magnitudeWord_significand hfraction, fieldWord]

theorem ofWord_toWord (x : Binary64) : ofWord (toWord x) = x := by
  cases x with
  | nan => rfl
  | infinite negative => cases negative <;> rfl
  | finite negative units h =>
    by_cases hsmall : units < Nat.pow 2 52
    · rw [toWord_of_lt negative h hsmall, ofWord_fieldWord (by decide) hsmall]
      exact ofUnits_of_onGrid negative h
    · obtain ⟨fraction, shift, hfraction, hshift, rfl⟩ :=
        exists_significand h (Nat.le_of_not_lt hsmall)
      rw [toWord_significand negative hfraction h, ofWord_fieldWord (by omega) hfraction,
        if_neg (by omega), if_neg (Nat.succ_ne_zero shift), Nat.add_sub_cancel]
      exact ofUnits_of_onGrid negative h

/-- Only the words of NaN are not those of the number that they encode. -/
theorem toWord_ofWord {word : UInt64} (h : ofWord word ≠ .nan) : toWord (ofWord word) = word := by
  obtain ⟨negative, exponent, fraction, hexponent, hfraction, rfl⟩ := exists_fields word
  rw [ofWord_fieldWord hexponent hfraction] at h ⊢
  by_cases htop : exponent = 2047
  · subst htop
    by_cases hzero : fraction = 0
    · subst hzero
      cases negative <;> rfl
    · rw [if_pos rfl, if_neg hzero] at h
      exact absurd rfl h
  rw [if_neg htop]
  have hsignificand : Nat.pow 2 52 + fraction < Nat.pow 2 53 := by
    simp only [Nat.pow_eq] at *
    omega
  by_cases hzero : exponent = 0
  · subst hzero
    have hgrid : OnGrid fraction := by
      have honGrid := @significand_onGrid fraction 0 (by omega) (by omega)
      rwa [Nat.pow_eq, Nat.pow_zero, Nat.mul_one] at honGrid
    rw [if_pos rfl, ofUnits_of_onGrid negative hgrid, toWord_of_lt negative hgrid hfraction]
  · have hgrid := @significand_onGrid _ (exponent - 1) hsignificand (by omega)
    rw [if_neg hzero, ofUnits_of_onGrid negative hgrid,
      toWord_significand negative hfraction hgrid, Nat.sub_add_cancel (by omega)]

end IntervalRules.Binary64
