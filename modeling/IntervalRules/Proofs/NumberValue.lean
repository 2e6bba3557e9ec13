import IntervalRules.Proofs.IntegerSpellings
import IntervalRules.Proofs.RoundingError

/-!
The rational that a number denotes, and the binary64 number that it is read as. A decimal text is
read as the rational rounded once, and so is a number with folded digits up to `2 ^ 53`. Beyond
that a fold may be off, but it is still at least one, and no number is read as NaN.
-/

namespace IntervalRules

/-! ## Rationals -/

/-- The rational that a decimal is. -/
def Decimal.rational (d : Decimal) : ℚ := d.digits * (10 : ℚ) ^ d.exponent

/-- The rational that a number denotes. -/
def Literal.Form.rational : Form → ℚ
  | .marked radix _ digits _ => Text.natOf radix.base digits
  | .octal digits => Text.natOf 8 digits
  | .decimal integer fraction exponent => (Decimal.ofParts integer fraction exponent).rational
  | .bigInteger integer => Text.natOf 10 integer
  | .exactDecimal integer fraction => (Decimal.ofParts integer fraction none).rational

theorem Decimal.rational_nonneg (d : Decimal) : 0 ≤ d.rational :=
  mul_nonneg (Nat.cast_nonneg _) (zpow_nonneg (by norm_num) _)

theorem Literal.Form.rational_nonneg (form : Form) : 0 ≤ form.rational := by
  cases form with
  | marked => exact Nat.cast_nonneg _
  | octal => exact Nat.cast_nonneg _
  | decimal => exact Decimal.rational_nonneg _
  | bigInteger => exact Nat.cast_nonneg _
  | exactDecimal => exact Decimal.rational_nonneg _

namespace Binary64

/-- The number is this size rounded once, or the size is beyond `2 ^ 53` and the number is at
least one. -/
def ReadAs (x : Binary64) (q : ℚ) : Prop :=
  (∃ s, ∃ num den : Nat, 0 < den ∧ (num : ℚ) / den = q * one ∧ x = ofUnits s num den) ∨
    2 ^ 53 < q ∧ x.AtLeast 1

theorem neg_ofUnits (s : Bool) (num den : Nat) : -ofUnits s num den = ofUnits (!s) num den := by
  change Binary64.neg _ = _
  unfold ofUnits
  split <;> rfl

theorem AtLeast.neg {x : Binary64} {q : ℚ} (h : x.AtLeast q) : (-x).AtLeast q := by
  cases x <;> exact h

variable {x : Binary64} {q r : ℚ}

theorem ReadAs.neg (h : x.ReadAs q) : (-x).ReadAs q := by
  rcases h with ⟨s, num, den, hden, hratio, rfl⟩ | ⟨hq, hx⟩
  · exact .inl ⟨!s, num, den, hden, hratio, neg_ofUnits s num den⟩
  · exact .inr ⟨hq, hx.neg⟩

theorem ReadAs.isNaN_eq_false (h : x.ReadAs q) : x.isNaN = false := by
  rcases h with ⟨s, num, den, -, -, rfl⟩ | ⟨-, hx⟩
  · unfold ofUnits
    split <;> rfl
  · cases x with
    | nan => exact hx.elim
    | infinite => rfl
    | finite => rfl

/-- A bound below the size, up to `2 ^ 53`, that has enough bits is kept but for one rounding. -/
theorem ReadAs.atLeast (h : x.ReadAs q) {k : Nat} (hk : k ≤ 52) (hr : r ≤ q)
    (hone : r ≤ 1 ∨ q ≤ 2 ^ 53) (hsmall : 2 ^ k ≤ r * one) :
    x.AtLeast (r * (1 - 1 / 2 ^ (k + 1))) := by
  rcases h with ⟨s, num, den, hden, hratio, rfl⟩ | ⟨hq, hx⟩
  · refine atLeast_ofUnits s hden hk hsmall ?_
    rw [hratio]
    exact mul_le_mul_of_nonneg_right hr cast_one_pos.le
  · have hr1 : r ≤ 1 := hone.resolve_right (not_le.2 hq)
    have hpart : (0 : ℚ) ≤ 1 / 2 ^ (k + 1) := by positivity
    have hpos : 0 < r := by
      by_contra hneg
      have hle : r * one ≤ 0 := mul_nonpos_of_nonpos_of_nonneg (not_lt.1 hneg) cast_one_pos.le
      exact absurd (hsmall.trans hle) (not_le.2 (by positivity))
    refine hx.mono ?_
    calc r * (1 - 1 / 2 ^ (k + 1)) ≤ r * 1 := mul_le_mul_of_nonneg_left (by linarith) hpos.le
      _ ≤ 1 := by rwa [mul_one]

/-- So is a bound above it. -/
theorem ReadAs.atMost (h : x.ReadAs q) {k : Nat} (hk : k ≤ 52) (hr : q ≤ r) (hlarge : r ≤ 2 ^ 53)
    (hsmall : 2 ^ k ≤ r * one) : x.AtMost (r * (1 + 1 / 2 ^ (k + 1))) := by
  rcases h with ⟨s, num, den, hden, hratio, rfl⟩ | ⟨hq, -⟩
  · refine atMost_ofUnits s hden hk hsmall (lt_overflow (le_refl 308) ?_) ?_
    · calc r ≤ 2 ^ 53 := hlarge
        _ ≤ 11 / 10 * 10 ^ 16 := by norm_num
        _ ≤ 11 / 10 * 10 ^ 308 := by
          gcongr
          · norm_num
          · norm_num
    · rw [hratio]
      exact mul_le_mul_of_nonneg_right hr cast_one_pos.le
  · exact absurd (hr.trans hlarge) (not_le.2 hq)

/-! ## Folds -/

/-- Positive infinity, or finite and not negative, and at least one if that is asked for. -/
def Folded (x : Binary64) (positive : Prop) : Prop :=
  x = posInfinity ∨ ∃ units h, x = .finite false units h ∧ (positive → one ≤ units)

variable {positive : Prop}

theorem folded_ofUnits {num den : Nat} (hden : 0 < den) (h : positive → one * den ≤ num) :
    (ofUnits false num den).Folded positive := by
  unfold ofUnits
  split
  · rename_i hfinite
    refine .inr ⟨_, nearest_onGrid hfinite, rfl, ?_⟩
    intro hpositive
    obtain ⟨bits, hbits, hone⟩ : ∃ bits, 52 ≤ bits ∧ one = Nat.pow 2 bits :=
      ⟨1074, by decide +kernel⟩
    have hle := h hpositive
    rw [hone] at hle ⊢
    exact two_pow_le_nearest bits hbits hden hle
  · exact .inl rfl

theorem Folded.mul_ofNat (h : x.Folded positive) {base : Nat} (hbase : base ≠ 0)
    (hexact : IsExact base) : (x * ofNat base).Folded positive := by
  rw [ofNat_of_isExact hexact]
  have hunits : base * one ≠ 0 := Nat.mul_ne_zero hbase one_pos.ne'
  rcases h with rfl | ⟨units, hgrid, rfl, hone⟩
  · left
    change (if base * one = 0 then Binary64.nan else .infinite (false != false)) = _
    rw [if_neg hunits]
    rfl
  · rw [finite_mul_finite, bne_self_eq_false]
    refine folded_ofUnits one_pos fun hpositive => ?_
    exact Nat.mul_le_mul (hone hpositive) (Nat.le_mul_of_pos_left one (Nat.pos_of_ne_zero hbase))

theorem Folded.add_ofNat (h : x.Folded positive) {digit : Nat} (hexact : IsExact digit) :
    (x + ofNat digit).Folded (positive ∨ digit ≠ 0) := by
  rw [ofNat_of_isExact hexact]
  rcases h with rfl | ⟨units, hgrid, rfl, hone⟩
  · exact .inl rfl
  · rw [finite_add_finite]
    refine folded_ofUnits Nat.one_pos fun hpositive => ?_
    rw [Nat.mul_one]
    rcases hpositive with hpositive | hdigit
    · exact Nat.le_add_right_of_le (hone hpositive)
    · exact Nat.le_add_left_of_le (Nat.le_mul_of_pos_left one (Nat.pos_of_ne_zero hdigit))

/-- A fold is never NaN, and only zero is folded to less than one. -/
theorem folded_foldNat {base : Nat} (hbase : 2 ≤ base) (hsmall : base ≤ Nat.pow 2 53) (n : Nat) :
    (foldNat base n).Folded (n ≠ 0) := by
  fun_induction foldNat base n with
  | case1 n hn =>
    have hzero : n = 0 := by omega
    subst hzero
    exact .inr ⟨0, zero_onGrid, rfl, fun h => absurd rfl h⟩
  | case2 n hn ih =>
    have hdigit : IsExact (n % base) :=
      isExact_of_le ((Nat.mod_lt n (by omega)).le.trans hsmall)
    have hsum := (ih.mul_ofNat (by omega) (isExact_of_le hsmall)).add_ofNat hdigit
    rcases hsum with hinfinite | ⟨units, hgrid, hfinite, hone⟩
    · exact .inl hinfinite
    · refine .inr ⟨units, hgrid, hfinite, fun hpositive => hone ?_⟩
      by_contra hnone
      obtain ⟨hquotient, hremainder⟩ := not_or.1 hnone
      have hsplit := Nat.div_add_mod n base
      rw [Classical.not_not.1 hquotient, Classical.not_not.1 hremainder] at hsplit
      exact hpositive hsplit.symm

theorem readAs_ofNat (n : Nat) : (ofNat n).ReadAs n := by
  refine .inl ⟨false, n * one, 1, Nat.one_pos, ?_, rfl⟩
  push_cast
  rw [div_one]

/-- A fold is rounded once up to `2 ^ 53`. -/
theorem readAs_foldNat (radix : Radix) (n : Nat) : (foldNat radix.base n).ReadAs n := by
  by_cases hn : n ≤ 2 ^ 53
  · have hodd : radix.oddPart ≤ radix.base := by cases radix <;> decide
    have honce : RoundsOnce radix.base n := by
      refine radix.roundsOnce_of_le ?_
      calc n / radix.base * radix.oddPart ≤ n / radix.base * radix.base :=
            Nat.mul_le_mul_left _ hodd
        _ ≤ n := Nat.div_mul_le_self n _
        _ ≤ Nat.pow 2 53 := hn
    rw [foldNat_eq_ofNat radix.two_le_base radix.base_le honce]
    exact readAs_ofNat n
  · refine .inr ⟨by exact_mod_cast not_le.1 hn, ?_⟩
    have hne : n ≠ 0 := by
      rintro rfl
      exact hn (Nat.zero_le _)
    rcases folded_foldNat radix.two_le_base radix.base_le n with hx | ⟨units, hgrid, hx, hone⟩
    · rw [hx]
      trivial
    · rw [hx]
      have hle : (one : ℚ) ≤ units := by exact_mod_cast hone hne
      change 1 * (one : ℚ) ≤ units
      rwa [one_mul]

end Binary64

/-! ## Numbers -/

/-- The units of a decimal are those of its rational. -/
theorem Decimal.num_div_den (d : Decimal) :
    (d.num : ℚ) / d.den = d.rational * Binary64.one := by
  have hpower : (10 : ℚ) ^ d.exponent = 10 ^ d.exponent.toNat / 10 ^ (-d.exponent).toNat := by
    rw [← zpow_natCast, ← zpow_natCast, ← zpow_sub₀ (by norm_num)]
    congr 1
    omega
  rw [num, den, rational, hpower]
  simp only [Nat.pow_eq]
  push_cast
  ring

theorem Decimal.readAs_toBinary64 (d : Decimal) : d.toBinary64.ReadAs d.rational :=
  .inl ⟨false, d.num, d.den, d.den_pos, d.num_div_den, d.toBinary64_eq_ofUnits⟩

namespace Literal.Form

variable {form : Form} {x : Literal}

/-- The text of a decimal is read as what its parts denote. -/
theorem ofDecimalText?_eq {integer : List Char} {fraction : Option (List Char)}
    {exponent : Option Exponent} (hinteger : PlainInteger integer ∨ LegacyDecimal integer)
    (hfraction : ∀ digits ∈ fraction, FractionRun digits)
    (hexponent : ∀ e ∈ exponent, ExponentPart e) :
    Binary64.ofDecimalText? (withoutSeparators
        (integer ++ fractionChars fraction ++ exponentChars exponent)) =
      some (Decimal.ofParts integer fraction exponent).toBinary64 := by
  rw [Binary64.ofDecimalText?, Decimal.read?_eq (digitRun_of_integer hinteger) hfraction hexponent,
    Option.map_some]

/-- The text of an exact decimal can be read. -/
theorem ofDecimalText?_exact {integer : List Char} {fraction : Option (List Char)}
    (hform : (exactDecimal integer fraction).WellFormed) :
    Binary64.ofDecimalText? (withoutSeparators (integer ++ fractionChars fraction)) =
      some (Decimal.ofParts integer fraction none).toBinary64 := by
  have hnone : ∀ e ∈ (none : Option Exponent), ExponentPart e := by
    rintro _ ⟨⟩
  have hread := ofDecimalText?_eq (.inl hform.1) hform.2 hnone
  rwa [exponentChars, Option.map_none, Option.getD_none, List.append_nil] at hread

/-- The value of a number is what it denotes as it is read. -/
theorem readAs_value (hform : form.WellFormed) (hx : form.literal? = some x) :
    x.value.ReadAs form.rational := by
  have hfolded (n : Nat) (hn : form.Denotes n) (radix : Radix)
      (hradix : form.foldRadix? = some radix) : x.value.ReadAs n := by
    rw [(value_of_denotes hform hx hn).1 radix hradix]
    exact Binary64.readAs_foldNat radix n
  cases form with
  | marked radix mark digits exact => exact hfolded _ rfl radix rfl
  | octal digits => exact hfolded _ rfl .octal rfl
  | bigInteger integer => exact hfolded _ rfl .decimal rfl
  | decimal integer fraction exponent =>
    rw [literal?, ofDecimalText?_eq hform.1 hform.2.1 hform.2.2] at hx
    obtain rfl := Option.some.inj hx
    exact Decimal.readAs_toBinary64 _
  | exactDecimal integer fraction =>
    obtain rfl := Option.some.inj hx
    rw [value, String.toList_ofList, ofDecimalText?_exact hform, Option.getD_some]
    exact Decimal.readAs_toBinary64 _

end Literal.Form

end IntervalRules
