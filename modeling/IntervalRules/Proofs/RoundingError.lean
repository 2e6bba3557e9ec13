import IntervalRules.Proofs.DigitFolds
import Mathlib.Algebra.Order.Field.Basic
import Mathlib.Data.Rat.Cast.Order
import Mathlib.Tactic.FieldSimp
import Mathlib.Tactic.GCongr
import Mathlib.Tactic.Linarith
import Mathlib.Tactic.NormNum
import Mathlib.Tactic.Positivity
import Mathlib.Tactic.Ring

/-!
How far rounding goes. A ratio of at least `2 ^ k` units is moved by no more than its
`2 ^ (k + 1)`th part, for `k ≤ 52`, and it stays above every power of two that it was above. The
size of a product, and with it whether it is rounded to a given whole number, is bounded from the
sizes of its factors.
-/

namespace IntervalRules.Binary64

/-! ## One rounding -/

theorem abs_roundDiv_sub_le (num : Nat) {den : Nat} (hden : 0 < den) :
    |(roundDiv num den : ℚ) - num / den| ≤ 1 / 2 := by
  have hpos : (0 : ℚ) < den := by exact_mod_cast hden
  have hdiv : den * (num / den) + num % den = num := Nat.div_add_mod num den
  have hmod : num % den < den := Nat.mod_lt num hden
  have hbounds : 2 * (den * roundDiv num den) ≤ 2 * num + den ∧
      2 * num ≤ 2 * (den * roundDiv num den) + den := by
    unfold roundDiv
    dsimp only
    split
    · omega
    · rw [Nat.mul_add]
      omega
  obtain ⟨hhigh, hlow⟩ := hbounds
  have hhigh' : 2 * ((den : ℚ) * roundDiv num den) ≤ 2 * num + den := by exact_mod_cast hhigh
  have hlow' : 2 * (num : ℚ) ≤ 2 * (den * roundDiv num den) + den := by exact_mod_cast hlow
  rw [abs_le]
  constructor
  · have hratio : (num : ℚ) / den ≤ roundDiv num den + 1 / 2 := by
      rw [div_le_iff₀ hpos]
      linarith
    linarith
  · have hratio : (roundDiv num den : ℚ) - 1 / 2 ≤ num / den := by
      rw [le_div_iff₀ hpos]
      linarith
    linarith

/-- Rounding moves a ratio by half a unit or by its `2 ^ 53`th part at most. -/
theorem abs_nearest_sub_le (num : Nat) {den : Nat} (hden : 0 < den) :
    |(nearest num den : ℚ) - num / den| ≤ max (1 / 2) (num / den / 2 ^ 53 : ℚ) := by
  have hpos : (0 : ℚ) < den := by exact_mod_cast hden
  generalize hpower : spacing num den = e
  have he : (0 : ℚ) < 2 ^ e := by positivity
  have hscale : 0 < den * Nat.pow 2 e := Nat.mul_pos hden (Nat.two_pow_pos e)
  have hround := abs_roundDiv_sub_le num hscale
  have hscaled : |(nearest num den : ℚ) - num / den| ≤ 2 ^ e / 2 := by
    rw [nearest, hpower]
    simp only [Nat.pow_eq, Nat.cast_mul, Nat.cast_pow, Nat.cast_ofNat] at hround ⊢
    have hratio : (num : ℚ) / den = num / (den * 2 ^ e) * 2 ^ e := by field_simp
    rw [hratio, ← sub_mul, abs_mul, abs_of_pos he]
    calc _ ≤ 1 / 2 * 2 ^ e := mul_le_mul_of_nonneg_right hround he.le
      _ = 2 ^ e / 2 := by ring
  refine hscaled.trans ?_
  rcases Nat.eq_zero_or_pos e with rfl | hpositive
  · exact le_max_of_le_left (by norm_num)
  · -- where the spacing is above one, the ratio has more than 52 bits
    refine le_max_of_le_right ?_
    have hne : num / den ≠ 0 := by
      intro hzero
      rw [spacing, hzero, Nat.log2_zero] at hpower
      omega
    have hlog : (num / den).log2 = 52 + e := by
      rw [spacing] at hpower
      omega
    have hlead : 2 ^ (52 + e) ≤ num / den := by
      rw [← hlog]
      exact Nat.log2_self_le hne
    have hlead' : (2 : ℚ) ^ (52 + e) ≤ num / den := by
      rw [le_div_iff₀ hpos]
      have hnat : 2 ^ (52 + e) * den ≤ num := (Nat.le_div_iff_mul_le hden).1 hlead
      exact_mod_cast hnat
    calc (2 : ℚ) ^ e / 2 = 2 ^ (52 + e) / 2 ^ 53 := by
          rw [pow_add]
          ring
      _ ≤ (num : ℚ) / den / 2 ^ 53 := by gcongr

variable {num den k : Nat} {q : ℚ}

theorem part_le_half (k : Nat) : (1 : ℚ) / 2 ^ (k + 1) ≤ 1 / 2 := by
  gcongr
  exact le_self_pow₀ (by norm_num) (by omega)

private theorem max_error_le (hk : k ≤ 52) (hsmall : 2 ^ k ≤ q) {r : ℚ} (h : r ≤ q) :
    max (1 / 2) (r / 2 ^ 53) ≤ q / 2 ^ (k + 1) := by
  have hq : 0 ≤ q := le_trans (by positivity) hsmall
  refine max_le ?_ ?_
  · rw [le_div_iff₀ (by positivity), pow_succ]
    linarith
  · calc r / 2 ^ 53 ≤ q / 2 ^ 53 := by gcongr
      _ ≤ q / 2 ^ (k + 1) := by
        gcongr
        · norm_num
        · omega

theorem nearest_le (hden : 0 < den) (hk : k ≤ 52) (hsmall : 2 ^ k ≤ q) (h : (num : ℚ) / den ≤ q) :
    (nearest num den : ℚ) ≤ q * (1 + 1 / 2 ^ (k + 1)) := by
  have herror := (abs_le.1 (abs_nearest_sub_le num hden)).2
  have hmax := max_error_le hk hsmall h
  have hsplit : q * (1 + 1 / 2 ^ (k + 1)) = q + q / 2 ^ (k + 1) := by ring
  rw [hsplit]
  linarith

theorem le_nearest (hden : 0 < den) (hk : k ≤ 52) (hsmall : 2 ^ k ≤ q) (h : q ≤ (num : ℚ) / den) :
    q * (1 - 1 / 2 ^ (k + 1)) ≤ nearest num den := by
  have herror := (abs_le.1 (abs_nearest_sub_le num hden)).1
  have hmax := max_error_le hk (hsmall.trans h) le_rfl
  have hpart : (0 : ℚ) ≤ 1 - 1 / 2 ^ (k + 1) :=
    sub_nonneg.2 ((part_le_half k).trans (by norm_num))
  calc q * (1 - 1 / 2 ^ (k + 1)) ≤ num / den * (1 - 1 / 2 ^ (k + 1)) := by gcongr
    _ = num / den - num / den / 2 ^ (k + 1) := by ring
    _ ≤ nearest num den := by linarith

/-! ## Sizes

The size is the magnitude without the sign. -/

/-- The size is at least this, or infinite. -/
def AtLeast : Binary64 → ℚ → Prop
  | .nan, _ => False
  | .infinite _, _ => True
  | .finite _ units _, q => q * one ≤ units

/-- The size is finite and at most this. -/
def AtMost : Binary64 → ℚ → Prop
  | .finite _ units _, q => units ≤ q * one
  | _, _ => False

theorem cast_one_pos : (0 : ℚ) < one := by exact_mod_cast one_pos

/-- Sizes down to `10 ^ -47` have 53 bits, and those down to `10 ^ -308` have 50. -/
theorem two_pow_mul_ten_pow_le {places : Nat} (h : k ≤ 52 ∧ places ≤ 47 ∨ k ≤ 49 ∧ places ≤ 308) :
    (2 : ℚ) ^ k * 10 ^ places ≤ one := by
  have hbound (bits most : Nat) (hclosed : Nat.pow 2 bits * Nat.pow 10 most ≤ one)
      (hk : k ≤ bits) (hplaces : places ≤ most) : (2 : ℚ) ^ k * 10 ^ places ≤ one := by
    have hnat : 2 ^ k * 10 ^ places ≤ one :=
      (Nat.mul_le_mul (Nat.pow_le_pow_right (by decide) hk)
        (Nat.pow_le_pow_right (by decide) hplaces)).trans hclosed
    exact_mod_cast hnat
  rcases h with ⟨hk, hplaces⟩ | ⟨hk, hplaces⟩
  · exact hbound 52 47 (by decide +kernel) hk hplaces
  · exact hbound 49 308 (by decide +kernel) hk hplaces

/-- Sizes up to `10 ^ 308` and somewhat more are far from an overflow. -/
theorem lt_overflow {places : Nat} (hplaces : places ≤ 308) (h : q ≤ 11 / 10 * 10 ^ places) :
    3 / 2 * (q * one) < overflow := by
  have hclosed : ∃ most, most = 308 ∧ 33 * Nat.pow 10 most * one < 20 * overflow :=
    ⟨308, rfl, by decide +kernel⟩
  obtain ⟨most, hmost, hunits⟩ := hclosed
  have hpower : (10 : ℚ) ^ places ≤ 10 ^ most := by
    gcongr
    · norm_num
    · omega
  have hunits' : 33 * (10 : ℚ) ^ most * one < 20 * overflow := by exact_mod_cast hunits
  have hone := cast_one_pos
  calc 3 / 2 * (q * one) ≤ 3 / 2 * (11 / 10 * 10 ^ most * one) := by
        gcongr
        exact h.trans (by gcongr)
    _ = 33 * 10 ^ most * one / 20 := by ring
    _ < overflow := by linarith

theorem AtLeast.mono {x : Binary64} {q r : ℚ} (h : x.AtLeast q) (hr : r ≤ q) : x.AtLeast r := by
  cases x with
  | nan => exact h
  | infinite => trivial
  | finite _ units _ => exact (mul_le_mul_of_nonneg_right hr cast_one_pos.le).trans h

theorem AtMost.atLeast_zero {x : Binary64} {q : ℚ} (h : x.AtMost q) : x.AtLeast 0 := by
  cases x with
  | nan => exact h.elim
  | infinite => trivial
  | finite _ units _ => exact (zero_mul (one : ℚ)).le.trans (Nat.cast_nonneg units)

theorem atLeast_ofUnits (s : Bool) (hden : 0 < den) (hk : k ≤ 52) (hsmall : 2 ^ k ≤ q * one)
    (h : q * one ≤ (num : ℚ) / den) : (ofUnits s num den).AtLeast (q * (1 - 1 / 2 ^ (k + 1))) := by
  unfold ofUnits
  split
  · have hle := le_nearest hden hk hsmall h
    rw [mul_right_comm] at hle
    exact hle
  · trivial

theorem atMost_ofUnits (s : Bool) (hden : 0 < den) (hk : k ≤ 52) (hsmall : 2 ^ k ≤ q * one)
    (hlarge : 3 / 2 * (q * one) < overflow) (h : (num : ℚ) / den ≤ q * one) :
    (ofUnits s num den).AtMost (q * (1 + 1 / 2 ^ (k + 1))) := by
  have hle := nearest_le hden hk hsmall h
  have hpart := part_le_half k
  have hfinite : nearest num den < overflow := by
    have hpos : (0 : ℚ) ≤ q * one := le_trans (by positivity) hsmall
    have hlt : (nearest num den : ℚ) < overflow := by
      calc (nearest num den : ℚ) ≤ q * one * (1 + 1 / 2 ^ (k + 1)) := hle
        _ ≤ q * one * (1 + 1 / 2) := by gcongr
        _ = 3 / 2 * (q * one) := by ring
        _ < overflow := hlarge
    exact_mod_cast hlt
  rw [ofUnits, dif_pos hfinite]
  rw [mul_right_comm] at hle
  exact hle

variable {x y : Binary64} {a b : ℚ}

/-- The product's ratio of units is that of the sizes. -/
theorem units_mul_div (u v : Nat) : ((u * v : Nat) : ℚ) / one = u / one * (v / one) * one := by
  have hone := cast_one_pos.ne'
  push_cast
  field_simp

theorem AtLeast.mul (hx : x.AtLeast a) (hy : y.AtLeast b) (ha : 0 < a) (hb : 0 < b)
    (hsmall : 2 ^ 52 ≤ a * b * one) : (x * y).AtLeast (a * b * (1 - 1 / 2 ^ 53)) := by
  have hne {units : Nat} {c : ℚ} (hc : 0 < c) (h : c * one ≤ units) : units ≠ 0 := by
    rintro rfl
    exact absurd (h.trans (Nat.cast_zero (R := ℚ)).le) (not_le.2 (mul_pos hc cast_one_pos))
  cases x with
  | nan => exact hx.elim
  | infinite s =>
    cases y with
    | nan => exact hy.elim
    | infinite t => trivial
    | finite t v hv =>
      change (if v = 0 then Binary64.nan else .infinite (s != t)).AtLeast _
      rw [if_neg (hne hb hy)]
      trivial
  | finite s u hu =>
    cases y with
    | nan => exact hy.elim
    | infinite t =>
      change (if u = 0 then Binary64.nan else .infinite (s != t)).AtLeast _
      rw [if_neg (hne ha hx)]
      trivial
    | finite t v hv =>
      refine atLeast_ofUnits _ one_pos le_rfl hsmall ?_
      rw [units_mul_div]
      have hx' : a ≤ u / one := (le_div_iff₀ cast_one_pos).2 hx
      have hy' : b ≤ v / one := (le_div_iff₀ cast_one_pos).2 hy
      have hone := cast_one_pos
      gcongr

theorem AtMost.mul (hx : x.AtMost a) (hy : y.AtMost b) (hsmall : 2 ^ 52 ≤ a * b * one)
    (hlarge : 3 / 2 * (a * b * one) < overflow) : (x * y).AtMost (a * b * (1 + 1 / 2 ^ 53)) := by
  cases x with
  | nan => exact hx.elim
  | infinite => exact hx.elim
  | finite s u hu =>
    cases y with
    | nan => exact hy.elim
    | infinite => exact hy.elim
    | finite t v hv =>
      refine atMost_ofUnits _ one_pos le_rfl hsmall hlarge ?_
      rw [units_mul_div]
      have hx' : (u : ℚ) / one ≤ a := (div_le_iff₀ cast_one_pos).2 hx
      have hy' : (v : ℚ) / one ≤ b := (div_le_iff₀ cast_one_pos).2 hy
      have hone := cast_one_pos
      have ha : 0 ≤ a := le_trans (by positivity) hx'
      gcongr

/-! ## Whole numbers -/

/-- A number less than a half away from a whole number is rounded to it. -/
theorem round_of_between {m : Nat} (hm : IsExact m) (hlow : x.AtLeast a) (hhigh : x.AtMost b)
    (ha : (m : ℚ) - 1 / 2 ≤ a) (hb : b < m + 1 / 2) :
    ∃ s, x.round = .finite s (m * one) hm := by
  cases x with
  | nan => exact hlow.elim
  | infinite => exact hhigh.elim
  | finite s u hu =>
    refine ⟨s, ?_⟩
    have hone := cast_one_pos
    have hlow' : (m : ℚ) * one ≤ u + one / 2 := by
      have hle : ((m : ℚ) - 1 / 2) * one ≤ u :=
        (mul_le_mul_of_nonneg_right ha hone.le).trans hlow
      linarith
    have hhigh' : (u : ℚ) < m * one + one / 2 := by
      have hlt : (u : ℚ) < (m + 1 / 2) * one :=
        lt_of_le_of_lt hhigh (mul_lt_mul_of_pos_right hb hone)
      linarith
    have hunits : (2 * u + one) / (2 * one) = m := by
      rw [Nat.div_eq_iff (by have := one_pos; omega)]
      have hlow'' : 2 * (m * one) ≤ 2 * u + one := by
        have hle : 2 * ((m : ℚ) * one) ≤ 2 * u + one := by linarith
        exact_mod_cast hle
      have hhigh'' : 2 * u < 2 * (m * one) + one := by
        have hlt : 2 * (u : ℚ) < 2 * (m * one) + one := by linarith
        exact_mod_cast hlt
      have hcomm : m * (2 * one) = 2 * (m * one) := by ring
      omega
    change ofUnits s ((2 * u + one) / (2 * one) * one) 1 = _
    rw [hunits]
    exact ofUnits_of_onGrid s hm

/-- Whether a number is numerically zero. -/
theorem eq_zero_iff (x : Binary64) : x.eq zero = true ↔ ∃ s h, x = .finite s 0 h := by
  cases x with
  | nan => simp [eq, compares, position]
  | infinite s =>
    have hpos : overflow ≠ 0 := by decide +kernel
    cases s <;> simp [eq, compares, position, zero, magnitude, isNegative, hpos]
  | finite s u h =>
    cases s <;> simp +contextual [eq, compares, position, zero, magnitude, isNegative,
      zero_onGrid]

/-- A number with a positive bound below it is not zero. -/
theorem AtLeast.ne_zero (h : x.AtLeast a) (ha : 0 < a) : x.eq zero = false := by
  rw [Bool.eq_false_iff, Ne, eq_zero_iff]
  rintro ⟨s, hzero, rfl⟩
  have hle : a * one ≤ (0 : Nat) := h
  rw [Nat.cast_zero] at hle
  exact absurd hle (not_le.2 (mul_pos ha cast_one_pos))

/-- A number of at least a half is not rounded to zero. -/
theorem AtLeast.round_ne_zero (h : x.AtLeast (1 / 2)) : x.round.eq zero = false := by
  cases x with
  | nan => exact h.elim
  | infinite s => exact @AtLeast.ne_zero (.infinite s) 1 trivial (by norm_num)
  | finite s u hu =>
    have hunits : 1 ≤ (2 * u + one) / (2 * one) := by
      rw [Nat.le_div_iff_mul_le (by have := one_pos; omega)]
      have hhalf : (one : ℚ) ≤ 2 * u := by
        have hle : 1 / 2 * (one : ℚ) ≤ u := h
        linarith
      have hnat : one ≤ 2 * u := by exact_mod_cast hhalf
      omega
    have hsmall : (2 : ℚ) ^ 52 ≤ 1 * one := by
      simpa using two_pow_mul_ten_pow_le (.inl ⟨le_refl 52, Nat.zero_le 47⟩)
    have hratio : (1 : ℚ) * one ≤ ((2 * u + one) / (2 * one) * one : Nat) / (1 : Nat) := by
      rw [Nat.cast_one, div_one, one_mul]
      exact_mod_cast Nat.le_mul_of_pos_left one hunits
    exact (atLeast_ofUnits s Nat.one_pos le_rfl hsmall hratio).ne_zero (by norm_num)

end IntervalRules.Binary64
