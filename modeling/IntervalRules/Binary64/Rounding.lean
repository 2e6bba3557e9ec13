/-!
Rounding of exact ratios to the binary64 grid. A finite magnitude is counted in
units of `2 ^ -1074`, the least positive one, so that the grid is a set of naturals:
the products of a significand below `2 ^ 53` and a power of two, below `2 ^ 2098`.
-/

namespace IntervalRules.Binary64

/-- The first magnitude, in units, that is too large to be finite. -/
@[irreducible] def overflow : Nat := Nat.pow 2 2098

/-- The exponent is a variable in this fact, so that the power is not evaluated in its use. -/
theorem exists_overflow_eq_two_pow : ∃ bits, bits = 2098 ∧ overflow = Nat.pow 2 bits := by
  unfold overflow
  exact ⟨_, rfl, rfl⟩

/-- The magnitudes that have a significand of at most 53 bits and do not overflow. -/
def OnGrid (units : Nat) : Prop :=
  units < overflow ∧ Nat.pow 2 (units.log2 - 52) ∣ units

instance (units : Nat) : Decidable (OnGrid units) :=
  inferInstanceAs (Decidable (_ ∧ _))

theorem zero_onGrid : OnGrid 0 := by
  refine ⟨?_, Nat.dvd_zero _⟩
  unfold overflow
  apply Nat.pow_pos
  decide

/-- The quotient rounded to the nearest natural, a tie going to the even one. -/
def roundDiv (num den : Nat) : Nat :=
  let quotient := num / den
  let twice := 2 * (num % den)
  if twice < den ∨ (twice = den ∧ quotient % 2 = 0) then quotient else quotient + 1

/-- The grid's spacing around `num / den` is two to this power. -/
def spacing (num den : Nat) : Nat := (num / den).log2 - 52

/-- The grid point nearest to `num / den`, a tie going to the even significand.
It may be `overflow`, the point that would follow the last finite one. -/
def nearest (num den : Nat) : Nat :=
  roundDiv num (den * Nat.pow 2 (spacing num den)) * Nat.pow 2 (spacing num den)

theorem le_roundDiv (num den : Nat) : num / den ≤ roundDiv num den := by
  unfold roundDiv
  dsimp only
  split <;> omega

theorem roundDiv_le (num den : Nat) : roundDiv num den ≤ num / den + 1 := by
  unfold roundDiv
  dsimp only
  split <;> omega

/-- A significand of at most 53 bits times a power of two is a multiple of the spacing there. -/
theorem pow_dvd_of_significand {m : Nat} (h : m ≤ Nat.pow 2 53) (k : Nat) :
    Nat.pow 2 ((m * Nat.pow 2 k).log2 - 52) ∣ m * Nat.pow 2 k := by
  simp only [Nat.pow_eq] at *
  rcases Nat.eq_or_lt_of_le h with rfl | below
  · rw [← Nat.pow_add, Nat.log2_two_pow]
    exact Nat.pow_dvd_pow 2 (by omega)
  · by_cases hzero : m * 2 ^ k = 0
    · rw [hzero]
      exact Nat.dvd_zero _
    · have bits : (m * 2 ^ k).log2 < 53 + k := by
        rw [Nat.log2_lt hzero, Nat.pow_add]
        exact Nat.mul_lt_mul_of_pos_right below (Nat.two_pow_pos k)
      exact Nat.dvd_trans (Nat.pow_dvd_pow 2 (by omega)) (Nat.dvd_mul_left _ m)

/-- Rounding ends on the grid or at `overflow`. -/
theorem nearest_onGrid {num den : Nat} (h : nearest num den < overflow) :
    OnGrid (nearest num den) := by
  refine ⟨h, ?_⟩
  unfold nearest
  generalize hk : spacing num den = k
  simp only [Nat.pow_eq]
  have upper := roundDiv_le num (den * 2 ^ k)
  rw [← Nat.div_div_eq_div_mul] at upper
  unfold spacing at hk
  have bound : num / den / 2 ^ k < 2 ^ 53 := by
    apply Nat.div_lt_of_lt_mul
    rw [← Nat.pow_add]
    calc num / den < 2 ^ ((num / den).log2 + 1) := Nat.lt_log2_self
      _ ≤ 2 ^ (k + 53) := Nat.pow_le_pow_right (by decide) (by omega)
  have small : roundDiv num (den * 2 ^ k) ≤ 2 ^ 53 := by omega
  exact pow_dvd_of_significand small k

theorem roundDiv_of_dvd (quotient : Nat) {den : Nat} (hden : 0 < den) :
    roundDiv (quotient * den) den = quotient := by
  simp [roundDiv, Nat.mul_div_cancel _ hden, hden]

/-- A number of the grid is its own nearest one. -/
theorem nearest_of_onGrid {units : Nat} (h : OnGrid units) : nearest units 1 = units := by
  obtain ⟨-, quotient, hquotient⟩ := h
  have hspacing : spacing units 1 = units.log2 - 52 := by rw [spacing, Nat.div_one]
  generalize hpower : Nat.pow 2 (units.log2 - 52) = power at hquotient
  have hpos : 0 < power := by
    rw [← hpower]
    exact Nat.two_pow_pos _
  rw [nearest, hspacing, hpower, Nat.one_mul, hquotient, Nat.mul_comm power,
    roundDiv_of_dvd quotient hpos]

end IntervalRules.Binary64
