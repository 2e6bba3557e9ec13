import IntervalRules.Proofs.RoundingError

/-!
Which products are rounded to zero as whole numbers. The product is first rounded to the grid, so
that one of less than a half may still be a half afterwards: the numbers below a half are
`2 ^ -54` apart, and from the middle of the last step on they go up. Which these are is said of the
exact product.
-/

namespace IntervalRules.Binary64

/-! ## Below a power of two -/

/-- A quotient is rounded to less than an even number if it is more than a half below it: a tie goes
up, as the number before is odd. -/
theorem roundDiv_lt_iff (num : Nat) {den : Nat} (hden : 0 < den) (half : Nat) :
    roundDiv num den < 2 * half ↔ 2 * num + den < den * (4 * half) := by
  have hdiv : den * (num / den) + num % den = num := Nat.div_add_mod num den
  have hmod : num % den < den := Nat.mod_lt num hden
  have hfour : den * (4 * half) = 2 * (den * (2 * half)) := by ring
  rcases Nat.lt_trichotomy (num / den + 1) (2 * half) with hlt | heq | hgt
  · have hround := roundDiv_le num den
    have hle : den * (num / den + 2) ≤ den * (2 * half) := Nat.mul_le_mul_left den (by omega)
    rw [Nat.mul_add] at hle
    exact iff_of_true (by omega) (by omega)
  · have hsame : den * (num / den) + den = den * (2 * half) := by rw [← heq, Nat.mul_succ]
    have hodd : num / den % 2 = 1 := by omega
    simp only [roundDiv]
    split <;> omega
  · have hround := le_roundDiv num den
    have hle : den * (2 * half) ≤ den * (num / den) := Nat.mul_le_mul_left den (by omega)
    exact iff_of_false (by omega) (by omega)

theorem nearest_le_add (num den : Nat) :
    nearest num den ≤ num / den + 2 ^ spacing num den := by
  have hround := roundDiv_le num (den * 2 ^ spacing num den)
  rw [← Nat.div_div_eq_div_mul] at hround
  have hquotient := Nat.div_mul_le_self (num / den) (2 ^ spacing num den)
  have hproduct := Nat.mul_le_mul_right (2 ^ spacing num den) hround
  rw [Nat.succ_mul] at hproduct
  rw [nearest, Nat.pow_eq]
  omega

theorem spacing_le_of_lt {num den k : Nat} (h : num / den < 2 ^ k * 2 ^ 52) :
    spacing num den ≤ k := by
  unfold spacing
  by_cases hzero : num / den = 0
  · rw [hzero, Nat.log2_zero]
    exact Nat.zero_le k
  · rw [← Nat.pow_add, ← Nat.log2_lt hzero] at h
    omega

theorem spacing_eq_of_between {num den k : Nat} (hlow : 2 ^ k * 2 ^ 52 ≤ num / den)
    (hhigh : num / den < 2 ^ k * 2 ^ 53) : spacing num den = k := by
  have hpos := Nat.two_pow_pos k
  have hne : num / den ≠ 0 := by omega
  have hlog : (num / den).log2 = k + 52 := by
    rw [Nat.log2_eq_iff hne, Nat.add_assoc, Nat.pow_add, Nat.pow_add]
    exact ⟨hlow, hhigh⟩
  rw [spacing, hlog, Nat.add_sub_cancel]

/-- A ratio is rounded to less than a power of two if it is below it by more than half the step
there. -/
theorem nearest_lt_iff (num : Nat) {den : Nat} (hden : 0 < den) (k : Nat) :
    nearest num den < Nat.pow 2 (k + 53) ↔
      2 * num + den * Nat.pow 2 k < den * Nat.pow 2 (k + 54) := by
  have hpos : 0 < 2 ^ k := Nat.two_pow_pos k
  simp only [Nat.pow_eq]
  rw [Nat.pow_add 2 k 53, Nat.pow_add 2 k 54]
  rcases Nat.lt_or_ge (num / den) (2 ^ k * 2 ^ 52) with hsmall | hlarge
  · have hstep : 2 ^ spacing num den ≤ 2 ^ k :=
      Nat.pow_le_pow_right (by decide) (spacing_le_of_lt hsmall)
    have hnearest := nearest_le_add num den
    have hnum : num < 2 ^ k * 2 ^ 52 * den := (Nat.div_lt_iff_lt_mul hden).1 hsmall
    have hterm : den * 2 ^ k ≤ den * 2 ^ k * 2 ^ 52 := Nat.le_mul_of_pos_right _ (by decide)
    have hcomm : 2 ^ k * 2 ^ 52 * den = den * 2 ^ k * 2 ^ 52 := by ring
    have hfour : den * (2 ^ k * 2 ^ 54) = 4 * (den * 2 ^ k * 2 ^ 52) := by ring
    exact iff_of_true (by omega) (by omega)
  · rcases Nat.lt_or_ge (num / den) (2 ^ k * 2 ^ 53) with hbinade | hbeyond
    · have hround := roundDiv_lt_iff num (Nat.mul_pos hden hpos) (2 ^ 52)
      rw [Nat.mul_assoc den] at hround
      rw [nearest, spacing_eq_of_between hlarge hbinade, Nat.pow_eq, Nat.mul_comm (2 ^ k) (2 ^ 53),
        Nat.mul_lt_mul_right hpos]
      exact hround
    · have hle : 2 ^ k * 2 ^ 53 * den ≤ num := (Nat.le_div_iff_mul_le hden).1 hbeyond
      have hnearest := @two_pow_le_nearest num den (k + 53) (by omega) hden
        (by rwa [Nat.pow_eq, Nat.pow_add])
      rw [Nat.pow_eq, Nat.pow_add] at hnearest
      have hfour : den * (2 ^ k * 2 ^ 54) = 2 * (2 ^ k * 2 ^ 53 * den) := by ring
      exact iff_of_false (by omega) (by omega)

/-! ## Below a half -/

/-- The numbers below a half are those that are rounded to zero. -/
theorem round_eq_zero_iff (s : Bool) {units : Nat} (h : OnGrid units) :
    (Binary64.finite s units h).round.eq zero = true ↔ 2 * units < one := by
  constructor
  · intro hzero
    refine Nat.lt_of_not_le fun hle => ?_
    have hhalf : (Binary64.finite s units h).AtLeast (1 / 2) := by
      change 1 / 2 * (one : ℚ) ≤ units
      have hle' : (one : ℚ) ≤ 2 * units := by exact_mod_cast hle
      linarith
    rw [hhalf.round_ne_zero] at hzero
    cases hzero
  · intro hlt
    have hwhole : (2 * units + one) / (2 * one) = 0 := Nat.div_eq_of_lt (by omega)
    change (ofUnits s ((2 * units + one) / (2 * one) * one) 1).eq zero = true
    rw [hwhole, Nat.zero_mul, ofUnits_of_onGrid s zero_onGrid, eq_zero_iff]
    exact ⟨s, zero_onGrid, rfl⟩

theorem infinite_round_ne_zero (s : Bool) : (Binary64.infinite s).round.eq zero = false :=
  (show (Binary64.infinite s).AtLeast (1 / 2) from trivial).round_ne_zero

theorem ofUnits_round_eq_zero_iff (s : Bool) (num den : Nat) :
    (ofUnits s num den).round.eq zero = true ↔ 2 * nearest num den < one := by
  unfold ofUnits
  split
  · exact round_eq_zero_iff s _
  · rename_i hinfinite
    have hlarge : one ≤ overflow := by
      obtain ⟨bits, -, hone, hoverflow⟩ := exists_one_eq_two_pow
      rw [hone, hoverflow]
      exact Nat.pow_le_pow_right (by decide) (Nat.le_add_left bits 1024)
    exact iff_of_false (Bool.eq_false_iff.1 (infinite_round_ne_zero s)) (by omega)

/-- The step below a half is `2 ^ -54`, and a tie goes up to the half. -/
theorem two_mul_nearest_lt_one_iff (num : Nat) {den : Nat} (hden : 0 < den) :
    2 * nearest num den < one ↔ (num : ℚ) / den < (1 / 2 - 1 / 2 ^ 55) * one := by
  obtain ⟨bits, hbits, hone, -⟩ := exists_one_eq_two_pow
  obtain ⟨k, rfl⟩ := Nat.exists_eq_add_of_le' hbits
  have hpos : (0 : ℚ) < den := by exact_mod_cast hden
  have hnearest := nearest_lt_iff num hden k
  rw [← hone] at hnearest
  have hdouble : one = 2 * Nat.pow 2 (k + 53) := by
    rw [hone, Nat.pow_eq, Nat.pow_eq, ← Nat.pow_succ']
  have hstep : ((Nat.pow 2 k : Nat) : ℚ) = one / 2 ^ 54 := by
    rw [eq_div_iff (by positivity), hone]
    simp only [Nat.pow_eq, pow_add]
    push_cast
    ring
  have hhalf : 2 * nearest num den < one ↔ nearest num den < Nat.pow 2 (k + 53) := by omega
  rw [hhalf, hnearest, ← @Nat.cast_lt ℚ, div_lt_iff₀ hpos]
  push_cast [hstep]
  constructor
  · intro h
    linarith
  · intro h
    linarith

theorem mul_infinite_round_ne_zero (x : Binary64) (t : Bool) :
    (x * .infinite t).round.eq zero = false := by
  cases x with
  | nan => rfl
  | infinite s => exact infinite_round_ne_zero (s != t)
  | finite s u hu =>
    change (if u = 0 then Binary64.nan else .infinite (s != t)).round.eq zero = false
    split
    · rfl
    · exact infinite_round_ne_zero (s != t)

theorem infinite_mul_round_ne_zero (s : Bool) (y : Binary64) :
    (.infinite s * y).round.eq zero = false := by
  cases y with
  | nan => rfl
  | infinite t => exact infinite_round_ne_zero (s != t)
  | finite t v hv =>
    change (if v = 0 then Binary64.nan else .infinite (s != t)).round.eq zero = false
    split
    · rfl
    · exact infinite_round_ne_zero (s != t)

/-- A product is rounded to zero if it is less than a half, by more than half a step of the
numbers below a half. -/
theorem mul_round_eq_zero_iff (x y : Binary64) :
    (x * y).round.eq zero = true ↔
      ∃ a b : ℚ, x.AtMost a ∧ y.AtMost b ∧ a * b < 1 / 2 - 1 / 2 ^ 55 := by
  cases x with
  | nan => exact iff_of_false Bool.false_ne_true fun ⟨_, _, h, _⟩ => h
  | infinite s =>
    have hround := infinite_mul_round_ne_zero s y
    exact iff_of_false (Bool.eq_false_iff.1 hround) fun ⟨_, _, h, _⟩ => h
  | finite s u hu =>
    cases y with
    | nan => exact iff_of_false Bool.false_ne_true fun ⟨_, _, _, h, _⟩ => h
    | infinite t =>
      have hround := mul_infinite_round_ne_zero (.finite s u hu) t
      exact iff_of_false (Bool.eq_false_iff.1 hround) fun ⟨_, _, _, h, _⟩ => h
    | finite t v hv =>
      refine (ofUnits_round_eq_zero_iff (s != t) (u * v) one).trans ?_
      rw [two_mul_nearest_lt_one_iff _ one_pos, units_mul_div, mul_lt_mul_iff_left₀ cast_one_pos]
      have hsize {a : ℚ} {units : Nat} (h : (units : ℚ) ≤ a * one) : (units : ℚ) / one ≤ a :=
        (div_le_iff₀ cast_one_pos).2 h
      constructor
      · intro h
        exact ⟨u / one, v / one, (div_mul_cancel₀ (u : ℚ) cast_one_pos.ne').ge,
          (div_mul_cancel₀ (v : ℚ) cast_one_pos.ne').ge, h⟩
      · rintro ⟨a, b, ha, hb, h⟩
        have ha' : (u : ℚ) / one ≤ a := hsize ha
        have hu' : (0 : ℚ) ≤ u / one := div_nonneg (Nat.cast_nonneg u) cast_one_pos.le
        have hv' : (0 : ℚ) ≤ v / one := div_nonneg (Nat.cast_nonneg v) cast_one_pos.le
        exact lt_of_le_of_lt (mul_le_mul ha' (hsize hb) hv' (hu'.trans ha')) h

end IntervalRules.Binary64
