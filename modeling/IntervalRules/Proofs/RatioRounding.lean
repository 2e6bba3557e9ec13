import IntervalRules.Binary64.Shortest

/-!
Rounding depends on the ratio alone, keeps the numbers of the grid, and sends ratios that are
far out to zero and infinity. A decimal is therefore read by its value: the tests that keep far
exponents from being raised change nothing, and zeros at the end of the coefficient may move
into the exponent.
-/

namespace IntervalRules

namespace Binary64

/-! ## Units

The exponents are variables in these bounds, so that no power is evaluated in their use. -/

theorem one_pos : 0 < one := by decide +kernel

/-- Half of the least magnitude is above `10 ^ -325`. -/
theorem two_mul_one_lt : ∃ places, places = 325 ∧ 2 * one < Nat.pow 10 places :=
  ⟨325, rfl, by decide +kernel⟩

/-- The magnitude `10 ^ 310` is too large to be finite. -/
theorem overflow_le : ∃ places, places = 310 ∧ overflow ≤ Nat.pow 10 places * one :=
  ⟨310, rfl, by decide +kernel⟩

/-- The least magnitude has all its digits within 1074 places. -/
theorem pow_five_mul_one :
    ∃ places, places = 1074 ∧ Nat.pow 5 places * one = Nat.pow 10 places :=
  ⟨1074, rfl, by decide +kernel⟩

/-! ## Ratios -/

theorem roundDiv_mul (num den : Nat) {c : Nat} (hc : 0 < c) :
    roundDiv (num * c) (den * c) = roundDiv num den := by
  have hlt : 2 * (num % den * c) < den * c ↔ 2 * (num % den) < den := by
    rw [← Nat.mul_assoc]
    exact Nat.mul_lt_mul_right hc
  have heq : 2 * (num % den * c) = den * c ↔ 2 * (num % den) = den := by
    rw [← Nat.mul_assoc]
    exact Nat.mul_left_inj (Nat.pos_iff_ne_zero.1 hc)
  simp only [roundDiv, Nat.mul_div_mul_right num den hc, Nat.mul_mod_mul_right, hlt, heq]

theorem nearest_mul (num den : Nat) {c : Nat} (hc : 0 < c) :
    nearest (num * c) (den * c) = nearest num den := by
  have hspacing : spacing (num * c) (den * c) = spacing num den := by
    rw [spacing, Nat.mul_div_mul_right num den hc, spacing]
  rw [nearest, nearest, hspacing, Nat.mul_right_comm, roundDiv_mul _ _ hc]

theorem ofUnits_of_nearest_eq (negative : Bool) {num den num' den' : Nat}
    (h : nearest num den = nearest num' den') :
    ofUnits negative num den = ofUnits negative num' den' := by
  unfold ofUnits
  by_cases hlt : nearest num den < overflow
  · have hlt' := h ▸ hlt
    simp only [dif_pos hlt', h]
  · have hlt' := h ▸ hlt
    rw [dif_neg hlt, dif_neg hlt']

/-- Equal ratios are rounded alike. -/
theorem ofUnits_congr (negative : Bool) {num den num' den' : Nat} (hden : 0 < den)
    (hden' : 0 < den') (h : num * den' = num' * den) :
    ofUnits negative num den = ofUnits negative num' den' := by
  apply ofUnits_of_nearest_eq
  calc nearest num den = nearest (num * den') (den * den') := (nearest_mul num den hden').symm
    _ = nearest (num' * den) (den' * den) := by rw [h, Nat.mul_comm den]
    _ = nearest num' den' := nearest_mul num' den' hden

/-! ## Far ratios -/

theorem nearest_eq_zero {num den : Nat} (h : 2 * num < den) : nearest num den = 0 := by
  have hzero : num / den = 0 := Nat.div_eq_of_lt (by omega)
  have hspacing : spacing num den = 0 := by
    rw [spacing, hzero, Nat.log2_zero]
  have hmod : num % den = num := Nat.mod_eq_of_lt (by omega)
  rw [nearest, hspacing]
  simp [roundDiv, hzero, hmod, h]

theorem ofUnits_eq_zero {num den : Nat} (h : 2 * num < den) : ofUnits false num den = zero := by
  have hnearest : nearest num den = nearest 0 1 :=
    (nearest_eq_zero h).trans (nearest_of_onGrid zero_onGrid).symm
  rw [ofUnits_of_nearest_eq false hnearest]
  exact ofUnits_of_onGrid false zero_onGrid

theorem two_pow_le_nearest {num den : Nat} (bits : Nat) (hbits : 52 ≤ bits) (hden : 0 < den)
    (h : Nat.pow 2 bits * den ≤ num) : Nat.pow 2 bits ≤ nearest num den := by
  simp only [Nat.pow_eq] at h ⊢
  have hquotient : 2 ^ bits ≤ num / den := (Nat.le_div_iff_mul_le hden).2 h
  have hne : num / den ≠ 0 := by
    have hpos := Nat.two_pow_pos bits
    omega
  have hlog : bits ≤ (num / den).log2 := (Nat.le_log2 hne).2 hquotient
  generalize hpower : spacing num den = k
  have hk : (num / den).log2 = 52 + k := by
    rw [← hpower, spacing]
    omega
  -- The quotient keeps its leading power of two.
  have hlead : 2 ^ 52 ≤ num / den / 2 ^ k := by
    rw [Nat.le_div_iff_mul_le (Nat.two_pow_pos k), ← Nat.pow_add, ← hk]
    exact Nat.log2_self_le hne
  have hround := le_roundDiv num (den * 2 ^ k)
  rw [← Nat.div_div_eq_div_mul] at hround
  rw [nearest, hpower]
  simp only [Nat.pow_eq]
  calc 2 ^ bits ≤ 2 ^ (52 + k) := Nat.pow_le_pow_right (by decide) (by omega)
    _ = 2 ^ 52 * 2 ^ k := Nat.pow_add 2 52 k
    _ ≤ roundDiv num (den * 2 ^ k) * 2 ^ k := Nat.mul_le_mul_right _ (Nat.le_trans hlead hround)

theorem overflow_le_nearest {num den : Nat} (hden : 0 < den) (h : overflow * den ≤ num) :
    overflow ≤ nearest num den := by
  obtain ⟨bits, hbits, hoverflow⟩ := exists_overflow_eq_two_pow
  rw [hoverflow] at h ⊢
  exact two_pow_le_nearest bits (by omega) hden h

theorem ofUnits_eq_posInfinity {num den : Nat} (hden : 0 < den) (h : overflow * den ≤ num) :
    ofUnits false num den = posInfinity := by
  have hlarge := overflow_le_nearest hden h
  rw [ofUnits, dif_neg (by omega)]
  rfl

end Binary64

namespace Decimal

open Binary64 (one ofUnits)

/-! ## Decimals -/

/-- The value of a decimal in units is `d.num / d.den`. -/
def num (d : Decimal) : Nat := d.digits * Nat.pow 10 d.exponent.toNat * one

def den (d : Decimal) : Nat := Nat.pow 10 (-d.exponent).toNat

theorem den_pos (d : Decimal) : 0 < d.den := Nat.pow_pos (by decide)

theorem digits_lt_pow_width (d : Decimal) : d.digits < Nat.pow 10 d.width := by
  simp only [Nat.pow_eq]
  calc d.digits < 2 ^ d.width := Nat.lt_log2_self
    _ ≤ 10 ^ d.width := Nat.pow_le_pow_left (by decide) _

theorem ofUnits_of_small {d : Decimal} (h : d.exponent + d.width < -324) :
    ofUnits false d.num d.den = Binary64.zero := by
  apply Binary64.ofUnits_eq_zero
  have hexponent : d.exponent.toNat = 0 := by omega
  obtain ⟨places, hplaces, hunits⟩ := Binary64.two_mul_one_lt
  have hwidth := digits_lt_pow_width d
  rw [num, den, hexponent]
  simp only [Nat.pow_eq] at hunits hwidth ⊢
  rw [Nat.pow_zero, Nat.mul_one]
  calc 2 * (d.digits * one) = d.digits * (2 * one) := Nat.mul_left_comm ..
    _ < 10 ^ d.width * 10 ^ places :=
      Nat.mul_lt_mul_of_lt_of_lt hwidth hunits
    _ = 10 ^ (d.width + places) := (Nat.pow_add 10 d.width places).symm
    _ ≤ 10 ^ (-d.exponent).toNat := Nat.pow_le_pow_right (by decide) (by omega)

theorem ofUnits_of_large {d : Decimal} (hdigits : d.digits ≠ 0) (h : 309 < d.exponent) :
    ofUnits false d.num d.den = Binary64.posInfinity := by
  apply Binary64.ofUnits_eq_posInfinity d.den_pos
  have hexponent : (-d.exponent).toNat = 0 := by omega
  obtain ⟨places, hplaces, hunits⟩ := Binary64.overflow_le
  rw [num, den, hexponent]
  simp only [Nat.pow_eq] at hunits ⊢
  rw [Nat.pow_zero, Nat.mul_one]
  calc Binary64.overflow ≤ 10 ^ places * one := hunits
    _ ≤ 10 ^ d.exponent.toNat * one :=
      Nat.mul_le_mul_right _ (Nat.pow_le_pow_right (by decide) (by omega))
    _ ≤ d.digits * 10 ^ d.exponent.toNat * one :=
      Nat.mul_le_mul_right _ (Nat.le_mul_of_pos_left _ (Nat.pos_of_ne_zero hdigits))

/-- A decimal is read as the number nearest to its value, also where it is far out. -/
theorem toBinary64_eq_ofUnits (d : Decimal) : d.toBinary64 = ofUnits false d.num d.den := by
  unfold toBinary64
  split
  · rename_i h
    rcases h with hdigits | hsmall
    · symm
      apply Binary64.ofUnits_eq_zero
      rw [num, hdigits, Nat.zero_mul, Nat.zero_mul, Nat.mul_zero]
      exact d.den_pos
    · exact (ofUnits_of_small hsmall).symm
  · rename_i h
    split
    · rename_i hlarge
      exact (ofUnits_of_large (fun hzero => h (.inl hzero)) hlarge).symm
    · split
      · rename_i hsign
        have hexponent : (-d.exponent).toNat = 0 := by omega
        rw [num, den, hexponent]
      · rename_i hsign
        have hexponent : d.exponent.toNat = 0 := by omega
        rw [num, den, hexponent]
        simp only [Nat.pow_eq, Nat.pow_zero, Nat.mul_one]

/-- Decimals of one value are read alike. -/
theorem toBinary64_congr {d d' : Decimal} (h : d.num * d'.den = d'.num * d.den) :
    d.toBinary64 = d'.toBinary64 := by
  rw [toBinary64_eq_ofUnits, toBinary64_eq_ofUnits]
  exact Binary64.ofUnits_congr false d.den_pos d'.den_pos h

/-- Zeros at the end of the coefficient may move into the exponent. -/
theorem toBinary64_shift (digits : Nat) (exponent : Int) (places : Nat) :
    toBinary64 ⟨digits * Nat.pow 10 places, exponent - places⟩ =
      toBinary64 ⟨digits, exponent⟩ := by
  apply toBinary64_congr
  simp only [num, den, Nat.pow_eq]
  have hexponent : places + (exponent - places).toNat + (-exponent).toNat =
      exponent.toNat + (-(exponent - places)).toNat := by omega
  calc digits * 10 ^ places * 10 ^ (exponent - places).toNat * one * 10 ^ (-exponent).toNat
      = digits * one * 10 ^ (places + (exponent - places).toNat + (-exponent).toNat) := by
        rw [Nat.pow_add, Nat.pow_add]
        ac_rfl
    _ = digits * one * 10 ^ (exponent.toNat + (-(exponent - places)).toNat) := by rw [hexponent]
    _ = digits * 10 ^ exponent.toNat * one * 10 ^ (-(exponent - places)).toNat := by
        rw [Nat.pow_add]
        ac_rfl

theorem toBinary64_stripZeros (d : Decimal) : d.stripZeros.toBinary64 = d.toBinary64 := by
  fun_induction stripZeros d with
  | case1 => rfl
  | case2 d h ih =>
    obtain ⟨digits, exponent⟩ := d
    dsimp only at h ih ⊢
    have hten : Nat.pow 10 1 = 10 := rfl
    have hdigits : digits / 10 * Nat.pow 10 1 = digits := by
      rw [hten]
      omega
    have hexponent : exponent + 1 - (1 : Nat) = exponent := by omega
    have hshift := toBinary64_shift (digits / 10) (exponent + 1) 1
    rw [hdigits, hexponent] at hshift
    rw [ih, hshift]

/-! ## Decimals that read back -/

theorem exact_num (units : Nat) : (exact units).num = units * (exact units).den := by
  obtain ⟨places, hplaces, hunits⟩ := Binary64.pow_five_mul_one
  have hexponent : (exact units).exponent.toNat = 0 := rfl
  have hden : (-(exact units).exponent).toNat = places := hplaces.symm
  have hdigits : (exact units).digits = units * Nat.pow 5 places := by
    rw [hplaces]
    rfl
  rw [num, den, hexponent, hden, hdigits, ← hunits, ← Nat.mul_assoc]
  exact congrArg (· * one) (Nat.mul_one _)

theorem exact_readsAs {units : Nat} (h : Binary64.OnGrid units) : (exact units).ReadsAs units := by
  have hvalue : (exact units).toBinary64 = .finite false units h := by
    rw [toBinary64_eq_ofUnits, ← Binary64.ofUnits_of_onGrid false h]
    apply Binary64.ofUnits_congr false (den_pos _) Nat.one_pos
    rw [exact_num, Nat.mul_one]
  rw [ReadsAs, hvalue]
  rfl

/-- Only a decimal that reads back is taken. -/
theorem neighbour?_readsAs {tie : Tie} {units : Nat} {exponent : Int} {d : Decimal}
    (h : neighbour? tie units exponent = some d) : d.ReadsAs units := by
  have hpair (pair : Decimal × Decimal)
      (h : (if pair.1.ReadsAs units then some pair.1
        else if pair.2.ReadsAs units then some pair.2 else none) = some d) :
      d.ReadsAs units := by
    split at h
    · rename_i hreads
      cases h
      exact hreads
    · split at h
      · rename_i hreads
        cases h
        exact hreads
      · cases h
  exact hpair _ h

theorem shortest_readsAs (tie : Tie) {units : Nat} (h : Binary64.OnGrid units) :
    (shortest tie units).ReadsAs units := by
  unfold shortest
  cases hfound : (List.range 17).findSome? fun (extra : Nat) =>
      neighbour? tie units (leadingExponent units - extra) with
  | none => exact exact_readsAs h
  | some d =>
    obtain ⟨extra, -, hextra⟩ := List.exists_of_findSome?_eq_some hfound
    exact neighbour?_readsAs hextra

theorem toBinary64_of_readsAs {d : Decimal} {units : Nat} (hgrid : Binary64.OnGrid units)
    (h : d.ReadsAs units) : d.toBinary64 = .finite false units hgrid := by
  rw [ReadsAs] at h
  rw [toBinary64_eq_ofUnits] at h ⊢
  unfold Binary64.ofUnits at h ⊢
  split at h
  · rename_i hlt
    have hnearest : Binary64.nearest d.num d.den = units := h
    subst hnearest
    exact dif_pos hlt
  · have hoverflow : Binary64.overflow = units := h
    have hlt := hgrid.1
    omega

end Decimal

end IntervalRules
