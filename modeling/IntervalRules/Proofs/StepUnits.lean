import IntervalRules.Proofs.NumberValue
import IntervalRules.Proofs.PowersOfTen
import IntervalRules.Rule.Step

/-!
Numbers in units of a step. A number that is a whole number of units is rounded to just that one,
as long as it has no more digits than the roundings leave intact: 15 digits up to 47 places, and 14
up to 308. What is well below one unit is rounded to zero, what is well above a half is not, and
after 308 places nothing is.
-/

namespace IntervalRules

open Binary64

namespace Step

/-- The power of ten by which a step with so many places is scaled. -/
def scaleOf (places : Nat) : Binary64 := (ofNat 10).pow places

/-- Whole numbers of units below this limit are exact. -/
def limit (places : Nat) : Nat := if places < 48 then 10 ^ 15 else 10 ^ 14

variable {places m k : Nat} {x : Binary64} {q : ℚ}

theorem scale_error (h : places ≤ 308) {n : Nat} (hn : n ≤ places / 16 + 1) :
    9 / 10 ≤ shrink ^ n ∧ grow ^ n ≤ 11 / 10 := by
  have hcount : n ≤ 20 := by omega
  constructor
  · calc 9 / 10 ≤ shrink ^ 20 := by norm_num [shrink]
      _ ≤ shrink ^ n := pow_le_pow_of_le_one shrink_pos.le shrink_le_one hcount
  · calc grow ^ n ≤ grow ^ 20 := pow_le_pow_right₀ one_le_grow hcount
      _ ≤ 11 / 10 := by norm_num [grow]

/-- Scaling adds the roundings of the power and one more. -/
theorem atLeast_scaled {a : ℚ} (hplaces : places ≤ 308) (hx : x.AtLeast a)
    (hsmall : 1 / 5 ≤ a * 10 ^ places) :
    (x * scaleOf places).AtLeast (a * 10 ^ places * shrink ^ (places / 16 + 1)) := by
  have hten : (0 : ℚ) < 10 ^ places := by positivity
  have ha : 0 < a := pos_of_mul_pos_left (lt_of_lt_of_le (by norm_num) hsmall) hten.le
  have hshrink := (scale_error hplaces (Nat.le_succ _)).1
  have hpos : 0 < shrink ^ (places / 16) := lt_of_lt_of_le (by norm_num) hshrink
  have hsize : 1 / 10 ≤ a * (10 ^ places * shrink ^ (places / 16)) := by
    calc (1 : ℚ) / 10 ≤ 1 / 5 * (9 / 10) := by norm_num
      _ ≤ a * 10 ^ places * shrink ^ (places / 16) := by gcongr
      _ = a * (10 ^ places * shrink ^ (places / 16)) := mul_assoc ..
  have hmul := hx.mul (pow_ten_atLeast places) ha (mul_pos hten hpos)
    (two_pow_le_of_tenth_le hsize)
  rwa [← shrink, ← mul_assoc, mul_assoc _ _ shrink, ← pow_succ] at hmul

theorem atMost_scaled {a : ℚ} (hplaces : places ≤ 308) (hx : x.AtMost a)
    (hsmall : 1 / 5 ≤ a * 10 ^ places) (hlarge : a * 10 ^ places ≤ 10 ^ 16) :
    (x * scaleOf places).AtMost (a * 10 ^ places * grow ^ (places / 16 + 1)) := by
  have hgrow := (scale_error hplaces (Nat.le_succ _)).2
  have hone : 1 ≤ grow ^ (places / 16) := one_le_pow₀ one_le_grow
  have hsize : 1 / 10 ≤ a * (10 ^ places * grow ^ (places / 16)) := by
    calc (1 : ℚ) / 10 ≤ 1 / 5 * 1 := by norm_num
      _ ≤ a * 10 ^ places * grow ^ (places / 16) := by gcongr
      _ = a * (10 ^ places * grow ^ (places / 16)) := mul_assoc ..
  have hfinite : a * (10 ^ places * grow ^ (places / 16)) ≤ 11 / 10 * 10 ^ 16 := by
    calc a * (10 ^ places * grow ^ (places / 16)) = grow ^ (places / 16) * (a * 10 ^ places) := by
          ring
      _ ≤ 11 / 10 * 10 ^ 16 := by gcongr
  have hmul := hx.mul (pow_ten_atMost hplaces) (two_pow_le_of_tenth_le hsize)
    (lt_overflow (by omega) hfinite)
  rwa [← grow, ← mul_assoc, mul_assoc _ _ grow, ← pow_succ] at hmul

/-- A part of a unit has the bits of the part and of the unit. -/
theorem part_mul_two_pow_le {part : ℚ} (hpart : 0 ≤ part)
    (hk : k ≤ 52 ∧ places ≤ 47 ∨ k ≤ 49 ∧ places ≤ 308) (h : part ≤ q * 10 ^ places) :
    part * 2 ^ k ≤ q * one := by
  have hten : (0 : ℚ) < 10 ^ places := by positivity
  have hunit : (2 : ℚ) ^ k * 10 ^ places ≤ one := two_pow_mul_ten_pow_le hk
  have hunits : 0 ≤ q * 10 ^ places := hpart.trans h
  refine le_of_mul_le_mul_right ?_ hten
  calc part * 2 ^ k * 10 ^ places = part * (2 ^ k * 10 ^ places) := mul_assoc ..
    _ ≤ q * 10 ^ places * one := by gcongr
    _ = q * one * 10 ^ places := mul_right_comm ..

/-! ## Whole numbers of units -/

section

variable {part units most : ℚ} {n c : Nat}

/-- What `c` roundings take away from some units is at most what `n` take away from more. -/
theorem sub_half_le (hpart : 0 ≤ part) (hpart' : part ≤ 1) (hmost : units ≤ most)
    (hunits : 0 ≤ units) (hc : c ≤ n) (h : most * (1 - (1 - part) * shrink ^ n) ≤ 1 / 2) :
    units - 1 / 2 ≤ units * ((1 - part) * shrink ^ c) := by
  have hshrink : shrink ^ n ≤ shrink ^ c := pow_le_pow_of_le_one shrink_pos.le shrink_le_one hc
  have hdrift : 0 ≤ 1 - (1 - part) * shrink ^ n :=
    sub_nonneg.2 (mul_le_one₀ (by linarith) (pow_nonneg shrink_pos.le n)
      (pow_le_one₀ shrink_pos.le shrink_le_one))
  have hdown : units * (1 - (1 - part) * shrink ^ c) ≤ 1 / 2 := by
    calc _ ≤ units * (1 - (1 - part) * shrink ^ n) := by gcongr
      _ ≤ most * (1 - (1 - part) * shrink ^ n) := by gcongr
      _ ≤ 1 / 2 := h
  linarith

/-- So is what they add. -/
theorem lt_add_half (hpart : 0 ≤ part) (hmost : units ≤ most) (hunits : 0 ≤ units) (hc : c ≤ n)
    (h : most * ((1 + part) * grow ^ n - 1) < 1 / 2) :
    units * ((1 + part) * grow ^ c) < units + 1 / 2 := by
  have hgrow : grow ^ c ≤ grow ^ n := pow_le_pow_right₀ one_le_grow hc
  have hdrift : 0 ≤ (1 + part) * grow ^ n - 1 :=
    sub_nonneg.2 (one_le_mul_of_one_le_of_one_le (by linarith) (one_le_pow₀ one_le_grow))
  have hup : units * ((1 + part) * grow ^ c - 1) < 1 / 2 := by
    calc _ ≤ units * ((1 + part) * grow ^ n - 1) := by gcongr
      _ ≤ most * ((1 + part) * grow ^ n - 1) := by gcongr
      _ < 1 / 2 := h
  linarith

end

/-- A number that was read with `k` bits is rounded to its units, if what `n` more roundings add to
the largest number of units or take away from it is less than a half. -/
theorem scaled_of_bits (hx : x.ReadAs q)
    (hk : k ≤ 52 ∧ places ≤ 47 ∨ k ≤ 49 ∧ places ≤ 308) (hm : q * 10 ^ places = m) (hpos : 1 ≤ m)
    {n most : Nat} (hn : places / 16 + 1 ≤ n) (hmost : m ≤ most) (hexact : most ≤ 10 ^ 15)
    (hlow : (most : ℚ) * (1 - (1 - 1 / 2 ^ (k + 1)) * shrink ^ n) ≤ 1 / 2)
    (hhigh : (most : ℚ) * ((1 + 1 / 2 ^ (k + 1)) * grow ^ n - 1) < 1 / 2) :
    ∃ s h, scaled (scaleOf places) x = .finite s (m * one) h := by
  have hplaces : places ≤ 308 := by omega
  have hbits : k ≤ 52 := by omega
  have hm1 : (1 : ℚ) ≤ m := by exact_mod_cast hpos
  have hm0 : (0 : ℚ) ≤ m := Nat.cast_nonneg m
  have hm15 : (m : ℚ) ≤ 10 ^ 15 := by exact_mod_cast hmost.trans hexact
  have hmost' : (m : ℚ) ≤ most := by exact_mod_cast hmost
  have hq53 : q ≤ 2 ^ 53 := by
    have hten : (1 : ℚ) ≤ 10 ^ places := one_le_pow₀ (by norm_num)
    calc q = m / 10 ^ places := by rw [← hm, mul_div_cancel_right₀ _ (by positivity)]
      _ ≤ m := div_le_self hm0 hten
      _ ≤ 10 ^ 15 := hm15
      _ ≤ 2 ^ 53 := by norm_num
  have hsmall : (2 : ℚ) ^ k ≤ q * one := by
    simpa using part_mul_two_pow_le zero_le_one hk (hm1.trans hm.ge)
  have hpart : (0 : ℚ) ≤ 1 / 2 ^ (k + 1) := by positivity
  have hhalf : (1 : ℚ) / 2 ^ (k + 1) ≤ 1 / 2 := part_le_half k
  have hunder : (1 : ℚ) / 5 ≤ m * (1 - 1 / 2 ^ (k + 1)) := by
    calc (1 : ℚ) / 5 ≤ 1 * (1 - 1 / 2) := by norm_num
      _ ≤ m * (1 - 1 / 2 ^ (k + 1)) := by gcongr
  have hover : (1 : ℚ) / 5 ≤ m * (1 + 1 / 2 ^ (k + 1)) := by
    calc (1 : ℚ) / 5 ≤ 1 * (1 + 0) := by norm_num
      _ ≤ m * (1 + 1 / 2 ^ (k + 1)) := by gcongr
  have hfar : (m : ℚ) * (1 + 1 / 2 ^ (k + 1)) ≤ 10 ^ 16 := by
    calc (m : ℚ) * (1 + 1 / 2 ^ (k + 1)) ≤ 10 ^ 15 * (1 + 1 / 2) := by gcongr
      _ ≤ 10 ^ 16 := by norm_num
  have hunits (factor : ℚ) : q * factor * 10 ^ places = m * factor := by
    rw [mul_right_comm, hm]
  have hleast := atLeast_scaled hplaces (hx.atLeast hbits le_rfl (.inr hq53) hsmall)
    (by rwa [hunits])
  have hgreatest := atMost_scaled hplaces (hx.atMost hbits le_rfl hq53 hsmall) (by rwa [hunits])
    (by rwa [hunits])
  rw [hunits, mul_assoc] at hleast hgreatest
  have hexact' : IsExact m := isExact_of_le ((hmost.trans hexact).trans (by decide))
  obtain ⟨s, hs⟩ := round_of_between hexact' hleast hgreatest
    (sub_half_le hpart (by linarith) hmost' hm0 hn hlow) (lt_add_half hpart hmost' hm0 hn hhigh)
  exact ⟨s, hexact', hs⟩

/-- A whole number of units below the limit is exact. -/
theorem scaled_of_whole (hplaces : places ≤ 308) (hx : x.ReadAs q) (hm : q * 10 ^ places = m)
    (hpos : 1 ≤ m) (hlimit : m < limit places) :
    ∃ s h, scaled (scaleOf places) x = .finite s (m * one) h := by
  unfold limit at hlimit
  split at hlimit
  · refine scaled_of_bits hx (.inl ⟨le_refl 52, by omega⟩) hm hpos
      (show places / 16 + 1 ≤ 3 by omega) hlimit.le le_rfl ?_ ?_ <;> norm_num [shrink, grow]
  · refine scaled_of_bits hx (.inr ⟨le_refl 49, hplaces⟩) hm hpos
      (show places / 16 + 1 ≤ 20 by omega) hlimit.le (by decide) ?_ ?_ <;> norm_num [shrink, grow]

/-! ## Parts of a unit -/

/-- Two fifths of a unit have 47 bits. -/
theorem two_pow_le_part (hplaces : places ≤ 308) {part : ℚ} (hpart : 2 / 5 ≤ part) :
    2 ^ 47 ≤ part / 10 ^ places * one := by
  have hbits : part * 2 ^ 49 ≤ part / 10 ^ places * one :=
    part_mul_two_pow_le (le_trans (by norm_num) hpart) (.inr ⟨le_rfl, hplaces⟩)
      (div_mul_cancel₀ part (by positivity)).ge
  linarith

/-- What is well below a half of a unit is rounded to zero. -/
theorem scaled_of_small (hplaces : places ≤ 308) (hx : x.ReadAs q)
    (hq : q * 10 ^ places ≤ 2 / 5) :
    ∃ s h, scaled (scaleOf places) x = .finite s 0 h := by
  have hten : (1 : ℚ) ≤ 10 ^ places := one_le_pow₀ (by norm_num)
  have hbound : q ≤ 2 / 5 / 10 ^ places := (le_div_iff₀ (by positivity)).2 hq
  have hfar : (2 : ℚ) / 5 / 10 ^ places ≤ 2 ^ 53 :=
    (div_le_self (by norm_num) hten).trans (by norm_num)
  have hread := hx.atMost (show 47 ≤ 52 by omega) hbound hfar (two_pow_le_part hplaces le_rfl)
  have hunits : (2 : ℚ) / 5 / 10 ^ places * (1 + 1 / 2 ^ (47 + 1)) * 10 ^ places =
      2 / 5 * (1 + 1 / 2 ^ 48) := by field_simp
  have hscaled := atMost_scaled hplaces hread (by rw [hunits]; norm_num)
    (by rw [hunits]; norm_num)
  rw [hunits] at hscaled
  have hgrow := (scale_error hplaces le_rfl).2
  have hhalf : (2 : ℚ) / 5 * (1 + 1 / 2 ^ 48) * grow ^ (places / 16 + 1) < 1 / 2 := by
    calc (2 : ℚ) / 5 * (1 + 1 / 2 ^ 48) * grow ^ (places / 16 + 1)
        ≤ 2 / 5 * (1 + 1 / 2 ^ 48) * (11 / 10) := by gcongr
      _ < 1 / 2 := by norm_num
  obtain ⟨s, hs⟩ := round_of_between (isExact_of_le (Nat.zero_le _)) hscaled.atLeast_zero hscaled
    (by norm_num) (by rw [Nat.cast_zero, zero_add]; exact hhalf)
  have hzero : OnGrid 0 := zero_onGrid
  refine ⟨s, hzero, ?_⟩
  rw [scaled, hs]
  simp only [Nat.zero_mul]

/-- A number that is well above a half of a unit is read as one. -/
theorem atLeast_of_large (hplaces : places ≤ 308) (hx : x.ReadAs q)
    (hq : 3 / 5 ≤ q * 10 ^ places) :
    x.AtLeast (3 / 5 / 10 ^ places * (1 - 1 / 2 ^ (47 + 1))) := by
  have hten : (1 : ℚ) ≤ 10 ^ places := one_le_pow₀ (by norm_num)
  have hbound : 3 / 5 / 10 ^ places ≤ q := (div_le_iff₀ (by positivity)).2 hq
  have hone : (3 : ℚ) / 5 / 10 ^ places ≤ 1 :=
    (div_le_self (by norm_num) hten).trans (by norm_num)
  exact hx.atLeast (by omega) hbound (.inl hone) (two_pow_le_part hplaces (by norm_num))

/-- It is not zero, and it is not rounded to zero. -/
theorem ne_zero_of_large (hplaces : places ≤ 308) (hx : x.ReadAs q)
    (hq : 3 / 5 ≤ q * 10 ^ places) :
    x.eq zero = false ∧ (scaled (scaleOf places) x).eq zero = false := by
  have hread := atLeast_of_large hplaces hx hq
  refine ⟨hread.ne_zero (mul_pos (by positivity) (by norm_num)), ?_⟩
  have hunits : (3 : ℚ) / 5 / 10 ^ places * (1 - 1 / 2 ^ (47 + 1)) * 10 ^ places =
      3 / 5 * (1 - 1 / 2 ^ 48) := by field_simp
  have hscaled := atLeast_scaled hplaces hread (by rw [hunits]; norm_num)
  rw [hunits] at hscaled
  have hshrink := (scale_error hplaces le_rfl).1
  refine (hscaled.mono ?_).round_ne_zero
  calc (1 : ℚ) / 2 ≤ 3 / 5 * (1 - 1 / 2 ^ 48) * (9 / 10) := by norm_num
    _ ≤ 3 / 5 * (1 - 1 / 2 ^ 48) * shrink ^ (places / 16 + 1) := by gcongr

/-- After 308 places nothing has a number of units. -/
theorem scaled_of_many_places (hplaces : 308 < places) (x : Binary64) :
    scaled (scaleOf places) x = .nan ∨ ∃ s, scaled (scaleOf places) x = .infinite s := by
  obtain ⟨t, hscale⟩ := exists_pow_ten_eq_infinite hplaces
  rw [scaleOf, hscale]
  cases x with
  | nan => exact .inl rfl
  | infinite s => exact .inr ⟨_, rfl⟩
  | finite s units hgrid =>
    change Binary64.round (if units = 0 then .nan else .infinite (s != t)) = _ ∨
      ∃ b, Binary64.round (if units = 0 then .nan else .infinite (s != t)) = .infinite b
    split
    · exact .inl rfl
    · exact .inr ⟨_, rfl⟩

theorem scaled_ne_zero_of_many_places (hplaces : 308 < places) (x : Binary64) :
    (scaled (scaleOf places) x).eq zero = false := by
  rcases scaled_of_many_places hplaces x with hx | ⟨s, hx⟩
  · rw [hx]
    rfl
  · rw [hx]
    exact @AtLeast.ne_zero (.infinite s) 1 trivial (by norm_num)

end Step

end IntervalRules
