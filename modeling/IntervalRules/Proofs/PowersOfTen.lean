import IntervalRules.Proofs.RoundingError
import Mathlib.Algebra.Order.Ring.Pow

/-!
Powers of ten by repeated squaring. Up to `10 ^ 22` every product is exact, so that the squares of
ten up to `10 ^ 16` and what is made of them bring no rounding. From there on each product brings
one, and the power is away from the exact one by one rounding for every 16 places. After `10 ^ 308`
it is infinite.
-/

namespace IntervalRules.Binary64

/-- Repeated squaring makes one product for each unit of the exponent, counted with the roundings
that are in the base already. `P` and `B` tell what holds of a product and of a base by the number
of their roundings and the exponent of ten. -/
theorem powOnto_counted {P B : Nat → Nat → Binary64 → Prop}
    (hproduct : ∀ {k l i j x y}, P k i x → B l j y → P (k + l + 1) (i + j) (x * y))
    (hbase : ∀ {l j y}, B l j y → B (l + l + 1) (j + j) (y * y)) {product base : Binary64}
    {k l i j : Nat} (hp : P k i product) (hb : B l j base) (e : Nat) :
    P (k + e * (l + 1)) (i + e * j) (powOnto product base e) := by
  fun_induction powOnto product base e generalizing k l i j with
  | case1 product base => simpa using hp
  | case2 product base e he ih =>
    by_cases hodd : e % 2 = 1
    · rw [dif_pos hodd] at ih
      rw [if_pos hodd]
      have hrest := ih (hproduct hp hb) (hbase hb)
      obtain ⟨half, rfl⟩ : ∃ half, e = 2 * half + 1 := ⟨e / 2, by omega⟩
      have hhalf : (2 * half + 1) / 2 = half := by omega
      rw [hhalf] at hrest ⊢
      convert hrest using 1 <;> ring
    · rw [dif_neg hodd] at ih
      rw [if_neg hodd]
      have hrest := ih hp (hbase hb)
      obtain ⟨half, rfl⟩ : ∃ half, e = 2 * half := ⟨e / 2, by omega⟩
      have hhalf : 2 * half / 2 = half := by omega
      rw [hhalf] at hrest ⊢
      convert hrest using 1 <;> ring

/-! ## Exact powers -/

theorem isExact_ten_pow {i : Nat} (h : i ≤ 22) : IsExact (10 ^ i) := by
  have hparts : 10 ^ i = 5 ^ i * Nat.pow 2 i := Nat.mul_pow 5 2 i
  rw [hparts]
  refine isExact_of_significand ?_ (by omega)
  calc 5 ^ i ≤ 5 ^ 22 := Nat.pow_le_pow_right (by decide) h
    _ ≤ Nat.pow 2 53 := by decide

/-- One digit of the exponent, while the powers are exact. -/
theorem powOnto_ten {i j : Nat} (h : i + j ≤ 22) (e : Nat) :
    powOnto (ofNat (10 ^ i)) (ofNat (10 ^ j)) e =
      powOnto (ofNat (10 ^ (i + j * (e % 2)))) (ofNat (10 ^ (2 * j))) (e / 2) := by
  have hj : IsExact (10 ^ j) := isExact_ten_pow (by omega)
  rw [powOnto]
  split
  · rename_i hzero
    subst hzero
    rw [powOnto, if_pos rfl]
    simp
  · rw [ofNat_mul_ofNat hj hj, ofNat_mul_ofNat (isExact_ten_pow (by omega)) hj, ← pow_add,
      ← pow_add, two_mul]
    rcases Nat.mod_two_eq_zero_or_one e with heven | hodd
    · simp [heven]
    · simp [hodd]

/-- Up to the sixteenth power of ten the squares are exact. -/
theorem pow_ten_eq (places : Nat) :
    (ofNat 10).pow places =
      powOnto (ofNat (10 ^ (places % 16))) (ofNat (10 ^ 16)) (places / 16) := by
  have hstart : (ofNat 10).pow places = powOnto (ofNat (10 ^ 0)) (ofNat (10 ^ 1)) places := rfl
  have hlow : 0 + 1 * (places % 2) + 2 * 1 * (places / 2 % 2) + 2 * (2 * 1) * (places / 2 / 2 % 2) +
      2 * (2 * (2 * 1)) * (places / 2 / 2 / 2 % 2) = places % 16 := by omega
  have hhigh : places / 2 / 2 / 2 / 2 = places / 16 := by omega
  rw [hstart, powOnto_ten (by omega), powOnto_ten (by omega), powOnto_ten (by omega),
    powOnto_ten (by omega), hlow, hhigh]

/-! ## Rounded powers -/

/-- What one rounding may add to a size, and what it may take away. -/
def grow : ℚ := 1 + 1 / 2 ^ 53

def shrink : ℚ := 1 - 1 / 2 ^ 53

theorem one_le_grow : 1 ≤ grow := by norm_num [grow]

theorem shrink_pos : 0 < shrink := by norm_num [shrink]

theorem shrink_le_one : shrink ≤ 1 := by norm_num [shrink]

theorem two_pow_le_of_tenth_le {q : ℚ} (h : 1 / 10 ≤ q) : 2 ^ 52 ≤ q * one := by
  have hone : (2 : ℚ) ^ 52 * 10 ^ 1 ≤ one := two_pow_mul_ten_pow_le (.inl ⟨le_rfl, by omega⟩)
  calc (2 : ℚ) ^ 52 = 1 / 10 * (2 ^ 52 * 10 ^ 1) := by ring
    _ ≤ q * one := by gcongr

theorem sizes_exact {i : Nat} (h : i ≤ 22) :
    (ofNat (10 ^ i)).AtLeast (10 ^ i) ∧ (ofNat (10 ^ i)).AtMost (10 ^ i) := by
  have hunits : (10 : ℚ) ^ i * one = (10 ^ i * one : Nat) := by push_cast; rfl
  rw [ofNat_of_isExact (isExact_ten_pow h)]
  exact ⟨hunits.le, hunits.ge⟩

/-- At most a power of ten after so many roundings, while that is finite. -/
def IsAtMostTen (count i : Nat) (x : Binary64) : Prop :=
  count ≤ 20 → i ≤ 308 → x.AtMost (10 ^ i * grow ^ count)

/-- At least a power of ten after so many roundings, which are fewer than its places. -/
def IsAtLeastTen (count i : Nat) (x : Binary64) : Prop :=
  count ≤ i ∧ x.AtLeast (10 ^ i * shrink ^ count)

variable {k l i j : Nat} {x y : Binary64}

theorem IsAtMostTen.mul (hx : IsAtMostTen k i x) (hy : IsAtMostTen l j y) :
    IsAtMostTen (k + l + 1) (i + j) (x * y) := by
  intro hcount hplaces
  have hsizes : (10 : ℚ) ^ i * grow ^ k * (10 ^ j * grow ^ l) = 10 ^ (i + j) * grow ^ (k + l) := by
    ring
  have hone : (1 : ℚ) ≤ 10 ^ (i + j) * grow ^ (k + l) :=
    one_le_mul_of_one_le_of_one_le (one_le_pow₀ (by norm_num)) (one_le_pow₀ one_le_grow)
  have hlarge : (10 : ℚ) ^ (i + j) * grow ^ (k + l) ≤ 11 / 10 * 10 ^ (i + j) := by
    rw [mul_comm]
    gcongr
    calc grow ^ (k + l) ≤ grow ^ 20 := pow_le_pow_right₀ one_le_grow (by omega)
      _ ≤ 11 / 10 := by norm_num [grow]
  have hmul := (hx (by omega) (by omega)).mul (hy (by omega) (by omega))
    (by rw [hsizes]; exact two_pow_le_of_tenth_le (le_trans (by norm_num) hone))
    (by rw [hsizes]; exact lt_overflow hplaces hlarge)
  rwa [hsizes, mul_assoc, ← grow, ← pow_succ] at hmul

/-- Taking away one part in `2 ^ 53` for each place still leaves one. -/
theorem one_le_ten_pow_shrink {count i : Nat} (h : count ≤ i) :
    (1 : ℚ) ≤ 10 ^ i * shrink ^ count := by
  calc (1 : ℚ) ≤ (10 * shrink) ^ i := one_le_pow₀ (by norm_num [shrink])
    _ = 10 ^ i * shrink ^ i := mul_pow 10 shrink i
    _ ≤ 10 ^ i * shrink ^ count :=
      mul_le_mul_of_nonneg_left (pow_le_pow_of_le_one shrink_pos.le shrink_le_one h)
        (by positivity)

theorem IsAtLeastTen.mul (hx : IsAtLeastTen k i x) (hy : IsAtLeastTen l j y) (hlt : l < j) :
    IsAtLeastTen (k + l + 1) (i + j) (x * y) := by
  obtain ⟨hk, hx⟩ := hx
  obtain ⟨hl, hy⟩ := hy
  have hsizes : (10 : ℚ) ^ i * shrink ^ k * (10 ^ j * shrink ^ l) =
      10 ^ (i + j) * shrink ^ (k + l) := by ring
  have hone : (1 : ℚ) ≤ 10 ^ (i + j) * shrink ^ (k + l) := one_le_ten_pow_shrink (by omega)
  have hmul := hx.mul hy (zero_lt_one.trans_le (one_le_ten_pow_shrink hk))
    (zero_lt_one.trans_le (one_le_ten_pow_shrink hl))
    (by rw [hsizes]; exact two_pow_le_of_tenth_le (le_trans (by norm_num) hone))
  rw [hsizes, mul_assoc, ← shrink, ← pow_succ] at hmul
  exact ⟨by omega, hmul⟩

/-- The power is at most the exact one after a rounding for every 16 places. -/
theorem pow_ten_atMost {places : Nat} (h : places ≤ 308) :
    ((ofNat 10).pow places).AtMost (10 ^ places * grow ^ (places / 16)) := by
  have hexact {i : Nat} (hi : i ≤ 22) : IsAtMostTen 0 i (ofNat (10 ^ i)) := by
    intro _ _
    rw [pow_zero, mul_one]
    exact (sizes_exact hi).2
  have hcounted := powOnto_counted IsAtMostTen.mul (fun hy => hy.mul hy)
    (hexact (i := places % 16) (by omega)) (hexact (i := 16) (by omega)) (places / 16)
  rw [← pow_ten_eq, Nat.zero_add, Nat.zero_add, Nat.mul_one, Nat.mod_add_div' places 16]
    at hcounted
  exact hcounted (by omega) h

/-- It is at least the exact one after as many. -/
theorem pow_ten_atLeast (places : Nat) :
    ((ofNat 10).pow places).AtLeast (10 ^ places * shrink ^ (places / 16)) := by
  have hexact {i : Nat} (hi : i ≤ 22) : IsAtLeastTen 0 i (ofNat (10 ^ i)) := by
    refine ⟨Nat.zero_le i, ?_⟩
    rw [pow_zero, mul_one]
    exact (sizes_exact hi).1
  have hcounted := powOnto_counted
    (B := fun l j y => l < j ∧ IsAtLeastTen l j y) (fun hx hy => hx.mul hy.2 hy.1)
    (fun hy => ⟨by omega, hy.2.mul hy.2 hy.1⟩)
    (hexact (i := places % 16) (by omega)) ⟨by omega, hexact (i := 16) (by omega)⟩ (places / 16)
  rw [← pow_ten_eq, Nat.zero_add, Nat.zero_add, Nat.mul_one, Nat.mod_add_div' places 16]
    at hcounted
  exact hcounted.2

/-- After 308 places the power is infinite. -/
theorem exists_pow_ten_eq_infinite {places : Nat} (h : 308 < places) :
    ∃ s, (ofNat 10).pow places = .infinite s := by
  have hclosed : ∃ most, most = 308 ∧ overflow ≤ 2 * Nat.pow 10 most * one :=
    ⟨308, rfl, by decide +kernel⟩
  obtain ⟨most, hmost, hunits⟩ := hclosed
  have hunits' : (overflow : ℚ) ≤ 2 * 10 ^ most * one := by exact_mod_cast hunits
  have hshrink : 1 / 5 ≤ shrink ^ (most + 1) := by
    have hsum : (1 : ℚ) + (most + 1 : Nat) * -(1 / 2 ^ 53) ≤ (1 + -(1 / 2 ^ 53)) ^ (most + 1) :=
      one_add_mul_le_pow (by norm_num) (most + 1)
    rw [hmost] at hsum ⊢
    rw [shrink, sub_eq_add_neg]
    refine le_trans ?_ hsum
    norm_num
  have hpower : (2 : ℚ) * 10 ^ most ≤ 10 ^ places * shrink ^ (places / 16) := by
    calc (2 : ℚ) * 10 ^ most = 10 ^ (most + 1) * (1 / 5) := by ring
      _ ≤ 10 ^ (most + 1) * shrink ^ (most + 1) := by gcongr
      _ = (10 * shrink) ^ (most + 1) := (mul_pow 10 shrink _).symm
      _ ≤ (10 * shrink) ^ places := pow_le_pow_right₀ (by norm_num [shrink]) (by omega)
      _ = 10 ^ places * shrink ^ places := mul_pow 10 shrink _
      _ ≤ 10 ^ places * shrink ^ (places / 16) :=
        mul_le_mul_of_nonneg_left
          (pow_le_pow_of_le_one shrink_pos.le shrink_le_one (Nat.div_le_self places 16))
          (by positivity)
  have hlarge : (overflow : ℚ) ≤ 10 ^ places * shrink ^ (places / 16) * one :=
    hunits'.trans (mul_le_mul_of_nonneg_right hpower cast_one_pos.le)
  have hleast := pow_ten_atLeast places
  cases hpow : (ofNat 10).pow places with
  | nan =>
    rw [hpow] at hleast
    exact hleast.elim
  | infinite s => exact ⟨s, rfl⟩
  | finite s units hgrid =>
    rw [hpow] at hleast
    have hunits : (overflow : ℚ) ≤ units := hlarge.trans hleast
    have hnat : overflow ≤ units := by exact_mod_cast hunits
    exact absurd hgrid.1 (Nat.not_lt.2 hnat)

end IntervalRules.Binary64
