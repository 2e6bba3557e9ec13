import IntervalRules.Literal.Basic
import IntervalRules.Proofs.RatioRounding

/-!
Digits folded with a rounding at each step. The result depends on the radix and on the natural
that the digits denote, not on how it is written (`ofDigits_eq_foldNat`). It is the number nearest
to the natural if no step before the last rounds (`foldNat_eq_ofNat`); beyond that the
roundings of the steps may add up to another number.
-/

namespace IntervalRules

namespace Binary64

/-! ## Naturals -/

/-- The natural is one of the binary64 numbers. -/
abbrev IsExact (n : Nat) : Prop := OnGrid (n * one)

theorem exists_one_eq_two_pow :
    ∃ bits, 54 ≤ bits ∧ one = Nat.pow 2 bits ∧ overflow = Nat.pow 2 (1024 + bits) :=
  ⟨1074, by decide +kernel⟩

theorem isExact_of_significand {m k : Nat} (hm : m ≤ Nat.pow 2 53) (hk : k ≤ 64) :
    IsExact (m * Nat.pow 2 k) := by
  obtain ⟨bits, -, hone, hoverflow⟩ := exists_one_eq_two_pow
  have hunits : m * Nat.pow 2 k * one = m * Nat.pow 2 (k + bits) := by
    rw [hone, Nat.pow_eq, Nat.pow_eq, Nat.pow_eq, Nat.pow_add, Nat.mul_assoc]
  rw [IsExact, hunits]
  refine ⟨?_, pow_dvd_of_significand hm (k + bits)⟩
  rw [hoverflow, Nat.pow_eq, Nat.pow_eq]
  calc m * 2 ^ (k + bits) ≤ 2 ^ 53 * 2 ^ (k + bits) := Nat.mul_le_mul_right _ hm
    _ = 2 ^ (53 + (k + bits)) := (Nat.pow_add 2 53 (k + bits)).symm
    _ < 2 ^ (1024 + bits) := Nat.pow_lt_pow_right (by decide) (by omega)

theorem isExact_of_le {n : Nat} (h : n ≤ Nat.pow 2 53) : IsExact n := by
  simpa using isExact_of_significand h (Nat.zero_le 64)

theorem ofNat_of_isExact {n : Nat} (h : IsExact n) : ofNat n = .finite false (n * one) h :=
  ofUnits_of_onGrid false h

theorem finite_mul_finite {a b : Nat} (s t : Bool) (ha : OnGrid a) (hb : OnGrid b) :
    Binary64.finite s a ha * .finite t b hb = ofUnits (s != t) (a * b) one := rfl

theorem finite_add_finite {a b : Nat} (s : Bool) (ha : OnGrid a) (hb : OnGrid b) :
    Binary64.finite s a ha + .finite s b hb = ofUnits s (a + b) 1 := if_pos rfl

/-- The product of naturals is rounded once. -/
theorem ofNat_mul_ofNat {m n : Nat} (hm : IsExact m) (hn : IsExact n) :
    ofNat m * ofNat n = ofNat (m * n) := by
  rw [ofNat_of_isExact hm, ofNat_of_isExact hn, finite_mul_finite, bne_self_eq_false]
  refine ofUnits_congr false one_pos Nat.one_pos ?_
  ac_rfl

/-- So is their sum. -/
theorem ofNat_add_ofNat {m n : Nat} (hm : IsExact m) (hn : IsExact n) :
    ofNat m + ofNat n = ofNat (m + n) := by
  rw [ofNat_of_isExact hm, ofNat_of_isExact hn, finite_add_finite, ofNat, Nat.add_mul]

theorem ofNat_zero : ofNat 0 = zero := by
  rw [ofNat_of_isExact (isExact_of_le (Nat.zero_le _))]
  simp only [Nat.zero_mul]
  rfl

/-! ## Folds -/

/-- The digits of a natural folded from the first one on, with a rounding after each product and
each sum. -/
def foldNat (base n : Nat) : Binary64 :=
  if n = 0 ∨ base < 2 then zero
  else foldNat base (n / base) * ofNat base + ofNat (n % base)
termination_by n
decreasing_by exact Nat.div_lt_self (by omega) (by omega)

variable {base : Nat}

/-- One more digit. -/
theorem foldNat_step (hbase : 2 ≤ base) (hexact : IsExact base) (n : Nat) {digit : Nat}
    (hdigit : digit < base) :
    foldNat base n * ofNat base + ofNat digit = foldNat base (n * base + digit) := by
  have hpos : 0 < base := by omega
  by_cases hzero : n * base + digit = 0
  · have hdigit0 : digit = 0 := by omega
    have hn : n = 0 := by
      rcases Nat.mul_eq_zero.1 (show n * base = 0 by omega) with h | h
      · exact h
      · omega
    have hexact0 : IsExact 0 := isExact_of_le (Nat.zero_le _)
    have hfold : foldNat base 0 = ofNat 0 := by
      rw [foldNat, if_pos (.inl rfl), ofNat_zero]
    rw [hdigit0, hn, hfold, ofNat_mul_ofNat hexact0 hexact, Nat.zero_mul,
      ofNat_add_ofNat hexact0 hexact0, Nat.zero_add, hfold]
  · have hquotient : (n * base + digit) / base = n := by
      rw [Nat.add_comm, Nat.add_mul_div_right _ _ hpos, Nat.div_eq_of_lt hdigit, Nat.zero_add]
    have hremainder : (n * base + digit) % base = digit := by
      rw [Nat.add_comm, Nat.add_mul_mod_self_right, Nat.mod_eq_of_lt hdigit]
    rw [foldNat.eq_def base (n * base + digit), if_neg (by omega), hquotient, hremainder]

theorem lt_of_mem_digitValues {cs : List Char} {digit : Nat}
    (h : digit ∈ Text.digitValues base cs) : digit < base := by
  obtain ⟨c, -, hc⟩ := List.mem_filterMap.1 h
  simpa using (Option.filter_eq_some_iff.1 hc).2

/-- Digits are folded to what their natural is folded to. -/
theorem ofDigits_eq_foldNat (hbase : 2 ≤ base) (hexact : IsExact base) (cs : List Char) :
    ofDigits base cs = foldNat base (Text.natOf base cs) := by
  have hfold (digits : List Nat) (hdigits : ∀ digit ∈ digits, digit < base) (n : Nat) :
      digits.foldl (fun sum digit => sum * ofNat base + ofNat digit) (foldNat base n) =
        foldNat base (digits.foldl (fun n digit => n * base + digit) n) := by
    induction digits generalizing n with
    | nil => rfl
    | cons digit digits ih =>
      rw [List.foldl_cons, List.foldl_cons,
        foldNat_step hbase hexact n (hdigits digit List.mem_cons_self)]
      exact ih (fun d hd => hdigits d (List.mem_cons_of_mem digit hd)) _
  have hzero : foldNat base 0 = zero := by
    rw [foldNat, if_pos (.inl rfl)]
  rw [ofDigits, Text.natOf, ← hfold _ (fun digit => lt_of_mem_digitValues) 0, hzero]

/-! ## One rounding -/

/-- Each number that the fold of a natural comes to before its last sum is a binary64 number. -/
def RoundsOnce (base n : Nat) : Prop :=
  ∀ i, IsExact (n / Nat.pow base (i + 1)) ∧ IsExact (n / Nat.pow base (i + 1) * base)

theorem RoundsOnce.div {n : Nat} (h : RoundsOnce base n) : RoundsOnce base (n / base) := by
  intro i
  have hpower : base * Nat.pow base (i + 1) = Nat.pow base (i + 1 + 1) := Nat.mul_comm _ _
  rw [Nat.div_div_eq_div_mul, hpower]
  exact h (i + 1)

theorem foldNat_eq_ofNat (hbase : 2 ≤ base) (hsmall : base ≤ Nat.pow 2 53) {n : Nat}
    (h : RoundsOnce base n) : foldNat base n = ofNat n := by
  fun_induction foldNat base n with
  | case1 n hn =>
    have hzero : n = 0 := by omega
    rw [hzero, ofNat_zero]
  | case2 n hn ih =>
    obtain ⟨hquotient, hproduct⟩ := h 0
    rw [Nat.zero_add, Nat.pow_eq, Nat.pow_one] at hquotient hproduct
    have hdigit : IsExact (n % base) :=
      isExact_of_le (Nat.le_trans (Nat.le_of_lt (Nat.mod_lt n (by omega))) hsmall)
    rw [ih h.div, ofNat_mul_ofNat hquotient (isExact_of_le hsmall),
      ofNat_add_ofNat hproduct hdigit, Nat.div_add_mod']

end Binary64

namespace Radix

/-- What is left of the base without its factors of two. -/
def oddPart : Radix → Nat
  | .decimal => 5
  | .binary | .octal | .hexadecimal => 1

theorem base_eq (radix : Radix) : ∃ k ≤ 64, radix.base = radix.oddPart * Nat.pow 2 k := by
  cases radix with
  | binary => exact ⟨1, by decide, rfl⟩
  | octal => exact ⟨3, by decide, rfl⟩
  | decimal => exact ⟨1, by decide, rfl⟩
  | hexadecimal => exact ⟨4, by decide, rfl⟩

theorem two_le_base (radix : Radix) : 2 ≤ radix.base := by
  cases radix <;> decide

theorem base_le (radix : Radix) : radix.base ≤ Nat.pow 2 53 := by
  cases radix <;> decide

theorem oddPart_pos (radix : Radix) : 0 < radix.oddPart := by
  cases radix <;> decide

/-- Below this limit there is one rounding: the digits but the last, times the odd part of the
base, have no more than 53 bits or are `2 ^ 53`. -/
theorem roundsOnce_of_le (radix : Radix) {n : Nat}
    (h : n / radix.base * radix.oddPart ≤ Nat.pow 2 53) : Binary64.RoundsOnce radix.base n := by
  intro i
  obtain ⟨k, hk, hbase⟩ := radix.base_eq
  have hpos : 0 < radix.base := Nat.lt_of_lt_of_le (by decide) radix.two_le_base
  have hle : n / Nat.pow radix.base (i + 1) ≤ n / radix.base := by
    refine Nat.div_le_div_left ?_ hpos
    rw [Nat.pow_eq, Nat.pow_succ]
    exact Nat.le_mul_of_pos_left _ (Nat.pow_pos hpos)
  have hodd : n / Nat.pow radix.base (i + 1) * radix.oddPart ≤ Nat.pow 2 53 :=
    Nat.le_trans (Nat.mul_le_mul_right _ hle) h
  have hquotient : n / Nat.pow radix.base (i + 1) ≤ Nat.pow 2 53 :=
    Nat.le_trans (Nat.le_mul_of_pos_right _ radix.oddPart_pos) hodd
  refine ⟨Binary64.isExact_of_le hquotient, ?_⟩
  -- the factors of two in the base only raise the exponent of the product
  have hproduct := Binary64.isExact_of_significand hodd hk
  rwa [Nat.mul_assoc, ← hbase] at hproduct

end Radix

end IntervalRules
