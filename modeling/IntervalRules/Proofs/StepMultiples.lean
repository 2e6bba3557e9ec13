import IntervalRules.Proofs.CountedPlaces
import IntervalRules.Proofs.StepParameters

/-!
Which values pass a step. Value and step are compared as whole numbers of units, one for each place
that is written after the point of the step. A value with more written places does not pass. If the
others and the step are whole numbers of units that are exact (`Step.Fits`), the values that pass
are the multiples of the step. Numbers whose places are counted are whole numbers of units. An
exponent in the value is not seen by the count, so that a value may pass that is not a whole number
of units and no multiple at all.
-/

namespace IntervalRules

open Binary64

namespace Step

/-- A whole number of units at so many places, and one that is exact. -/
def Fits (places : Nat) (q : ℚ) : Prop :=
  ∃ m : ℤ, q * 10 ^ places = m ∧ m.natAbs < limit places

theorem limit_le (places : Nat) : limit places ≤ 10 ^ 15 := by
  unfold limit
  split <;> decide

variable {places : Nat} {x : Binary64} {q : ℚ} {m : ℤ}

theorem abs_units (hm : q * 10 ^ places = m) : |q| * 10 ^ places = m.natAbs := by
  have hten : (0 : ℚ) < 10 ^ places := by positivity
  rw [Nat.cast_natAbs, Int.cast_abs, ← hm, abs_mul, abs_of_pos hten]

/-- What is counted up to these places and not too large fits. -/
theorem fits_of_counted {n : NumberText} (hcounted : n.Counted) {text : String}
    (h : n.chars = text.toList) (hplaces : decimalPlaces text ≤ places)
    (hlimit : |n.rational| * 10 ^ places < limit places) : Fits places n.rational := by
  obtain ⟨m, hm⟩ := hcounted.exists_rational_mul_eq h hplaces
  rw [abs_units hm] at hlimit
  exact ⟨m, hm, by exact_mod_cast hlimit⟩

theorem scaled_of_fits (hplaces : places ≤ 308) (hx : x.ReadAs |q|) (hm : q * 10 ^ places = m)
    (hlimit : m.natAbs < limit places) :
    ∃ s h, scaled (scaleOf places) x = .finite s (m.natAbs * one) h := by
  have habs := abs_units hm
  rcases Nat.eq_zero_or_pos m.natAbs with hzero | hpos
  · obtain ⟨s, h, hs⟩ := scaled_of_small hplaces hx (by rw [habs, hzero]; norm_num)
    have hunits : m.natAbs * one = 0 := by rw [hzero, Nat.zero_mul]
    refine ⟨s, hunits ▸ h, ?_⟩
    rw [hs]
    simp only [hunits]
  · exact scaled_of_whole hplaces hx habs hpos hlimit

end Step

namespace Binary64

theorem whole_eq_zero_iff {n : Nat} (s : Bool) (h : IsExact n) :
    (Binary64.finite s (n * one) h).eq zero = true ↔ n = 0 := by
  rw [eq_zero_iff]
  constructor
  · rintro ⟨_, _, hzero⟩
    injection hzero with _ hzero
    exact (Nat.mul_eq_zero.1 hzero).resolve_right one_pos.ne'
  · rintro rfl
    refine ⟨s, zero_onGrid, ?_⟩
    simp only [Nat.zero_mul]

/-- Whole numbers leave nothing over exactly if the one divides the other. -/
theorem remainder_eq_zero_iff {m n : Nat} (s t : Bool) (hm : IsExact m) (hn : IsExact n)
    (hpos : 0 < n) (hsmall : n ≤ Nat.pow 2 53) :
    ((Binary64.finite s (m * one) hm).remainder (.finite t (n * one) hn)).eq zero = true ↔
      n ∣ m := by
  have hrest : IsExact (m % n) := isExact_of_le ((Nat.mod_lt m hpos).le.trans hsmall)
  have hunits : n * one ≠ 0 := Nat.mul_ne_zero hpos.ne' one_pos.ne'
  have hremainder : (Binary64.finite s (m * one) hm).remainder (.finite t (n * one) hn) =
      .finite s (m % n * one) hrest := by
    change (if n * one = 0 then Binary64.nan else ofUnits s (m * one % (n * one)) 1) = _
    rw [if_neg hunits, Nat.mul_mod_mul_right]
    exact ofUnits_of_onGrid s hrest
  rw [hremainder, whole_eq_zero_iff, Nat.dvd_iff_mod_eq_zero]

end Binary64

theorem units_eq_zero_iff {s : ℚ} {places : Nat} {n : ℤ} (hn : s * 10 ^ places = n) :
    n = 0 ↔ s = 0 := by
  rw [← @Int.cast_eq_zero ℚ _ _ n, ← hn, mul_eq_zero]
  exact or_iff_left (by positivity)

/-- Multiples are those of the whole numbers of units. -/
theorem exists_multiple_iff {v s : ℚ} {places : Nat} {m n : ℤ} (hm : v * 10 ^ places = m)
    (hn : s * 10 ^ places = n) : (∃ k : ℤ, v = k * s) ↔ n.natAbs ∣ m.natAbs := by
  have hten : (10 : ℚ) ^ places ≠ 0 := by positivity
  rw [Int.natAbs_dvd_natAbs]
  constructor
  · rintro ⟨k, rfl⟩
    refine ⟨k, ?_⟩
    rw [mul_assoc, hn] at hm
    have hint : (n : ℚ) * k = m := by rw [mul_comm, hm]
    exact_mod_cast hint.symm
  · rintro ⟨k, rfl⟩
    refine ⟨k, mul_right_cancel₀ hten ?_⟩
    rw [hm, mul_assoc, hn]
    push_cast
    ring

namespace Step

variable {places : Nat}

/-- After 308 places no value passes. -/
theorem divides_of_many_places {unit : Step} (hscale : unit.scale = scaleOf places)
    (hplaces : 308 < places) (value : String) : unit.divides value = false := by
  unfold divides
  dsimp only
  cases hread : parseNumber? (Text.trim value) with
  | none => rfl
  | some x =>
    have hover : ((scaled unit.scale x).remainder unit.units).eq zero = false := by
      rw [hscale]
      rcases scaled_of_many_places hplaces x with hx | ⟨s, hx⟩ <;> rw [hx] <;> rfl
    dsimp only
    rw [hover, Bool.and_false]

theorem divides_of_more_places {unit : Step} {value : String}
    (h : unit.places < decimalPlaces (Text.trim value)) : unit.divides value = false := by
  unfold divides
  dsimp only
  cases parseNumber? (Text.trim value) with
  | none => rfl
  | some x =>
    dsimp only
    rw [decide_eq_false (Nat.not_le_of_lt h), Bool.false_and]

/-- A value passes exactly if it has no more places and is a multiple. -/
theorem divides_iff {value : String} {v s : ℚ} (hv : Text.Denotes (Text.trim value) v)
    (hplaces : places ≤ 308) (hvalue : decimalPlaces (Text.trim value) ≤ places → Fits places v)
    {n : ℤ} (hn : s * 10 ^ places = n) (hpos : 0 < n.natAbs) (hexact : IsExact n.natAbs)
    (hsmall : n.natAbs ≤ Nat.pow 2 53) (t : Bool) :
    (Step.mk places (scaleOf places) (.finite t (n.natAbs * one) hexact)).divides value = true ↔
      decimalPlaces (Text.trim value) ≤ places ∧ ∃ k : ℤ, v = k * s := by
  by_cases hcount : decimalPlaces (Text.trim value) ≤ places
  · obtain ⟨m, hm, hlimit⟩ := hvalue hcount
    obtain ⟨x, hread, hx⟩ := hv.exists_parseNumber?
    obtain ⟨b, hunits, hscaled⟩ := scaled_of_fits hplaces hx hm hlimit
    unfold divides
    dsimp only
    rw [hread]
    dsimp only
    rw [hscaled, Bool.and_eq_true, decide_eq_true_iff,
      remainder_eq_zero_iff b t hunits hexact hpos hsmall, exists_multiple_iff hm hn]
  · rw [divides_of_more_places (Nat.lt_of_not_le hcount)]
    exact iff_of_false Bool.false_ne_true fun h => hcount h.1

end Step

/-- A step that is a whole number of units, and a value that is one too unless it has more written
places: the value passes exactly if it is a multiple of the step, which is not zero, with no more
written places. -/
theorem Rule.check_step_iff {value param : String} {v s : ℚ}
    (hv : Text.Denotes (Text.trim value) v) (hs : Text.Denotes (Text.trim param) s)
    (hvalue : decimalPlaces (Text.trim value) ≤ decimalPlaces (Text.trim param) →
      Step.Fits (decimalPlaces (Text.trim param)) v)
    (hparam : Step.Fits (decimalPlaces (Text.trim param)) s) (more : List String) :
    Rule.step.check value (param :: more) = .ok true ↔
      s ≠ 0 ∧ decimalPlaces (Text.trim param) ≤ 308 ∧
        decimalPlaces (Text.trim value) ≤ decimalPlaces (Text.trim param) ∧
        ∃ k : ℤ, v = k * s := by
  obtain ⟨n, hn, hlimit⟩ := hparam
  obtain ⟨x, hread, hx⟩ := hs.exists_parseNumber?
  rw [check_step hread, Step.ofText?_eq]
  generalize decimalPlaces (Text.trim param) = places at *
  by_cases hplaces : places ≤ 308
  · obtain ⟨t, hexact, hscaled⟩ := Step.scaled_of_fits hplaces hx hn hlimit
    have hzero : (Binary64.finite t (n.natAbs * one) hexact).eq zero = true ↔ s = 0 := by
      rw [whole_eq_zero_iff, Int.natAbs_eq_zero, units_eq_zero_iff hn]
    rw [hscaled]
    by_cases hs0 : s = 0
    · rw [if_pos (hzero.2 hs0)]
      exact iff_of_false (by rintro ⟨⟩) fun h => h.1 hs0
    · have hpos : 0 < n.natAbs := Int.natAbs_pos.2 fun hn0 => hs0 ((units_eq_zero_iff hn).1 hn0)
      have hsmall : n.natAbs ≤ Nat.pow 2 53 :=
        (hlimit.le.trans (Step.limit_le places)).trans (by decide)
      have hdivides := Step.divides_iff hv hplaces hvalue hn hpos hexact hsmall t
      rw [if_neg (fun h => hs0 (hzero.1 h))]
      simp only [Except.ok.injEq, hdivides]
      exact ⟨fun h => ⟨hs0, hplaces, h⟩, fun h => h.2.2⟩
  · have hmany : 308 < places := Nat.lt_of_not_le hplaces
    rw [Step.scaled_ne_zero_of_many_places hmany, if_neg Bool.false_ne_true]
    dsimp only
    rw [Step.divides_of_many_places rfl hmany]
    exact iff_of_false (by rintro ⟨⟩) fun h => hplaces h.2.1

/-- A value in another radix, with blanks around it. -/
theorem Rule.check_step_hexadecimal :
    Text.Denotes (Text.trim " -0x0F ") (-15) ∧ Text.Denotes (Text.trim "0.5") (1 / 2) ∧
      Rule.step.check " -0x0F " ["0.5"] = .ok true := by
  have hv : Text.Denotes (Text.trim " -0x0F ") (-15) :=
    ⟨⟨[], some .minus, [], .marked .hexadecimal 'x' ['0', 'F'] false, [], .nil, .nil, by decide,
      .inl .nil⟩, by decide, by decide +kernel⟩
  obtain ⟨n, hchars, hcounted, hrational⟩ : ∃ n : NumberText,
      n.chars = (Text.trim "0.5").toList ∧ n.Counted ∧ n.rational = 1 / 2 :=
    ⟨⟨[], none, [], .decimal ['0'] (some ['5']) none, [], .nil, .nil, by decide, .inl .nil⟩,
      by decide, ⟨nofun, nofun, rfl, by rintro _ ⟨⟩; decide⟩, by decide +kernel⟩
  have hs : Text.Denotes (Text.trim "0.5") (1 / 2) := ⟨n, hchars, hrational⟩
  have hplaces : decimalPlaces (Text.trim "0.5") = 1 := by decide
  have hvalue : Step.Fits (decimalPlaces (Text.trim "0.5")) (-15) := by
    rw [hplaces]
    exact ⟨-150, by norm_num, by decide⟩
  have hparam : Step.Fits (decimalPlaces (Text.trim "0.5")) (1 / 2) := by
    rw [← hrational]
    refine Step.fits_of_counted hcounted hchars le_rfl ?_
    rw [hrational, hplaces]
    norm_num [Step.limit, abs_of_pos]
  have hmultiple : ∃ k : ℤ, (-15 : ℚ) = k * (1 / 2) := ⟨-30, by norm_num⟩
  refine ⟨hv, hs, (check_step_iff hv hs (fun _ => hvalue) hparam []).2
    ⟨by norm_num, ?_, by decide, hmultiple⟩⟩
  rw [hplaces]
  decide

/-- A value with an exponent passes although it is no multiple of the step. -/
theorem Rule.check_step_no_multiple :
    Text.Denotes "1e-3" (1 / 1000) ∧ Text.Denotes "1" 1 ∧
      Rule.step.check "1e-3" ["1"] = .ok true ∧ ¬ ∃ k : ℤ, (1 / 1000 : ℚ) = k * 1 := by
  refine ⟨?_, ?_, by decide +kernel, ?_⟩
  · exact ⟨⟨[], none, [], .decimal ['1'] none (some ⟨'e', some '-', ['3']⟩), [], .nil, .nil,
      by decide, .inl .nil⟩, by decide, by decide +kernel⟩
  · exact ⟨⟨[], none, [], .decimal ['1'] none none, [], .nil, .nil, by decide, .inl .nil⟩,
      by decide, by decide +kernel⟩
  · rintro ⟨k, hk⟩
    have hunits : (1 : ℚ) = 1000 * k := by linarith
    have hint : (1 : ℤ) = 1000 * k := by exact_mod_cast hunits
    omega

end IntervalRules
