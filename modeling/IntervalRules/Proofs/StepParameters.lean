import IntervalRules.Proofs.NumberText
import IntervalRules.Proofs.PlainText
import IntervalRules.Proofs.RoundingToZero
import IntervalRules.Proofs.StepUnits
import IntervalRules.Rule.Check

/-!
Which parameters can be used as a step. The test for zero is made on the whole number of units of
the step, so that a step is refused if its number is less than about half a unit at its written
places. That can be written with an exponent only, and with more than 308 places no step is
refused, not even zero. A parameter that has at least one unit or is zero is tested rightly up to
there.
-/

namespace IntervalRules

open Binary64

/-- A number that is read as zero. -/
theorem Binary64.ReadAs.eq_zero {x : Binary64} (h : x.ReadAs 0) : x.eq zero = true := by
  rcases h with ⟨s, num, den, hden, hratio, rfl⟩ | ⟨hlarge, -⟩
  · rw [zero_mul, div_eq_zero_iff] at hratio
    have hnum : num = 0 := by
      rcases hratio with h | h
      · exact_mod_cast h
      · exact absurd (by exact_mod_cast h) hden.ne'
    have hnearest : nearest num den = nearest 0 1 := by
      rw [nearest_of_onGrid zero_onGrid, nearest_eq_zero (by omega)]
    rw [ofUnits_of_nearest_eq s hnearest, ofUnits_of_onGrid s zero_onGrid, eq_zero_iff]
    exact ⟨s, zero_onGrid, rfl⟩
  · exact absurd hlarge (by norm_num)

namespace Step

/-- The step of a text, by its units. -/
theorem ofText?_eq (text : String) (x : Binary64) :
    ofText? text x =
      if (scaled (scaleOf (decimalPlaces text)) x).eq zero then none
      else some ⟨decimalPlaces text, scaleOf (decimalPlaces text),
        scaled (scaleOf (decimalPlaces text)) x⟩ := rfl

/-- Whether a number has no unit at so many places: there are at most 308, and times the power of
ten it is less than a half, by so much that the product is not rounded up to a half. -/
def Unitless (places : Nat) (x : Binary64) : Prop :=
  places ≤ 308 ∧ ∃ a b : ℚ, x.AtMost a ∧ (scaleOf places).AtMost b ∧ a * b < 1 / 2 - 1 / 2 ^ 55

theorem scaled_eq_zero_iff (places : Nat) (x : Binary64) :
    (scaled (scaleOf places) x).eq zero = true ↔ Unitless places x := by
  rw [scaled, mul_round_eq_zero_iff, Unitless, iff_and_self]
  intro hproduct
  refine Nat.le_of_not_lt fun hmany => ?_
  have hzero := (mul_round_eq_zero_iff x (scaleOf places)).2 hproduct
  rw [← scaled, scaled_ne_zero_of_many_places hmany] at hzero
  cases hzero

/-- The steps that cannot be used are those that have no unit. -/
theorem ofText?_eq_none_iff (text : String) (x : Binary64) :
    ofText? text x = none ↔ Unitless (decimalPlaces text) x := by
  rw [ofText?_eq, ite_eq_left_iff, ← scaled_eq_zero_iff, imp_iff_not_or]
  simp

variable {places : Nat} {x : Binary64} {q : ℚ}

/-- Well below a half of a unit there is none. -/
theorem unitless_of_small (hplaces : places ≤ 308) (hx : x.ReadAs q)
    (hsmall : q * 10 ^ places ≤ 2 / 5) : Unitless places x := by
  obtain ⟨t, hzero, hscaled⟩ := scaled_of_small hplaces hx hsmall
  exact (scaled_eq_zero_iff places x).1 ((eq_zero_iff _).2 ⟨t, hzero, hscaled⟩)

/-- Well above a half of a unit there is one. -/
theorem not_unitless_of_large (hx : x.ReadAs q) (hlarge : 3 / 5 ≤ q * 10 ^ places) :
    ¬ Unitless places x := by
  intro hunitless
  have hunits := (ne_zero_of_large hunitless.1 hx hlarge).2
  rw [(scaled_eq_zero_iff places x).2 hunitless] at hunits
  cases hunits

end Step

namespace Rule

theorem check_step {param : String} {x : Binary64} (hx : parseNumber? (Text.trim param) = some x)
    (value : String) (more : List String) :
    Rule.step.check value (param :: more) =
      match Step.ofText? (Text.trim param) x with
      | some unit => .ok (unit.divides value)
      | none => .error (.invalidParam .step (Text.trim param)) := by
  have hnumber : Rule.step.numberParam (param :: more) = .ok (Text.trim param, x) := by
    simp [numberParam, Rule.param, hx, bind, Except.bind, pure, Except.pure]
  have hunit : Rule.step.stepParam (param :: more) =
      match Step.ofText? (Text.trim param) x with
      | some unit => .ok unit
      | none => .error (.invalidParam .step (Text.trim param)) := by
    unfold stepParam
    rw [hnumber]
    rfl
  change Rule.step.stepParam (param :: more) >>= (fun unit => pure (unit.divides value)) = _
  rw [hunit]
  cases Step.ofText? (Text.trim param) x <;> rfl

/-- Less than about half a unit counts as zero. -/
theorem check_step_of_small {param : String} {s : ℚ} (hs : Text.Denotes (Text.trim param) s)
    (hplaces : decimalPlaces (Text.trim param) ≤ 308)
    (hsmall : |s| * 10 ^ decimalPlaces (Text.trim param) ≤ 2 / 5) (value : String)
    (more : List String) :
    Rule.step.check value (param :: more) = .error (.invalidParam .step (Text.trim param)) := by
  obtain ⟨x, hread, hx⟩ := hs.exists_parseNumber?
  have hunitless := Step.unitless_of_small hplaces hx hsmall
  rw [check_step hread, (Step.ofText?_eq_none_iff _ x).2 hunitless]

/-- More than that can be used, and so can whatever has more than 308 places. -/
theorem check_step_of_large {param : String} {s : ℚ} (hs : Text.Denotes (Text.trim param) s)
    (hlarge : 308 < decimalPlaces (Text.trim param) ∨
      3 / 5 ≤ |s| * 10 ^ decimalPlaces (Text.trim param)) (value : String) (more : List String) :
    ∃ b, Rule.step.check value (param :: more) = .ok b := by
  obtain ⟨x, hread, hx⟩ := hs.exists_parseNumber?
  have hunit : ¬ Step.Unitless (decimalPlaces (Text.trim param)) x := by
    rcases hlarge with hmany | hlarge
    · exact fun hunitless => absurd hunitless.1 (Nat.not_le_of_lt hmany)
    · exact Step.not_unitless_of_large hx hlarge
  obtain ⟨unit, hsome⟩ := Option.ne_none_iff_exists'.1 (mt (Step.ofText?_eq_none_iff _ x).1 hunit)
  rw [check_step hread, hsome]
  exact ⟨_, rfl⟩

theorem check_step_of_unread {param : String} (hread : parseNumber? (Text.trim param) = none)
    (value : String) (more : List String) :
    Rule.step.check value (param :: more) = .error (.invalidParam .step (Text.trim param)) := by
  have hparam : Rule.step.stepParam (param :: more) =
      .error (.invalidParam .step (Text.trim param)) := by
    simp only [stepParam, numberParam, Rule.param, List.getElem?_cons_zero, bind, Except.bind,
      hread, throw, throwThe, MonadExceptOf.throw]
  change Rule.step.stepParam (param :: more) >>= (fun unit => pure (unit.divides value)) = _
  rw [hparam]
  rfl

/-- What is zero or has at least about a unit is read as zero exactly if it is zero. -/
theorem eq_zero_iff_of_denotes {text : String} {s : ℚ} {x : Binary64} (hs : Text.Denotes text s)
    (hplaces : decimalPlaces text ≤ 308) (hunit : s = 0 ∨ 3 / 5 ≤ |s| * 10 ^ decimalPlaces text)
    (hread : parseNumber? text = some x) : x.eq zero = true ↔ s = 0 := by
  obtain ⟨y, hy, hx⟩ := hs.exists_parseNumber?
  obtain rfl : x = y := Option.some.inj (hread.symm.trans hy)
  by_cases hs0 : s = 0
  · subst hs0
    rw [abs_zero] at hx
    exact iff_of_true hx.eq_zero rfl
  · have hne := (Step.ne_zero_of_large hplaces hx (hunit.resolve_left hs0)).1
    exact iff_of_false (by rw [hne]; exact Bool.false_ne_true) hs0

/-- A parameter that is zero or has at least about a unit in at most 308 places: it is refused
exactly if it is no number or zero. -/
theorem check_step_refused {param : String}
    (hwritten : ∀ s, Text.Denotes (Text.trim param) s →
      decimalPlaces (Text.trim param) ≤ 308 ∧
        (s = 0 ∨ 3 / 5 ≤ |s| * 10 ^ decimalPlaces (Text.trim param)))
    (value : String) (more : List String) :
    (Rule.step.check value (param :: more) = .error (.invalidParam .step (Text.trim param)) ↔
      ∀ x, parseNumber? (Text.trim param) = some x → x.eq zero = true) ∧
    (∀ s, Text.Denotes (Text.trim param) s → s ≠ 0 →
      ∃ b, Rule.step.check value (param :: more) = .ok b) ∧
    (Text.Denotes (Text.trim param) 0 →
      Rule.step.check value (param :: more) = .error (.invalidParam .step (Text.trim param))) := by
  have hnonzero : ∀ s, Text.Denotes (Text.trim param) s → s ≠ 0 →
      ∃ b, Rule.step.check value (param :: more) = .ok b := by
    intro s hs hne
    exact check_step_of_large hs (.inr ((hwritten s hs).2.resolve_left hne)) value more
  have hzero (hs : Text.Denotes (Text.trim param) 0) :
      Rule.step.check value (param :: more) =
        .error (.invalidParam .step (Text.trim param)) := by
    refine check_step_of_small hs (hwritten 0 hs).1 ?_ value more
    rw [abs_zero, zero_mul]
    norm_num
  refine ⟨?_, hnonzero, hzero⟩
  cases hread : parseNumber? (Text.trim param) with
  | none => exact iff_of_true (check_step_of_unread hread value more) (fun _ => nofun)
  | some x =>
    obtain ⟨s, hs⟩ := (exists_denotes_iff _).2 (by rw [hread]; rfl)
    have hiff : x.eq zero = true ↔ s = 0 :=
      eq_zero_iff_of_denotes hs (hwritten s hs).1 (hwritten s hs).2 hread
    by_cases hs0 : s = 0
    · subst hs0
      refine iff_of_true (hzero hs) ?_
      rintro _ ⟨⟩
      exact hiff.2 rfl
    · obtain ⟨b, hb⟩ := hnonzero s hs hs0
      refine iff_of_false ?_ fun h => hs0 (hiff.1 (h x rfl))
      rw [hb]
      rintro ⟨⟩

/-- An exponent does no harm as long as there is a unit. -/
theorem check_step_of_exponent :
    (∀ s, Text.Denotes (Text.trim " 2.5e-1 ") s →
      decimalPlaces (Text.trim " 2.5e-1 ") ≤ 308 ∧
        (s = 0 ∨ 3 / 5 ≤ |s| * 10 ^ decimalPlaces (Text.trim " 2.5e-1 "))) ∧
      ∃ b, Rule.step.check "x" [" 2.5e-1 "] = .ok b := by
  have huntrimmed : Text.Denotes " 2.5e-1 " (1 / 4) :=
    ⟨⟨[' '], none, [], .decimal ['2'] (some ['5']) (some ⟨'e', some '-', ['1']⟩), [' '],
      .blank (by decide) .nil, .nil, by decide, .inl (.blank (by decide) .nil)⟩, by decide,
      by decide +kernel⟩
  have hdenotes := huntrimmed.trim
  have hplaces : decimalPlaces (Text.trim " 2.5e-1 ") = 1 := by decide
  have hwritten : ∀ s, Text.Denotes (Text.trim " 2.5e-1 ") s →
      decimalPlaces (Text.trim " 2.5e-1 ") ≤ 308 ∧
        (s = 0 ∨ 3 / 5 ≤ |s| * 10 ^ decimalPlaces (Text.trim " 2.5e-1 ")) := by
    intro s hs
    obtain rfl := hs.unique hdenotes
    rw [hplaces]
    exact ⟨by decide, .inr (by norm_num [abs_of_pos])⟩
  exact ⟨hwritten, (check_step_refused hwritten "x" []).2.1 (1 / 4) hdenotes (by norm_num)⟩

/-- A zero with so many zeros after its point. -/
def zeros (places : Nat) : String := String.ofList ('0' :: '.' :: List.replicate places '0')

theorem trim_zeros (places : Nat) : Text.trim (zeros places) = zeros places := by
  have hlast : ∀ c ∈ ('0' :: '.' :: List.replicate places '0').getLast?,
      Text.isBlank c = false := by
    intro c hc
    rcases List.mem_cons.1 (List.mem_of_getLast? hc) with rfl | hc
    · decide
    · rcases List.mem_cons.1 hc with rfl | hc
      · decide
      · rw [List.eq_of_mem_replicate hc]
        decide
  have hfront : ('0' :: '.' :: List.replicate places '0').dropWhile Text.isBlank =
      '0' :: '.' :: List.replicate places '0' := List.dropWhile_cons_of_neg (by decide)
  rw [Text.trim, zeros, String.toList_ofList, Text.trimChars, hfront, Text.dropEnd_eq_self hlast]

theorem decimalPlaces_zeros (places : Nat) : decimalPlaces (zeros places) = places := by
  have hdigits : (List.replicate places '0').takeWhile (Text.isDigit 10) =
      List.replicate places '0' :=
    List.takeWhile_eq_self_iff.2 fun _ hc => Layout.isDigit_of_mem_zeros hc
  rw [decimalPlaces, zeros, String.toList_ofList]
  change ((List.replicate places '0').takeWhile (Text.isDigit 10)).length = places
  rw [hdigits, List.length_replicate]

theorem denotes_zeros {places : Nat} (h : places ≠ 0) : Text.Denotes (zeros places) 0 := by
  have hdigits : Literal.DigitRun 10 (List.replicate places '0') :=
    Literal.digitRun_of_digits (by simpa using h) fun _ hc => Layout.isDigit_of_mem_zeros hc
  refine ⟨⟨[], none, [], .decimal ['0'] (some (List.replicate places '0')) none, [], .nil, .nil,
    ⟨.inl (.inl rfl), ?_, nofun⟩, .inl .nil⟩, ?_, ?_⟩
  · rintro _ ⟨⟩
    exact .inr hdigits
  · simp [NumberText.chars, zeros, Grammar.signChars, Literal.Form.chars,
      Literal.Form.fractionChars, Literal.Form.exponentChars]
  · have hnat : Text.natOf 10 (['0'] ++ List.replicate places '0') = 0 := by
      rw [← List.replicate_one, List.replicate_append_replicate]
      exact Text.natOf_zeros _
    change (Text.natOf 10 (['0'] ++ List.replicate places '0') : ℚ) * _ = 0
    rw [hnat, Nat.cast_zero, zero_mul]

/-- A zero is let through if it is written with enough places. -/
theorem check_step_of_zeros {places : Nat} (h : 308 < places) (value : String)
    (more : List String) : ∃ b, Rule.step.check value (zeros places :: more) = .ok b := by
  have hdenotes : Text.Denotes (Text.trim (zeros places)) 0 := by
    rw [trim_zeros]
    exact denotes_zeros (by omega)
  refine check_step_of_large hdenotes (.inl ?_) value more
  rwa [trim_zeros, decimalPlaces_zeros]

/-- A thousandth written with an exponent is refused although it is not zero, and a zero with 309
places is not refused. -/
theorem check_step_misjudged :
    (Text.Denotes "1e-3" (1 / 1000) ∧ (parseNumber? "1e-3").any (fun x => x.eq zero) = false ∧
      Rule.step.check "x" ["1e-3"] = .error (.invalidParam .step "1e-3")) ∧
    Text.Denotes (zeros 309) 0 ∧ ∃ b, Rule.step.check "x" [zeros 309] = .ok b := by
  have hthousandth : Text.Denotes "1e-3" (1 / 1000) :=
    ⟨⟨[], none, [], .decimal ['1'] none (some ⟨'e', some '-', ['3']⟩), [], .nil, .nil,
      by decide, .inl .nil⟩, by decide, by decide +kernel⟩
  exact ⟨⟨hthousandth, by decide +kernel, by decide +kernel⟩, denotes_zeros (by decide),
    check_step_of_zeros (by decide) "x" []⟩

end Rule

end IntervalRules
