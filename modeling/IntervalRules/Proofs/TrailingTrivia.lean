import IntervalRules.Proofs.BoundRules
import IntervalRules.Proofs.CountedPlaces
import IntervalRules.Proofs.StepParameters

/-!
Trivia after the number of a value. The number is read all the same, and so are the rules that
compare it. The rule of steps counts the written places besides, and in a whole number it takes the
digits after the first point of the trivia for them.
-/

namespace IntervalRules

open Token (EndTrivia)

/-- The text is a number with an optional sign, and has nothing after it. -/
def Text.EndsInNumber (text : String) : Prop :=
  ∃ n : NumberText, n.tail = [] ∧ n.chars = text.toList

variable {value trivia : String}

/-- What follows the number does not matter. -/
theorem Text.EndsInNumber.exists_parseNumber? (hvalue : Text.EndsInNumber value)
    (htrivia : EndTrivia trivia.toList) :
    ∃ x, parseNumber? value = some x ∧ parseNumber? (value ++ trivia) = some x := by
  obtain ⟨n, htail, hchars⟩ := hvalue
  obtain ⟨x, hx⟩ := Option.isSome_iff_exists.1 (Literal.Form.literal?_isSome n.wellFormed)
  let longer : NumberText := { n with tail := trivia.toList, endTrivia_tail := htrivia }
  have hlonger : longer.chars = (value ++ trivia).toList := by
    rw [String.toList_append, ← hchars]
    simp [longer, NumberText.chars, htail]
  exact ⟨_, (n.parseNumber?_eq hchars hx).1, (longer.parseNumber?_eq hlonger hx).1⟩

/-- No digit stands at the front of trivia. -/
theorem Token.EndTrivia.not_isDigit {cs : List Char} (h : EndTrivia cs) :
    ∀ c ∈ cs.head?, Text.isDigit 10 c = false := by
  intro c hc
  rw [Bool.eq_false_iff]
  intro hdigit
  exact h.endsBefore [] c hc (.inr (.inl ⟨hdigit, nofun, nofun⟩))

/-- The places of a value with a point are its own. -/
theorem decimalPlaces_append_trivia (htrivia : EndTrivia trivia.toList) :
    decimalPlaces (value ++ trivia) =
      if '.' ∈ value.toList then decimalPlaces value else decimalPlaces trivia := by
  split
  · rename_i hpoint
    exact decimalPlaces_append_of_mem hpoint htrivia.not_isDigit
  · rename_i hpoint
    exact decimalPlaces_append_of_not_mem hpoint trivia

namespace Step

theorem places_of_ofText? {text : String} {x : Binary64} {unit : Step}
    (h : ofText? text x = some unit) : unit.places = decimalPlaces text := by
  rw [ofText?_eq] at h
  split at h
  · cases h
  · cases h
    rfl

/-- A step divides a value by its number and its count of places. -/
theorem divides_of_parse {x : Binary64} (h : parseNumber? value = some x) (unit : Step) :
    unit.divides value = (decide (decimalPlaces value ≤ unit.places) &&
      ((scaled unit.scale x).remainder unit.units).eq Binary64.zero) := by
  rw [divides, parseNumber?_trim h, decimalPlaces_trim]

theorem divides_append_trivia (hvalue : Text.EndsInNumber value)
    (htrivia : EndTrivia trivia.toList) (unit : Step) :
    unit.divides (value ++ trivia) = unit.divides value ↔
      (unit.divides value = true → '.' ∉ value.toList → decimalPlaces trivia ≤ unit.places) := by
  obtain ⟨x, hx, hlonger⟩ := hvalue.exists_parseNumber? htrivia
  rw [divides_of_parse hx, divides_of_parse hlonger, decimalPlaces_append_trivia htrivia]
  -- without a point a value has no places, so that it passes by its number alone
  by_cases hpoint : '.' ∈ value.toList
  · rw [if_pos hpoint]
    exact iff_of_true rfl fun _ hno => absurd hpoint hno
  · rw [if_neg hpoint, decimalPlaces_eq_zero hpoint]
    cases ((scaled unit.scale x).remainder unit.units).eq Binary64.zero <;> simp [hpoint]

end Step

namespace Rule

theorem check_step_nil (value : String) :
    Rule.step.check value [] = .error (.missingParam .step 0) := rfl

/-- The rules that compare the number of a value take it with trivia as without. The rule of steps
does not take it where a value that passes has no point, but the trivia have one with more digits
after it than the step has places. -/
theorem check_append_trivia (hvalue : Text.EndsInNumber value)
    (htrivia : EndTrivia trivia.toList) (params : List String) :
    (∀ rule ∈ [Rule.min, .max, .range],
      rule.check (value ++ trivia) params = rule.check value params) ∧
    (Rule.step.check (value ++ trivia) params = Rule.step.check value params ↔
      (Rule.step.check value params = .ok true → '.' ∉ value.toList →
        ∀ param ∈ params.head?, decimalPlaces trivia ≤ decimalPlaces (Text.trim param))) := by
  constructor
  · obtain ⟨x, hx, hlonger⟩ := hvalue.exists_parseNumber? htrivia
    simp only [List.forall_mem_cons, check, hx, hlonger]
    simp
  · cases params with
    | nil =>
      rw [check_step_nil, check_step_nil]
      simp
    | cons param more =>
      cases hparam : parseNumber? (Text.trim param) with
      | none => simp [check_step_of_unread hparam]
      | some y =>
        rw [check_step hparam, check_step hparam]
        cases hunit : Step.ofText? (Text.trim param) y with
        | none => simp
        | some unit =>
          have hdivides := Step.divides_append_trivia hvalue htrivia unit
          rw [Step.places_of_ofText? hunit] at hdivides
          simp only [Except.ok.injEq, List.head?_cons, Option.mem_some_iff, forall_eq']
          exact hdivides

/-- Two comments after a fraction, the second of them up to the end. -/
theorem check_append_trivia_comments :
    Text.EndsInNumber "2.50" ∧ EndTrivia " /* 0.125 */\n// .5".toList ∧
      (∀ rule ∈ [Rule.min, .max, .range],
        rule.check ("2.50" ++ " /* 0.125 */\n// .5") ["0.05"] = rule.check "2.50" ["0.05"]) ∧
      Rule.step.check ("2.50" ++ " /* 0.125 */\n// .5") ["0.05"] =
        Rule.step.check "2.50" ["0.05"] := by
  have hvalue : Text.EndsInNumber "2.50" :=
    ⟨⟨[], none, [], .decimal ['2'] (some ['5', '0']) none, [], .nil, .nil, by decide, .inl .nil⟩,
      rfl, by decide⟩
  have hblock : Token.InBlock " 0.125 ".toList := by
    unfold Token.InBlock
    decide
  have hline : Token.InLine [' ', '.', '5'] := by
    simp only [Token.InLine, List.forall_mem_cons]
    exact ⟨by decide, by decide, by decide, nofun⟩
  have htrivia : EndTrivia " /* 0.125 */\n// .5".toList :=
    .inr ⟨" /* 0.125 */\n".toList, [' ', '.', '5'],
      .blank (by decide) (@Token.Trivia.block " 0.125 ".toList _ hblock (.blank (by decide) .nil)),
      hline, by decide⟩
  obtain ⟨hcompared, hstep⟩ := check_append_trivia hvalue htrivia ["0.05"]
  exact ⟨hvalue, htrivia, hcompared, hstep.2 fun _ hpoint => absurd (by decide) hpoint⟩

/-- A point in a comment makes a whole number one of more places than the step. -/
theorem check_step_of_comment :
    Text.EndsInNumber "2" ∧ EndTrivia "/*.5*/".toList ∧
      Rule.step.check "2" ["1"] = .ok true ∧
        Rule.step.check ("2" ++ "/*.5*/") ["1"] = .ok false := by
  have hblock : Token.InBlock ".5".toList := by
    unfold Token.InBlock
    decide
  refine ⟨⟨⟨[], none, [], .decimal ['2'] none none, [], .nil, .nil, by decide, .inl .nil⟩, rfl,
    by decide⟩, .inl (@Token.Trivia.block ".5".toList _ hblock .nil), by decide +kernel,
    by decide +kernel⟩

end Rule

end IntervalRules
