import IntervalRules.Proofs.RangeRules
import IntervalRules.Proofs.WrittenClauses

/-!
The rules with one bound against the rules with a range. A rule with a bound compares the number or
the length of a value with its parameter; the range is the half line of this parameter, which is
closed exactly if the second parameter asks for the bound itself to pass.
-/

namespace IntervalRules

/-- A text that is read as a number is read as the same number when it is trimmed. -/
theorem parseNumber?_trim {text : String} {x : Binary64} (h : parseNumber? text = some x) :
    parseNumber? (Text.trim text) = some x := by
  obtain ⟨hnan, b, hvalue, hkinds⟩ := (parseNumber?_eq_some_iff text x).1 h
  refine (parseNumber?_eq_some_iff _ x).2 ⟨hnan, b, hvalue, ?_⟩
  rw [Text.trim, String.toList_ofList, Token.kinds_trimChars (Token.none_not_mem_kinds hkinds),
    hkinds]

namespace Binary64

/-- A finite number lies between the infinities. -/
theorem lt_infinity_of_finite {x : Binary64} (hnan : x.isNaN = false)
    (hfinite : ∀ negative, x ≠ .infinite negative) :
    negInfinity.lt x = true ∧ x.lt posInfinity = true := by
  cases x with
  | nan => cases hnan
  | infinite negative => exact absurd rfl (hfinite negative)
  | finite negative units hgrid =>
    have hunits : units < overflow := hgrid.1
    cases negative <;>
      simp [lt, compares, position, magnitude, isNegative, negInfinity, posInfinity] <;> omega

theorem isNaN_ofNat (n : Nat) : (ofNat n).isNaN = false := by
  unfold ofNat ofUnits
  split <;> rfl

end Binary64

namespace Interval

variable {x v : Binary64}

theorem contains_atLeast (hx : x ≠ .negInfinity) (hv : v.isNaN = false) (inclusive : Bool) :
    contains ⟨x, inclusive, .posInfinity, false⟩ v = if inclusive then x.le v else x.lt v := by
  rw [contains_of_not_isNaN _ _ hv]
  simp [admitsBelow, admitsAbove, isLowerUnbounded, isUpperUnbounded, hx]

theorem contains_atMost (hx : x ≠ .posInfinity) (hv : v.isNaN = false) (inclusive : Bool) :
    contains ⟨.negInfinity, false, x, inclusive⟩ v = if inclusive then v.le x else v.lt x := by
  rw [contains_of_not_isNaN _ _ hv]
  simp [admitsBelow, admitsAbove, isLowerUnbounded, isUpperUnbounded, hx]

end Interval

/-! ## Half lines -/

/-- The numbers from a bound on, written around the text of the bound. -/
def atLeastText (inclusive : Bool) (bound : String) : String :=
  (if inclusive then "[" else "(") ++ bound ++ "\n,)"

/-- The numbers up to a bound. -/
def atMostText (inclusive : Bool) (bound : String) : String :=
  "(," ++ bound ++ "\n" ++ (if inclusive then "]" else ")")

namespace Grammar

variable {p : String} {x : Binary64}

theorem parse_atLeastText (hp : parseNumber? p = some x) (hx : x.lt .posInfinity = true)
    (inclusive : Bool) :
    Expression.parse (atLeastText inclusive p) = .ok ⟨[⟨x, inclusive, .posInfinity, false⟩]⟩ := by
  have hbound : IsBoundText .negInfinity p x := .inl hp
  have hempty : Token.IsSide none "".toList := Token.isSide_nil
  obtain ⟨b, hb, rfl⟩ := hbound.exists_isSide
  have htext : clauseText inclusive (p ++ "\n") "" false = atLeastText inclusive p := by
    rw [clauseText, atLeastText, ← String.toList_inj]
    simp
  have hparse := parse_clauseText (c := ⟨inclusive, b, none, false⟩) hb hempty
  rw [← htext]
  exact hparse.trans (if_pos hx)

theorem parse_atMostText (hp : parseNumber? p = some x) (hx : Binary64.negInfinity.lt x = true)
    (inclusive : Bool) :
    Expression.parse (atMostText inclusive p) = .ok ⟨[⟨.negInfinity, false, x, inclusive⟩]⟩ := by
  have hbound : IsBoundText .posInfinity p x := .inl hp
  have hempty : Token.IsSide none "".toList := Token.isSide_nil
  obtain ⟨b, hb, rfl⟩ := hbound.exists_isSide
  have htext : clauseText false "" (p ++ "\n") inclusive = atMostText inclusive p := by
    rw [clauseText, atMostText, ← String.toList_inj]
    simp
  have hparse := parse_clauseText (c := ⟨false, none, b, inclusive⟩) hempty hb
  rw [← htext]
  exact hparse.trans (if_pos hx)

end Grammar

/-! ## Rules with a bound -/

namespace Rule

/-- The rule with a lower bound on the number of a value, or else on its length. -/
def lowest (length : Bool) : Rule := if length then .minLength else .min

/-- The rule with an upper bound. -/
def highest (length : Bool) : Rule := if length then .maxLength else .max

/-- What a rule compares with its bound: the length of a value, or the number that it holds. -/
def measured (length : Bool) (value : String) : Option Binary64 :=
  if length then some (lengthOf value) else parseNumber? value

theorem isNaN_of_measured {length : Bool} {value : String} {v : Binary64}
    (h : measured length value = some v) : v.isNaN = false := by
  cases length with
  | true =>
    cases h
    exact Binary64.isNaN_ofNat value.length
  | false => exact ((parseNumber?_eq_some_iff value v).1 h).1

variable {p : String} {x : Binary64}

/-- The bound is the parameter as it stands: trimming it first changes nothing. -/
theorem numberParam_bind (hp : parseNumber? p = some x) (rule : Rule) (more : List String)
    (test : Binary64 → Bool) :
    (rule.numberParam (p :: more) >>= fun r => pure (test r.2)) = .ok (test x) := by
  simp only [numberParam, param, List.getElem?_cons_zero, bind, Except.bind,
    parseNumber?_trim hp, pure, Except.pure]

theorem check_lowest (hp : parseNumber? p = some x) (length : Bool) (value : String)
    (more : List String) :
    (lowest length).check value (p :: more) =
      .ok ((measured length value).any (isAbove (p :: more) x)) := by
  cases length with
  | true =>
    exact numberParam_bind hp minLength more fun bound =>
      isAbove (p :: more) bound (lengthOf value)
  | false =>
    exact numberParam_bind hp min more fun bound =>
      (parseNumber? value).any (isAbove (p :: more) bound)

theorem check_highest (hp : parseNumber? p = some x) (length : Bool) (value : String)
    (more : List String) :
    (highest length).check value (p :: more) =
      .ok ((measured length value).any (isBelow (p :: more) x)) := by
  cases length with
  | true =>
    exact numberParam_bind hp maxLength more fun bound =>
      isBelow (p :: more) bound (lengthOf value)
  | false =>
    exact numberParam_bind hp max more fun bound =>
      (parseNumber? value).any (isBelow (p :: more) bound)

/-- A rule with a range passes the values that pass a test, if the test is membership for every
number that is not NaN. -/
theorem check_ranged_eq {param : String} {e : Expression} (h : Expression.parse param = .ok e)
    {test : Binary64 → Bool} (htest : ∀ v, v.isNaN = false → e.contains v = test v)
    (length : Bool) (value : String) :
    (ranged length).check value [param] = .ok ((measured length value).any test) := by
  have hchecked : (Command.checkValue e length value).passed =
      (measured length value).any e.contains := rfl
  rw [check_ranged h, hchecked]
  cases hmeasured : measured length value with
  | none => rfl
  | some v => rw [Option.any_some, Option.any_some, htest v (isNaN_of_measured hmeasured)]

theorem isInclusive_iff (more : List String) :
    isInclusive (p :: more) = true ↔
      ∃ flag, more.head? = some flag ∧ Text.trim flag ≠ "" ∧ Text.trim flag ≠ "false" := by
  rw [isInclusive, List.getElem?_cons_succ, ← List.head?_eq_getElem?]
  simp [Option.any_eq_true]

/-- A lower bound is a half line, for numbers and for lengths. -/
theorem lowest_eq_ranged (hp : parseNumber? p = some x)
    (hfinite : ∀ negative, x ≠ .infinite negative) (length : Bool) (value : String)
    (more : List String) :
    ∃ passed, (lowest length).check value (p :: more) = .ok passed ∧
      (ranged length).check value [atLeastText (isInclusive (p :: more)) p] = .ok passed := by
  obtain ⟨hnan, -⟩ := (parseNumber?_eq_some_iff p x).1 hp
  have hparse := Grammar.parse_atLeastText hp (Binary64.lt_infinity_of_finite hnan hfinite).2
    (isInclusive (p :: more))
  refine ⟨_, check_lowest hp length value more, check_ranged_eq hparse (fun v hv => ?_) length _⟩
  rw [Expression.contains_singleton, Interval.contains_atLeast (hfinite true) hv, isAbove]

theorem highest_eq_ranged (hp : parseNumber? p = some x)
    (hfinite : ∀ negative, x ≠ .infinite negative) (length : Bool) (value : String)
    (more : List String) :
    ∃ passed, (highest length).check value (p :: more) = .ok passed ∧
      (ranged length).check value [atMostText (isInclusive (p :: more)) p] = .ok passed := by
  obtain ⟨hnan, -⟩ := (parseNumber?_eq_some_iff p x).1 hp
  have hparse := Grammar.parse_atMostText hp (Binary64.lt_infinity_of_finite hnan hfinite).1
    (isInclusive (p :: more))
  refine ⟨_, check_highest hp length value more, check_ranged_eq hparse (fun v hv => ?_) length _⟩
  rw [Expression.contains_singleton, Interval.contains_atMost (hfinite false) hv, isBelow]

/-- A rule with a finite bound agrees with the rule that has the half line for its range: it is
no error, and the same values pass. The half line is closed exactly if there is a second parameter
that is neither blank nor `false`. -/
theorem bound_rules_eq_range_rules (hp : parseNumber? p = some x)
    (hfinite : ∀ negative, x ≠ .infinite negative) (value : String) (more : List String)
    (inclusive : Bool)
    (hinclusive : inclusive = true ↔
      ∃ flag, more.head? = some flag ∧ Text.trim flag ≠ "" ∧ Text.trim flag ≠ "false") :
    (∃ passed, min.check value (p :: more) = .ok passed ∧
      range.check value [atLeastText inclusive p] = .ok passed) ∧
    (∃ passed, max.check value (p :: more) = .ok passed ∧
      range.check value [atMostText inclusive p] = .ok passed) ∧
    (∃ passed, minLength.check value (p :: more) = .ok passed ∧
      rangeLength.check value [atLeastText inclusive p] = .ok passed) ∧
    (∃ passed, maxLength.check value (p :: more) = .ok passed ∧
      rangeLength.check value [atMostText inclusive p] = .ok passed) := by
  obtain rfl : inclusive = isInclusive (p :: more) :=
    Bool.eq_iff_iff.2 (hinclusive.trans (isInclusive_iff more).symm)
  exact ⟨lowest_eq_ranged hp hfinite false value more,
    highest_eq_ranged hp hfinite false value more,
    lowest_eq_ranged hp hfinite true value more,
    highest_eq_ranged hp hfinite true value more⟩

/-- A bound with a comment after it, and a value that is the bound itself. -/
theorem bound_rules_eq_range_rules_closed :
    (min.check "-5" ["- 5 // five", " true"]).toOption = some true ∧
      (range.check "-5" ["[- 5 // five\n,)"]).toOption = some true := by
  have hp : parseNumber? "- 5 // five" = some (-.ofNat 5) := by
    decide +kernel
  have hfinite : ∀ negative, -Binary64.ofNat 5 ≠ .infinite negative := by
    decide +kernel
  have hpassed : (min.check "-5" ["- 5 // five", " true"]).toOption = some true := by
    decide +kernel
  obtain ⟨⟨passed, hmin, hrange⟩, -⟩ := bound_rules_eq_range_rules hp hfinite "-5" [" true"] true
    ⟨fun _ => ⟨" true", rfl, by decide, by decide⟩, fun _ => rfl⟩
  refine ⟨hpassed, ?_⟩
  rw [hmin] at hpassed
  exact (congrArg Except.toOption hrange).trans hpassed

end Rule

end IntervalRules
