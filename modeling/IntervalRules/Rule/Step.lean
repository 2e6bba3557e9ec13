import IntervalRules.Expression.Parse
import IntervalRules.Text.Blank

/-!
Multiples of a step. Step and value are scaled by a power of ten, one factor for each
written decimal place of the step, and rounded to whole numbers; a value with more
written places than the step is no multiple. A step that rounds to zero is unusable.

The power of ten is taken at the number of places itself. An exponent kept in 32 bits would wrap
around from `2 ^ 31` written places on, a parameter of two gigabytes; this is left out.
-/

namespace IntervalRules

/-- The number of digits directly after the first point of a text. -/
def decimalPlaces (text : String) : Nat :=
  ((text.toList.dropWhile (· != '.')).drop 1 |>.takeWhile (Text.isDigit 10)).length

/-- A step that has a whole number of units at its scale. -/
structure Step where
  places : Nat
  scale : Binary64
  units : Binary64

namespace Step

/-- The whole number of units nearest to a number at a scale. -/
def scaled (scale x : Binary64) : Binary64 := (x * scale).round

/-- The step of a text that is read as a number; none if it rounds to zero. The exponent is the
number of places, without a bound. -/
def ofText? (text : String) (number : Binary64) : Option Step :=
  let places := decimalPlaces text
  let scale := (Binary64.ofNat 10).pow places
  let units := scaled scale number
  if units.eq Binary64.zero then none else some ⟨places, scale, units⟩

/-- Whether a value is a number that leaves nothing over. Blanks around it do not count. -/
def divides (step : Step) (value : String) : Bool :=
  let text := Text.trim value
  match parseNumber? text with
  | none => false
  | some x =>
    decimalPlaces text ≤ step.places &&
      ((scaled step.scale x).remainder step.units).eq Binary64.zero

end Step

example : (Step.ofText? "0.5" (Decimal.toBinary64 ⟨5, -1⟩)).any (·.divides "1.50 ") = false := by
  decide +kernel

example : (Step.ofText? "0.5" (Decimal.toBinary64 ⟨5, -1⟩)).any (·.divides "1.5 ") := by
  decide +kernel

end IntervalRules
