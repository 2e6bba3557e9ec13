import IntervalRules.Binary64.Decimal

/-!
The shortest decimal that reads back as a given magnitude, and of several the nearest.
For one digit, two digits and so on, the value's two neighbours with that many digits
are tried; the first count at which one of them reads back wins.
-/

namespace IntervalRules

/-- Which of two equally near neighbours is taken. -/
inductive Tie where
  | up
  | even

namespace Decimal

/-- Whether the decimal is read as the magnitude. -/
def ReadsAs (d : Decimal) (units : Nat) : Prop := d.toBinary64.magnitude = units

instance (d : Decimal) (units : Nat) : Decidable (d.ReadsAs units) :=
  inferInstanceAs (Decidable (_ = _))

/-- The exponent of ten of the first digit of a positive magnitude. Every magnitude is at
least `10 ^ -324`, so that many places show its first digit. -/
def leadingExponent (units : Nat) : Int :=
  ((Nat.toDigits 10 (units * Nat.pow 10 324 / Binary64.one)).length : Int) - 325

/-- The neighbour at the exponent that reads back, if there is one; of two the nearer. -/
def neighbour? (tie : Tie) (units : Nat) (exponent : Int) : Option Decimal :=
  let num := units * Nat.pow 10 (-exponent).toNat
  let den := Binary64.one * Nat.pow 10 exponent.toNat
  let below : Decimal := ⟨num / den, exponent⟩
  let above : Decimal := ⟨num / den + 1, exponent⟩
  let twice := 2 * (num % den)
  let preferBelow := twice < den ||
    (twice == den && match tie with
      | .up => false
      | .even => below.digits % 2 == 0)
  let (first, second) := if preferBelow then (below, above) else (above, below)
  if first.ReadsAs units then some first
  else if second.ReadsAs units then some second
  else none

/-- All digits of the magnitude. -/
def exact (units : Nat) : Decimal := ⟨units * Nat.pow 5 1074, -1074⟩

/-- The fewest digits that read back. Seventeen are always enough; the full expansion
stands behind them so that the result needs no other reason to read back. -/
def shortest (tie : Tie) (units : Nat) : Decimal :=
  ((List.range 17).findSome? fun (extra : Nat) =>
    neighbour? tie units (leadingExponent units - extra)).getD (exact units)

/-- The same number without zeros at the end of the coefficient. -/
def stripZeros (d : Decimal) : Decimal :=
  if d.digits = 0 ∨ d.digits % 10 ≠ 0 then d
  else stripZeros ⟨d.digits / 10, d.exponent + 1⟩
termination_by d.digits

end Decimal

end IntervalRules
