import IntervalRules.Binary64.Layout

/-!
Intervals of binary64 numbers. A bound may be excluded or infinite; an infinite bound on
its own side is no bound at all and is left out of the interval's text.
-/

namespace IntervalRules

structure Interval where
  lower : Binary64
  lowerInclusive : Bool
  upper : Binary64
  upperInclusive : Bool
  deriving DecidableEq

namespace Interval

def isLowerUnbounded (i : Interval) : Bool := i.lower = .negInfinity

def isUpperUnbounded (i : Interval) : Bool := i.upper = .posInfinity

/-- Whether a number is not too small. -/
def admitsBelow (i : Interval) (x : Binary64) : Bool :=
  i.isLowerUnbounded || if i.lowerInclusive then i.lower.le x else i.lower.lt x

/-- Whether a number is not too large. -/
def admitsAbove (i : Interval) (x : Binary64) : Bool :=
  i.isUpperUnbounded || if i.upperInclusive then x.le i.upper else x.lt i.upper

/-- Membership; NaN is in no interval. -/
def contains (i : Interval) (x : Binary64) : Bool :=
  !x.isNaN && i.admitsBelow x && i.admitsAbove x

def text (i : Interval) : String :=
  (if i.lowerInclusive then "[" else "(") ++
    (if i.isLowerUnbounded then "" else i.lower.text) ++ ", " ++
    (if i.isUpperUnbounded then "" else i.upper.text) ++
    (if i.upperInclusive then "]" else ")")

/-- The condition on a number `x` that an interval states. -/
def description (i : Interval) : String :=
  let lower :=
    if i.isLowerUnbounded then ""
    else i.lower.text ++ (if i.lowerInclusive then " <= " else " < ")
  let upper :=
    if i.isUpperUnbounded then ""
    else (if i.upperInclusive then " <= " else " < ") ++ i.upper.text
  if i.isLowerUnbounded && i.isUpperUnbounded then "any number" else lower ++ "x" ++ upper

/-- Equality that takes the bounds as numbers, so that the two zeros agree. -/
def agrees (i j : Interval) : Bool :=
  i.lower.eq j.lower && i.lowerInclusive == j.lowerInclusive &&
    i.upper.eq j.upper && i.upperInclusive == j.upperInclusive

end Interval

end IntervalRules
