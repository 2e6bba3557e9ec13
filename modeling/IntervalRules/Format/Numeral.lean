import IntervalRules.Text.Digits

/-!
Decimal numerals as people write them: an optional minus, digits that may be in groups of
three with commas, and an optional fraction. The integer part may be missing, and then
the minus is missing too; so the empty text is a numeral.
-/

namespace IntervalRules.Format

/-- Nothing, or a point and digits. -/
def isFraction : List Char → Bool
  | [] => true
  | '.' :: digits => digits != [] && digits.all (Text.isDigit 10)
  | _ => false

/-- One or more groups of three digits, each after a comma, and the fraction. -/
def isGrouped : List Char → Bool
  | ',' :: a :: b :: c :: rest =>
    Text.isDigit 10 a && Text.isDigit 10 b && Text.isDigit 10 c &&
      (isFraction rest || isGrouped rest)
  | _ => false

def isNumeral (cs : List Char) : Bool :=
  let negative := cs.head? == some '-'
  let unsigned := if negative then cs.tail else cs
  let digits := unsigned.takeWhile (Text.isDigit 10)
  let rest := unsigned.dropWhile (Text.isDigit 10)
  if digits = [] then !negative && isFraction rest
  else isFraction rest || (digits.length ≤ 3 && isGrouped rest)

/-- One or more digits. -/
def isDigits (cs : List Char) : Bool := cs != [] && cs.all (Text.isDigit 10)

example : isNumeral "1,234.5".toList ∧ isNumeral [] ∧ ¬ isNumeral "1,23".toList := by decide

end IntervalRules.Format
