import IntervalRules.Binary64.Arithmetic
import IntervalRules.Text.Digits

/-!
Decimal numbers and the binary64 numbers they are read as: the nearest one, a tie going
to the even significand. A run of digits in another radix is folded digit by digit
instead, with a rounding at each step.
-/

namespace IntervalRules

/-- The nonnegative number `digits * 10 ^ exponent`. -/
structure Decimal where
  digits : Nat
  exponent : Int

namespace Decimal

/-- A bound on how many decimal digits the coefficient has. -/
def width (d : Decimal) : Nat := d.digits.log2 + 1

/-- The nearest binary64 number. The first two tests only keep far exponents from being
raised: `10 ^ 309` overflows, and `10 ^ -324` is below half of the least magnitude. -/
def toBinary64 (d : Decimal) : Binary64 :=
  if d.digits = 0 ∨ d.exponent + d.width < -324 then Binary64.zero
  else if 309 < d.exponent then Binary64.posInfinity
  else if 0 ≤ d.exponent then
    Binary64.ofUnits false (d.digits * Nat.pow 10 d.exponent.toNat * Binary64.one) 1
  else Binary64.ofUnits false (d.digits * Binary64.one) (Nat.pow 10 (-d.exponent).toNat)

/-- Reads an exponent part: nothing, or `e`, an optional sign and digits. -/
def readExponent? : List Char → Option Int
  | [] => some 0
  | mark :: rest =>
    if mark = 'e' ∨ mark = 'E' then
      let negative := rest.head? == some '-'
      let digits := if negative ∨ rest.head? = some '+' then rest.tail else rest
      if digits ≠ [] ∧ digits.all (Text.isDigit 10) then
        some (if negative then -(Text.natOf 10 digits) else Text.natOf 10 digits)
      else none
    else none

/-- Reads digits with an optional point among them and an optional exponent after them.
There must be a digit before or after the point. -/
def read? (text : List Char) : Option Decimal :=
  let integer := text.takeWhile (Text.isDigit 10)
  let afterInteger := text.dropWhile (Text.isDigit 10)
  let afterPoint := if afterInteger.head? = some '.' then afterInteger.tail else []
  let fraction := afterPoint.takeWhile (Text.isDigit 10)
  let rest :=
    if afterInteger.head? = some '.' then afterPoint.dropWhile (Text.isDigit 10) else afterInteger
  if integer = [] ∧ fraction = [] then none
  else (readExponent? rest).map fun exponent =>
    { digits := Text.natOf 10 (integer ++ fraction), exponent := exponent - fraction.length }

end Decimal

/-- The binary64 number that a decimal text is read as. -/
def Binary64.ofDecimalText? (text : List Char) : Option Binary64 :=
  (Decimal.read? text).map Decimal.toBinary64

/-- Folds digits into a number, rounding after each product and each sum. -/
def Binary64.ofDigits (radix : Nat) (cs : List Char) : Binary64 :=
  (Text.digitValues radix cs).foldl
    (fun sum digit => sum * Binary64.ofNat radix + Binary64.ofNat digit) Binary64.zero

end IntervalRules
