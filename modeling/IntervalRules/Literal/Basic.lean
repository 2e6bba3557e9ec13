import IntervalRules.Binary64.Layout

/-!
Numeric literals: a binary64 number, an exact integer in one of four radixes, or an
exact decimal. The exact forms keep their digits; all three have a binary64 value.
-/

namespace IntervalRules

inductive Radix where
  | binary
  | octal
  | decimal
  | hexadecimal
  deriving DecidableEq

namespace Radix

def base : Radix → Nat
  | .binary => 2
  | .octal => 8
  | .decimal => 10
  | .hexadecimal => 16

/-- What is written before the digits of an integer in this radix. -/
def mark : Radix → String
  | .binary => "0b"
  | .octal => "0o"
  | .decimal => ""
  | .hexadecimal => "0x"

/-- The radix that a letter after a leading zero selects. -/
def ofMark? : Char → Option Radix
  | 'x' | 'X' => some .hexadecimal
  | 'o' | 'O' => some .octal
  | 'b' | 'B' => some .binary
  | _ => none

end Radix

inductive Literal where
  | number (value : Binary64)
  /-- Digits without separators, written with the suffix `n`. -/
  | bigInteger (digits : String) (radix : Radix)
  /-- A decimal text without separators, written with the suffix `m`. -/
  | decimal (text : String)
  deriving DecidableEq

namespace Literal

/-- The binary64 value. -/
def value : Literal → Binary64
  | .number value => value
  | .bigInteger digits radix => Binary64.ofDigits radix.base digits.toList
  | .decimal text => (Binary64.ofDecimalText? text.toList).getD .nan

/-- The text of a literal in messages. -/
def text : Literal → String
  | .number value => value.text
  | .bigInteger digits radix => radix.mark ++ digits ++ "n"
  | .decimal text => text ++ "m"

end Literal

end IntervalRules
