import IntervalRules.Binary64.Shortest

/-!
Texts of binary64 numbers: the shortest digits, laid out as a record of decisions says.
-/

namespace IntervalRules

/-- How the shortest digits of a number are written. -/
structure Layout where
  /-- The choice between two equally near digit strings. -/
  tie : Tie
  /-- Whether a first digit worth this power of ten is written without an exponent. -/
  positional : Int → Bool
  /-- What follows the digits of a whole number written without an exponent. -/
  wholeSuffix : List Char

namespace Layout

/-- Numbers in messages never have an exponent, and whole ones have no point. -/
def plain : Layout := ⟨.up, fun _ => true, []⟩

/-- Numbers in JSON keep a point, and have an exponent below `10 ^ -5` and from `10 ^ 16` on. -/
def json : Layout := ⟨.even, fun exponent => -5 ≤ exponent && exponent < 16, ".0".toList⟩

private def zeros (count : Nat) : List Char := List.replicate count '0'

/-- Digits with the point where the exponent puts it. -/
def writePositional (layout : Layout) (digits : List Char) (exponent : Int) : List Char :=
  if 0 ≤ exponent then digits ++ zeros exponent.toNat ++ layout.wholeSuffix
  else
    let places := (-exponent).toNat
    let padded := zeros (places + 1 - digits.length) ++ digits
    padded.take (padded.length - places) ++ '.' :: padded.drop (padded.length - places)

/-- Digits with a point after the first and a signed exponent. -/
def writeScientific (digits : List Char) (exponent : Int) : List Char :=
  let mantissa :=
    match digits with
    | first :: second :: rest => first :: '.' :: second :: rest
    | short => short
  mantissa ++ 'e' :: (if exponent < 0 then '-' else '+') :: Nat.toDigits 10 exponent.natAbs

/-- The text of a finite magnitude. -/
def writeMagnitude (layout : Layout) (units : Nat) : List Char :=
  if units = 0 then '0' :: layout.wholeSuffix
  else
    let decimal := (Decimal.shortest layout.tie units).stripZeros
    let digits := Nat.toDigits 10 decimal.digits
    let leading := decimal.exponent + digits.length - 1
    if layout.positional leading then layout.writePositional digits decimal.exponent
    else writeScientific digits leading

/-- The text of a number. Zero keeps its sign. -/
def write (layout : Layout) : Binary64 → List Char
  | .nan => "NaN".toList
  | .infinite negative => if negative then "-inf".toList else "inf".toList
  | .finite negative units _ =>
    if negative then '-' :: layout.writeMagnitude units else layout.writeMagnitude units

end Layout

namespace Binary64

/-- The text of a number in messages. -/
def text (x : Binary64) : String := String.ofList (Layout.plain.write x)

instance : ToString Binary64 := ⟨text⟩

end Binary64

example : (Binary64.ofNat 1000000000000000000000).text = "1000000000000000000000" := by
  decide +kernel

example : (-(Decimal.toBinary64 ⟨25, -1⟩)).text = "-2.5" := by decide +kernel

example : Layout.json.write (Decimal.toBinary64 ⟨3, -324⟩) = "5e-324".toList := by decide +kernel

end IntervalRules
