import IntervalRules.Binary64.Basic

/-!
Arithmetic on binary64 numbers: each operation takes the exact result and rounds it
once. The remainder of two magnitudes is exact, as both count the same unit.
-/

namespace IntervalRules.Binary64

/-- The sum. Of two zeros it is negative only if both are. -/
protected def add : Binary64 → Binary64 → Binary64
  | .nan, _ => .nan
  | _, .nan => .nan
  | .infinite s, .infinite t => if s = t then .infinite s else .nan
  | .infinite s, .finite _ _ _ => .infinite s
  | .finite _ _ _, .infinite t => .infinite t
  | .finite s a _, .finite t b _ =>
    if s = t then ofUnits s (a + b) 1
    else if a = b then zero
    else if a < b then ofUnits t (b - a) 1
    else ofUnits s (a - b) 1

instance : Add Binary64 := ⟨Binary64.add⟩

/-- The product; zero times an infinity is NaN. -/
protected def mul : Binary64 → Binary64 → Binary64
  | .nan, _ => .nan
  | _, .nan => .nan
  | .infinite s, .infinite t => .infinite (s != t)
  | .infinite s, .finite t b _ => if b = 0 then .nan else .infinite (s != t)
  | .finite s a _, .infinite t => if a = 0 then .nan else .infinite (s != t)
  | .finite s a _, .finite t b _ => ofUnits (s != t) (a * b) one

instance : Mul Binary64 := ⟨Binary64.mul⟩

/-- The nearest whole number, a half going away from zero. -/
def round : Binary64 → Binary64
  | .finite s a _ => ofUnits s ((2 * a + one) / (2 * one) * one) 1
  | x => x

/-- What is left of the first number after taking away as many whole seconds as fit. It has
the sign of the first, and there is none of an infinity or for a zero divisor. -/
def remainder : Binary64 → Binary64 → Binary64
  | .finite s a _, .finite _ b _ => if b = 0 then .nan else ofUnits s (a % b) 1
  | .finite s a h, .infinite _ => .finite s a h
  | _, _ => .nan

/-- Multiplies `product` by the power of `base`, squaring for each binary digit of `exponent`
from the lowest, with a rounding after every product. -/
def powOnto (product base : Binary64) (exponent : Nat) : Binary64 :=
  if exponent = 0 then product
  else powOnto (if exponent % 2 = 1 then product * base else product) (base * base) (exponent / 2)
termination_by exponent

/-- The power by repeated squaring. -/
def pow (base : Binary64) (exponent : Nat) : Binary64 := powOnto (ofNat 1) base exponent

end IntervalRules.Binary64
