import IntervalRules.Binary64.Rounding

/-!
Binary64 numbers as data: a sign and a magnitude in units of `2 ^ -1074`, the two
infinities, and one NaN. Zero keeps its sign. Order is that of the signed magnitudes,
an infinity having the magnitude that follows the last finite one.
-/

namespace IntervalRules

/-- A binary64 number; a finite magnitude lies on the grid. -/
inductive Binary64 where
  | nan
  | infinite (negative : Bool)
  | finite (negative : Bool) (units : Nat) (onGrid : Binary64.OnGrid units)
  deriving DecidableEq

namespace Binary64

/-- The number nearest to the signed ratio `num / den`, in units. -/
def ofUnits (negative : Bool) (num den : Nat) : Binary64 :=
  if h : nearest num den < overflow then .finite negative (nearest num den) (nearest_onGrid h)
  else .infinite negative

theorem ofUnits_of_onGrid (negative : Bool) {units : Nat} (h : OnGrid units) :
    ofUnits negative units 1 = .finite negative units h := by
  simp only [ofUnits, nearest_of_onGrid h]
  exact dif_pos h.1

def zero : Binary64 := .finite false 0 zero_onGrid

def posInfinity : Binary64 := .infinite false

def negInfinity : Binary64 := .infinite true

instance : Inhabited Binary64 := ⟨zero⟩

/-- The units in one. -/
@[irreducible] def one : Nat := Nat.pow 2 1074

/-- The number nearest to a natural. -/
def ofNat (n : Nat) : Binary64 := ofUnits false (n * one) 1

def isNaN : Binary64 → Bool
  | .nan => true
  | _ => false

def isNegative : Binary64 → Bool
  | .nan => false
  | .infinite negative => negative
  | .finite negative _ _ => negative

/-- The size without the sign, in units. -/
def magnitude : Binary64 → Nat
  | .nan => 0
  | .infinite _ => overflow
  | .finite _ units _ => units

/-- The place on the signed line, which NaN does not have; both zeros share one. -/
def position : Binary64 → Option Int
  | .nan => none
  | x => some (if x.isNegative then -x.magnitude else x.magnitude)

protected def neg : Binary64 → Binary64
  | .nan => .nan
  | .infinite negative => .infinite !negative
  | .finite negative units h => .finite (!negative) units h

instance : Neg Binary64 := ⟨Binary64.neg⟩

/-- Whether two places compare as asked; never with NaN. -/
def compares (relation : Int → Int → Bool) (x y : Binary64) : Bool :=
  match x.position, y.position with
  | some a, some b => relation a b
  | _, _ => false

/-- Numeric equality: NaN differs from itself, and the two zeros agree. -/
def eq (x y : Binary64) : Bool := compares (· == ·) x y

def lt (x y : Binary64) : Bool := compares (· < ·) x y

def le (x y : Binary64) : Bool := compares (· ≤ ·) x y

theorem neg_neg (x : Binary64) : - -x = x := by
  cases x with
  | nan => rfl
  | infinite negative => cases negative <;> rfl
  | finite negative units h => cases negative <;> rfl

end Binary64

end IntervalRules
