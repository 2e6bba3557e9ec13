/-!
Digits of a radix up to sixteen, and the natural number that a run of them denotes.
-/

namespace IntervalRules.Text

/-- The value of a digit; letters count from ten in either case. -/
def digit? (radix : Nat) (c : Char) : Option Nat :=
  let value? :=
    if '0' ≤ c ∧ c ≤ '9' then some (c.toNat - '0'.toNat)
    else if 'a' ≤ c ∧ c ≤ 'f' then some (c.toNat - 'a'.toNat + 10)
    else if 'A' ≤ c ∧ c ≤ 'F' then some (c.toNat - 'A'.toNat + 10)
    else none
  value?.filter (· < radix)

def isDigit (radix : Nat) (c : Char) : Bool := (digit? radix c).isSome

/-- The digits' values from left to right; other characters are passed over. -/
def digitValues (radix : Nat) (cs : List Char) : List Nat := cs.filterMap (digit? radix)

/-- The natural number that the digits among the characters denote. -/
def natOf (radix : Nat) (cs : List Char) : Nat :=
  (digitValues radix cs).foldl (fun n d => n * radix + d) 0

example : natOf 16 "1F".toList = 31 := by decide

example : natOf 10 "007".toList = 7 := by decide

example : isDigit 8 '8' = false := by decide

end IntervalRules.Text
