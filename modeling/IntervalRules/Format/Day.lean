import IntervalRules.Text.Blank
import IntervalRules.Text.Digits

/-!
Days of the Gregorian calendar, extended back to the year 0, written as `YYYY-MM-DD`.
-/

namespace IntervalRules.Format

structure Day where
  year : Nat
  month : Nat
  day : Nat
  deriving DecidableEq

namespace Day

/-- Every fourth year but the first of a century, of which every fourth is leap again. -/
def isLeap (year : Nat) : Bool := (year % 4 == 0 && year % 100 != 0) || year % 400 == 0

/-- The number of days of a month; months outside 1 to 12 have none. -/
def daysInMonth (year month : Nat) : Nat :=
  if [1, 3, 5, 7, 8, 10, 12].contains month then 31
  else if [4, 6, 9, 11].contains month then 30
  else if month = 2 then if isLeap year then 29 else 28
  else 0

/-- Whether the calendar has the day. -/
def isReal (d : Day) : Bool := 1 ≤ d.day && d.day ≤ daysInMonth d.year d.month

/-- Reads a day as four, two and two digits with hyphens between them. -/
def read? : List Char → Option Day
  | [y₁, y₂, y₃, y₄, '-', m₁, m₂, '-', d₁, d₂] =>
    if [y₁, y₂, y₃, y₄, m₁, m₂, d₁, d₂].all (Text.isDigit 10) then
      some ⟨Text.natOf 10 [y₁, y₂, y₃, y₄], Text.natOf 10 [m₁, m₂], Text.natOf 10 [d₁, d₂]⟩
    else none
  | _ => none

end Day

/-- A real day with any blanks around it. -/
def isDay (cs : List Char) : Bool := (Day.read? (Text.trimChars cs)).any Day.isReal

example : isDay "2024-02-29".toList ∧ ¬ isDay "2023-02-29".toList := by decide

end IntervalRules.Format
