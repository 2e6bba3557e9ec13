import IntervalRules.Literal.Basic

/-!
The parts of a decimal literal as they stand in the text: an integer part, and
optionally a fraction, an exponent and a suffix. Each run of digits may hold `_` between
two digits; where one stands elsewhere is found separately, so that it can be reported.
-/

namespace IntervalRules

namespace Literal

/-- The characters of a run of digits. -/
def isRunChar (base : Nat) (c : Char) : Bool := c == '_' || Text.isDigit base c

/-- The run of digits at the front. -/
def run (base : Nat) (cs : List Char) : List Char := cs.takeWhile (isRunChar base)

def afterRun (base : Nat) (cs : List Char) : List Char := cs.dropWhile (isRunChar base)

theorem run_append_afterRun (base : Nat) (cs : List Char) : run base cs ++ afterRun base cs = cs :=
  List.takeWhile_append_dropWhile

/-- A run without its separators. -/
def withoutSeparators (cs : List Char) : List Char := cs.filter (· != '_')

/-- The offset of the first `_` that does not stand between two digits. -/
def misplacedSeparator? (base : Nat) (afterDigit : Bool) : List Char → Option Nat
  | [] => none
  | c :: rest =>
    if c = '_' then
      if afterDigit && rest.head?.any (Text.isDigit base) then
        (misplacedSeparator? base false rest).map (· + 1)
      else some 0
    else (misplacedSeparator? base (Text.isDigit base c) rest).map (· + 1)

end Literal

/-- An exponent part as written. -/
structure Exponent where
  mark : Char
  sign : Option Char
  digits : List Char

inductive Suffix where
  | bigInteger
  | decimal
  deriving DecidableEq

/-- A decimal literal as written. -/
structure DecimalShape where
  integer : List Char
  fraction : Option (List Char)
  exponent : Option Exponent
  suffix : Option Suffix

namespace Exponent

def chars (e : Exponent) : List Char := e.mark :: e.sign.toList ++ e.digits

/-- Takes an exponent mark, an optional sign and a nonempty run from the front, or nothing. -/
def split (cs : List Char) : Option Exponent × List Char :=
  match cs with
  | [] => (none, cs)
  | mark :: rest =>
    if mark = 'e' ∨ mark = 'E' then
      let sign := rest.head?.filter fun c => c == '+' || c == '-'
      let digits := rest.drop sign.toList.length
      if Literal.run 10 digits = [] then (none, cs)
      else (some ⟨mark, sign, Literal.run 10 digits⟩, Literal.afterRun 10 digits)
    else (none, cs)

end Exponent

namespace Suffix

def char : Suffix → Char
  | .bigInteger => 'n'
  | .decimal => 'm'

def split : List Char → Option Suffix × List Char
  | 'n' :: rest => (some .bigInteger, rest)
  | 'm' :: rest => (some .decimal, rest)
  | cs => (none, cs)

theorem split_chars (cs : List Char) :
    ((split cs).1.map char).toList ++ (split cs).2 = cs := by
  unfold split
  split <;> rfl

theorem split_of_bare {cs : List Char} (h : ∀ c ∈ cs.head?, c ≠ 'n' ∧ c ≠ 'm') :
    split cs = (none, cs) := by
  unfold split
  split
  · exact absurd rfl (h 'n' rfl).1
  · exact absurd rfl (h 'm' rfl).2
  · rfl

theorem suffix_or_bare (cs : List Char) :
    (∃ more, cs = 'n' :: more) ∨ (∃ more, cs = 'm' :: more) ∨
      ∀ c ∈ cs.head?, c ≠ 'n' ∧ c ≠ 'm' := by
  cases cs with
  | nil => exact .inr (.inr nofun)
  | cons c more =>
    by_cases hn : c = 'n'
    · exact .inl ⟨more, by rw [hn]⟩
    · by_cases hm : c = 'm'
      · exact .inr (.inl ⟨more, by rw [hm]⟩)
      · refine .inr (.inr ?_)
        rintro d ⟨⟩
        exact ⟨hn, hm⟩

end Suffix

namespace DecimalShape

/-- Takes a point and a possibly empty run from the front, or nothing. -/
def splitFraction : List Char → Option (List Char) × List Char
  | '.' :: rest => (some (Literal.run 10 rest), Literal.afterRun 10 rest)
  | cs => (none, cs)

/-- Takes the longest decimal literal from the front. -/
def split (cs : List Char) : DecimalShape × List Char :=
  let (fraction, afterFraction) := splitFraction (Literal.afterRun 10 cs)
  let (exponent, afterExponent) := Exponent.split afterFraction
  let (suffix, rest) := Suffix.split afterExponent
  (⟨Literal.run 10 cs, fraction, exponent, suffix⟩, rest)

/-- The integer part and the fraction with its point. -/
def mantissa (s : DecimalShape) : List Char :=
  s.integer ++ (s.fraction.map ('.' :: ·)).getD []

/-- All characters but the suffix. -/
def numeral (s : DecimalShape) : List Char :=
  s.mantissa ++ (s.exponent.map Exponent.chars).getD []

/-- All characters. -/
def chars (s : DecimalShape) : List Char := s.numeral ++ (s.suffix.map Suffix.char).toList

/-- The offset of the first misplaced `_`: in the integer part, then the fraction, then the
exponent. -/
def misplacedSeparator? (s : DecimalShape) : Option Nat :=
  (Literal.misplacedSeparator? 10 false s.integer)
    |>.or (s.fraction.bind fun run =>
      (Literal.misplacedSeparator? 10 false run).map (s.integer.length + 1 + ·))
    |>.or (s.exponent.bind fun e =>
      (Literal.misplacedSeparator? 10 false e.digits).map
        (s.mantissa.length + 1 + e.sign.toList.length + ·))

/-- Whether further digits follow a zero. -/
def hasLeadingZero (s : DecimalShape) : Bool := s.integer.head? == some '0' && s.integer.length ≥ 2

/-- Whether the literal is octal for its leading zero: no digit is `8` or `9`. -/
def isOctal (s : DecimalShape) : Bool :=
  s.hasLeadingZero && !s.integer.contains '8' && !s.integer.contains '9'

theorem isOctal_of_no_leading_zero {s : DecimalShape} (h : s.hasLeadingZero = false) :
    s.isOctal = false := by
  rw [isOctal, h, Bool.false_and, Bool.false_and]

theorem split_chars_append (cs : List Char) : (split cs).1.chars ++ (split cs).2 = cs := by
  have hsign (ds : List Char) (p : Char → Bool) :
      (ds.head?.filter p).toList ++ ds.drop (ds.head?.filter p).toList.length = ds := by
    cases ds with
    | nil => rfl
    | cons c ds => by_cases h : p c <;> simp [Option.filter, h]
  have hexponent (ds : List Char) :
      ((Exponent.split ds).1.map Exponent.chars).getD [] ++ (Exponent.split ds).2 = ds := by
    unfold Exponent.split
    split
    · rfl
    · split
      · dsimp only
        split
        · rfl
        · simp [Exponent.chars, Literal.run_append_afterRun, hsign]
      · rfl
  have hfraction (ds : List Char) :
      ((splitFraction ds).1.map ('.' :: ·)).getD [] ++ (splitFraction ds).2 = ds := by
    unfold splitFraction
    split
    · simp [Literal.run_append_afterRun]
    · rfl
  simp only [split, chars, numeral, mantissa, List.append_assoc, Suffix.split_chars, hexponent,
    hfraction, Literal.run_append_afterRun]

end DecimalShape

end IntervalRules
