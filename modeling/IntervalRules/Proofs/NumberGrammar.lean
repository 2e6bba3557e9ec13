import IntervalRules.Proofs.DigitRuns

/-!
The grammar of numeric literals. A number is written with a radix mark, as a legacy octal,
as a decimal with an optional fraction and exponent, as a big integer or as an exact decimal.
`Form.chars` writes a form out and `Form.literal?` is what it denotes. A number ends where the
character after it could not be read on into it.
-/

namespace IntervalRules.Literal

open Text (isDigit)

/-- A single zero, or a run that does not start with one. -/
def PlainInteger (cs : List Char) : Prop :=
  cs = ['0'] ∨ DigitRun 10 cs ∧ cs.head? ≠ some '0'

/-- A zero and digits, among which there is an eight or a nine. -/
def LegacyDecimal (cs : List Char) : Prop :=
  ∃ digits, cs = '0' :: digits ∧ (∀ c ∈ digits, isDigit 10 c = true) ∧
    ('8' ∈ digits ∨ '9' ∈ digits)

/-- What follows the point: a run or nothing. -/
def FractionRun (cs : List Char) : Prop := cs = [] ∨ DigitRun 10 cs

/-- `[eE][+-]?` and a run. -/
structure ExponentPart (e : Exponent) : Prop where
  mark : e.mark = 'e' ∨ e.mark = 'E'
  sign : ∀ c ∈ e.sign, c = '+' ∨ c = '-'
  digits : DigitRun 10 e.digits

/-- The forms of a number. -/
inductive Form where
  /-- A radix mark and digits, with the suffix `n` or without. -/
  | marked (radix : Radix) (mark : Char) (digits : List Char) (exact : Bool)
  /-- A zero and octal digits. -/
  | octal (digits : List Char)
  | decimal (integer : List Char) (fraction : Option (List Char)) (exponent : Option Exponent)
  /-- An integer with the suffix `n`. -/
  | bigInteger (integer : List Char)
  /-- A decimal with the suffix `m`. -/
  | exactDecimal (integer : List Char) (fraction : Option (List Char))

namespace Form

def fractionChars (fraction : Option (List Char)) : List Char :=
  (fraction.map ('.' :: ·)).getD []

def exponentChars (exponent : Option Exponent) : List Char :=
  (exponent.map Exponent.chars).getD []

def chars : Form → List Char
  | .marked _ mark digits exact => '0' :: mark :: digits ++ if exact then ['n'] else []
  | .octal digits => '0' :: digits
  | .decimal integer fraction exponent =>
    integer ++ fractionChars fraction ++ exponentChars exponent
  | .bigInteger integer => integer ++ ['n']
  | .exactDecimal integer fraction => integer ++ fractionChars fraction ++ ['m']

def WellFormed : Form → Prop
  | .marked radix mark digits _ => Radix.ofMark? mark = some radix ∧ DigitRun radix.base digits
  | .octal digits => digits ≠ [] ∧ ∀ c ∈ digits, isDigit 8 c = true
  | .decimal integer fraction exponent =>
    (PlainInteger integer ∨ LegacyDecimal integer) ∧ (∀ digits ∈ fraction, FractionRun digits) ∧
      ∀ e ∈ exponent, ExponentPart e
  | .bigInteger integer => PlainInteger integer
  | .exactDecimal integer fraction =>
    PlainInteger integer ∧ ∀ digits ∈ fraction, FractionRun digits

/-- What a form denotes: folded digits for a radix mark and a legacy octal, the exact digits or
text for a suffix, and otherwise the number that the text without separators is read as. -/
def literal? : Form → Option Literal
  | .marked radix _ digits true =>
    some (.bigInteger (String.ofList (withoutSeparators digits)) radix)
  | .marked radix _ digits false =>
    some (.number (Binary64.ofDigits radix.base (withoutSeparators digits)))
  | .octal digits => some (.number (Binary64.ofDigits 8 ('0' :: digits)))
  | .decimal integer fraction exponent =>
    (Binary64.ofDecimalText? (withoutSeparators
      (integer ++ fractionChars fraction ++ exponentChars exponent))).map Literal.number
  | .bigInteger integer =>
    some (.bigInteger (String.ofList (withoutSeparators integer)) .decimal)
  | .exactDecimal integer fraction =>
    some (.decimal (String.ofList (withoutSeparators (integer ++ fractionChars fraction))))

end Form

instance (base : Nat) (cs : List Char) : Decidable (DigitRun base cs) :=
  decidable_of_iff (cs.all (isRunChar base) = true ∧ cs ≠ [] ∧
      misplacedSeparator? base false cs = none)
    ⟨fun h => (digitRun_iff (List.all_eq_true.1 h.1)).2 h.2,
      fun h => ⟨List.all_eq_true.2 h.chars, (digitRun_iff h.chars).1 h⟩⟩

instance (cs : List Char) : Decidable (PlainInteger cs) :=
  inferInstanceAs (Decidable (_ ∨ _ ∧ _))

instance : (cs : List Char) → Decidable (LegacyDecimal cs)
  | [] => .isFalse fun ⟨_, h, _⟩ => List.cons_ne_nil _ _ h.symm
  | c :: digits =>
    decidable_of_iff
      (c = '0' ∧ digits.all (isDigit 10) = true ∧ ('8' ∈ digits ∨ '9' ∈ digits))
      ⟨fun ⟨hc, hdigits, h⟩ => ⟨digits, by rw [hc], List.all_eq_true.1 hdigits, h⟩,
        fun ⟨_, hcs, hdigits, h⟩ => by
          obtain ⟨rfl, rfl⟩ := List.cons.inj hcs
          exact ⟨rfl, List.all_eq_true.2 hdigits, h⟩⟩

instance (cs : List Char) : Decidable (FractionRun cs) := inferInstanceAs (Decidable (_ ∨ _))

instance (e : Exponent) : Decidable (ExponentPart e) :=
  decidable_of_iff ((e.mark = 'e' ∨ e.mark = 'E') ∧
      e.sign.all (fun c => c = '+' ∨ c = '-') = true ∧ DigitRun 10 e.digits)
    ⟨fun ⟨hmark, hsign, hdigits⟩ =>
      ⟨hmark, fun c hc => of_decide_eq_true ((Option.all_eq_true _ _).1 hsign c hc), hdigits⟩,
      fun ⟨hmark, hsign, hdigits⟩ =>
        ⟨hmark, (Option.all_eq_true _ _).2 fun c hc => decide_eq_true (hsign c hc), hdigits⟩⟩

instance : (form : Form) → Decidable form.WellFormed
  | .marked .. => inferInstanceAs (Decidable (_ ∧ _))
  | .octal digits =>
    decidable_of_iff (digits ≠ [] ∧ digits.all (isDigit 8) = true)
      (and_congr_right fun _ => List.all_eq_true)
  | .decimal .. => inferInstanceAs (Decidable (_ ∧ _ ∧ _))
  | .bigInteger _ => inferInstanceAs (Decidable (PlainInteger _))
  | .exactDecimal .. => inferInstanceAs (Decidable (_ ∧ _))

/-- Whether a character directly after a number belongs to it or spoils it: one that starts an
identifier, a digit unless the number has its suffix, or a point after a mere integer. -/
def Continues (number : List Char) (c : Char) : Prop :=
  CharClass.isIdentifierStart c = true ∨
    (isDigit 10 c = true ∧ number.getLast? ≠ some 'n' ∧ number.getLast? ≠ some 'm') ∨
    (c = '.' ∧ ∀ d ∈ number, isRunChar 10 d = true)

/-- The text after a number does not go on with it. -/
def EndsBefore (number rest : List Char) : Prop := ∀ c ∈ rest.head?, ¬ Continues number c

theorem EndsBefore.isIdentifierStart_eq_false {number rest : List Char}
    (h : EndsBefore number rest) :
    ∀ c ∈ rest.head?, CharClass.isIdentifierStart c = false := by
  intro c hc
  rw [Bool.eq_false_iff]
  exact fun hidentifier => h c hc (.inl hidentifier)

theorem EndsBefore.head?_ne {number rest : List Char} (h : EndsBefore number rest) {d : Char}
    (hd : CharClass.isIdentifierStart d = true) : rest.head? ≠ some d :=
  fun hc => h d hc (.inl hd)

end IntervalRules.Literal
