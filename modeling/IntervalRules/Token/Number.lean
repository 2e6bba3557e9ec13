import IntervalRules.Token.Basic
import IntervalRules.Literal.Shape

/-!
Scanning of one numeric literal. A literal is the longest text of its shape; what the
shape allows too much is then reported as the fault that comes first in the order of
the checks below. No identifier may start directly after a literal.

After the definitions, what comes of each scanner is listed once, every check with it. A scanner
gives a result exactly if that is the outcome (`scanRadix_eq_iff` to `scanNumber_eq_iff`).
-/

namespace IntervalRules.Token

/-- A literal with the offset at which it ends and the text after it. -/
structure Scanned where
  literal : Literal
  stop : Nat
  rest : List Char

/-- Scans the literal whose two-character radix mark is at `start`; `cs` follows the mark. -/
def scanRadix (start : Nat) (radix : Radix) (cs : List Char) : Except TokenError Scanned :=
  let run := Literal.run radix.base cs
  let rest := Literal.afterRun radix.base cs
  let stop := start + 2 + run.length
  match rest.head?.filter (Text.isDigit 10) with
  | some c => .error (.invalidDigit c radix stop)
  | none =>
    if run = [] then .error (.malformedNumber ⟨start, start + 2⟩ .noRadixDigits)
    else
      match Literal.misplacedSeparator? radix.base false run with
      | some offset => .error (.misplacedSeparator (start + 2 + offset))
      | none =>
        let digits := Literal.withoutSeparators run
        match Suffix.split rest with
        | (some .bigInteger, rest) =>
          .ok ⟨.bigInteger (String.ofList digits) radix, stop + 1, rest⟩
        | (some .decimal, _) =>
          .error (.malformedNumber ⟨start, stop + 1⟩ .decimalSuffixOnRadix)
        | (none, rest) => .ok ⟨.number (Binary64.ofDigits radix.base digits), stop, rest⟩

/-- The literal that a decimal shape denotes once its separators are known to be in place. -/
def decimalLiteral (s : DecimalShape) : Except NumberFault Literal :=
  if s.isOctal && (s.fraction.isSome || s.exponent.isSome) then .error .octalWithFraction
  else
    match s.suffix with
    | some .bigInteger =>
      if s.fraction.isSome || s.exponent.isSome || s.hasLeadingZero then .error .bigInteger
      else .ok (.bigInteger (String.ofList (Literal.withoutSeparators s.integer)) .decimal)
    | some .decimal =>
      if s.exponent.isSome || s.hasLeadingZero then .error .decimal
      else .ok (.decimal (String.ofList (Literal.withoutSeparators s.mantissa)))
    | none =>
      if s.isOctal then .ok (.number (Binary64.ofDigits 8 s.integer))
      else
        match Binary64.ofDecimalText? (Literal.withoutSeparators s.numeral) with
        | some value => .ok (.number value)
        | none => .error .unreadable

/-- The misplaced `_` of a decimal shape: one that does not stand between two digits, or any in
an integer part with a leading zero. -/
def separatorFault? (s : DecimalShape) : Option Nat :=
  s.misplacedSeparator?.or
    (if s.hasLeadingZero && s.integer.contains '_' then some (s.integer.idxOf '_') else none)

/-- Scans the literal at `start` that has no radix mark. -/
def scanDecimal (start : Nat) (cs : List Char) : Except TokenError Scanned :=
  let (shape, rest) := DecimalShape.split cs
  let stop := start + shape.chars.length
  if shape.integer = [] then .error (.malformedNumber ⟨start, start + 1⟩ .noDigits)
  else if rest.head?.any fun c => c == 'e' || c == 'E' then
    .error (.malformedNumber ⟨start, stop + 1⟩ .noExponentDigits)
  else
    match separatorFault? shape with
    | some offset => .error (.misplacedSeparator (start + offset))
    | none =>
      match decimalLiteral shape with
      | .ok literal => .ok ⟨literal, stop, rest⟩
      | .error fault => .error (.malformedNumber ⟨start, stop⟩ fault)

/-- Scans the literal at `start`, which may have a radix mark. -/
def scanLiteral (start : Nat) (cs : List Char) : Except TokenError Scanned :=
  match cs with
  | '0' :: mark :: rest =>
    match Radix.ofMark? mark with
    | some radix => scanRadix start radix rest
    | none => scanDecimal start cs
  | _ => scanDecimal start cs

/-- Scans a number token at `start`. -/
def scanNumber (start : Nat) (cs : List Char) : Except TokenError Scanned :=
  match scanLiteral start cs with
  | .error e => .error e
  | .ok scanned =>
    match scanned.rest.head?.filter CharClass.isIdentifierStart with
    | some c => .error (.identifierAfterNumber c scanned.stop)
    | none => .ok scanned

/-! ## Outcomes

What the scanners come to: one case for each way through their checks, with all that leads there.
-/

theorem filter_head?_eq_none_iff {cs : List Char} {p : Char → Bool} :
    cs.head?.filter p = none ↔ ∀ c ∈ cs.head?, p c = false := by
  simp only [Option.filter_eq_none_iff, Option.mem_def, Bool.not_eq_true]

/-- The checks before the suffix: the digits after a radix mark are of that radix, there is one,
and their separators are in place. -/
structure RadixChecks (radix : Radix) (digits rest : List Char) : Prop where
  ends : ∀ c ∈ rest.head?, Text.isDigit 10 c = false
  ne_nil : digits ≠ []
  separators : Literal.misplacedSeparator? radix.base false digits = none

/-- What comes of the digits after a radix mark and the text after them. -/
inductive RadixOutcome (start : Nat) (radix : Radix) (digits rest : List Char) :
    Except TokenError Scanned → Prop
  | invalidDigit {c : Char} (head : c ∈ rest.head?) (digit : Text.isDigit 10 c = true) :
      RadixOutcome start radix digits rest
        (.error (.invalidDigit c radix (start + 2 + digits.length)))
  | noDigits (ends : ∀ c ∈ rest.head?, Text.isDigit 10 c = false) (empty : digits = []) :
      RadixOutcome start radix digits rest
        (.error (.malformedNumber ⟨start, start + 2⟩ .noRadixDigits))
  | separator {offset : Nat} (ends : ∀ c ∈ rest.head?, Text.isDigit 10 c = false)
      (ne_nil : digits ≠ [])
      (misplaced : Literal.misplacedSeparator? radix.base false digits = some offset) :
      RadixOutcome start radix digits rest (.error (.misplacedSeparator (start + 2 + offset)))
  | decimalSuffix {more : List Char} (checks : RadixChecks radix digits rest)
      (suffix : rest = 'm' :: more) :
      RadixOutcome start radix digits rest
        (.error (.malformedNumber ⟨start, start + 2 + digits.length + 1⟩ .decimalSuffixOnRadix))
  | bigInteger {more : List Char} (checks : RadixChecks radix digits rest)
      (suffix : rest = 'n' :: more) :
      RadixOutcome start radix digits rest
        (.ok ⟨.bigInteger (String.ofList (Literal.withoutSeparators digits)) radix,
          start + 2 + digits.length + 1, more⟩)
  | number (checks : RadixChecks radix digits rest)
      (bare : ∀ c ∈ rest.head?, c ≠ 'n' ∧ c ≠ 'm') :
      RadixOutcome start radix digits rest
        (.ok ⟨.number (Binary64.ofDigits radix.base (Literal.withoutSeparators digits)),
          start + 2 + digits.length, rest⟩)

theorem scanRadix_outcome (start : Nat) (radix : Radix) (cs : List Char) :
    RadixOutcome start radix (Literal.run radix.base cs) (Literal.afterRun radix.base cs)
      (scanRadix start radix cs) := by
  unfold scanRadix
  generalize Literal.run radix.base cs = digits
  generalize Literal.afterRun radix.base cs = rest
  dsimp only
  split
  · rename_i digit
    obtain ⟨head, digit⟩ := Option.filter_eq_some_iff.1 digit
    exact .invalidDigit head digit
  · rename_i ends
    rw [filter_head?_eq_none_iff] at ends
    split
    · rename_i empty
      exact .noDigits ends empty
    · rename_i ne_nil
      split
      · rename_i misplaced
        exact .separator ends ne_nil misplaced
      · rename_i separators
        have checks : RadixChecks radix digits rest := ⟨ends, ne_nil, separators⟩
        rcases Suffix.suffix_or_bare rest with ⟨more, rfl⟩ | ⟨more, rfl⟩ | bare
        · exact .bigInteger checks rfl
        · exact .decimalSuffix checks rfl
        · rw [Suffix.split_of_bare bare]
          exact .number checks bare

theorem scanRadix_eq_iff {start : Nat} {radix : Radix} {cs : List Char}
    {r : Except TokenError Scanned} :
    scanRadix start radix cs = r ↔
      RadixOutcome start radix (Literal.run radix.base cs) (Literal.afterRun radix.base cs) r := by
  refine ⟨fun h => h ▸ scanRadix_outcome start radix cs, fun h => ?_⟩
  unfold scanRadix
  generalize Literal.run radix.base cs = digits at *
  generalize Literal.afterRun radix.base cs = rest at *
  cases h with
  | invalidDigit head digit => simp only [Option.filter_eq_some_iff.2 ⟨head, digit⟩]
  | noDigits ends empty => simp only [filter_head?_eq_none_iff.2 ends, if_pos empty]
  | separator ends ne_nil misplaced =>
    simp only [filter_head?_eq_none_iff.2 ends, if_neg ne_nil, misplaced]
  | decimalSuffix checks suffix =>
    subst suffix
    simp only [filter_head?_eq_none_iff.2 checks.ends, if_neg checks.ne_nil, checks.separators,
      Suffix.split]
  | bigInteger checks suffix =>
    subst suffix
    simp only [filter_head?_eq_none_iff.2 checks.ends, if_neg checks.ne_nil, checks.separators,
      Suffix.split]
  | number checks bare =>
    simp only [filter_head?_eq_none_iff.2 checks.ends, if_neg checks.ne_nil, checks.separators,
      Suffix.split_of_bare bare]

/-- What comes of a decimal shape as a literal. -/
inductive ShapeOutcome (s : DecimalShape) : Except NumberFault Literal → Prop
  | octalParts (octal : s.isOctal = true) (parts : s.fraction ≠ none ∨ s.exponent ≠ none) :
      ShapeOutcome s (.error .octalWithFraction)
  | bigIntegerParts (whole : s.isOctal = true → s.fraction = none ∧ s.exponent = none)
      (suffix : s.suffix = some .bigInteger)
      (parts : s.fraction ≠ none ∨ s.exponent ≠ none ∨ s.hasLeadingZero = true) :
      ShapeOutcome s (.error .bigInteger)
  | decimalParts (whole : s.isOctal = true → s.fraction = none ∧ s.exponent = none)
      (suffix : s.suffix = some .decimal) (parts : s.exponent ≠ none ∨ s.hasLeadingZero = true) :
      ShapeOutcome s (.error .decimal)
  | unreadable (octal : s.isOctal = false) (suffix : s.suffix = none)
      (read : Binary64.ofDecimalText? (Literal.withoutSeparators s.numeral) = none) :
      ShapeOutcome s (.error .unreadable)
  | bigInteger (suffix : s.suffix = some .bigInteger) (fraction : s.fraction = none)
      (exponent : s.exponent = none) (zero : s.hasLeadingZero = false) :
      ShapeOutcome s
        (.ok (.bigInteger (String.ofList (Literal.withoutSeparators s.integer)) .decimal))
  | decimal (suffix : s.suffix = some .decimal) (exponent : s.exponent = none)
      (zero : s.hasLeadingZero = false) :
      ShapeOutcome s (.ok (.decimal (String.ofList (Literal.withoutSeparators s.mantissa))))
  | octal (octal : s.isOctal = true) (suffix : s.suffix = none) (fraction : s.fraction = none)
      (exponent : s.exponent = none) :
      ShapeOutcome s (.ok (.number (Binary64.ofDigits 8 s.integer)))
  | number {value : Binary64} (octal : s.isOctal = false) (suffix : s.suffix = none)
      (read : Binary64.ofDecimalText? (Literal.withoutSeparators s.numeral) = some value) :
      ShapeOutcome s (.ok (.number value))

theorem octalParts_eq_false {s : DecimalShape}
    (whole : s.isOctal = true → s.fraction = none ∧ s.exponent = none) :
    (s.isOctal && (s.fraction.isSome || s.exponent.isSome)) = false := by
  cases octal : s.isOctal with
  | false => rfl
  | true =>
    rw [(whole octal).1, (whole octal).2]
    rfl

theorem decimalLiteral_outcome (s : DecimalShape) : ShapeOutcome s (decimalLiteral s) := by
  unfold decimalLiteral
  split
  · rename_i octal
    simp only [Bool.and_eq_true, Bool.or_eq_true, Option.isSome_iff_ne_none] at octal
    exact .octalParts octal.1 octal.2
  · rename_i whole
    replace whole : s.isOctal = true → s.fraction = none ∧ s.exponent = none := by
      intro octal
      simpa [octal] using whole
    split
    · rename_i suffix
      split
      · rename_i parts
        simp only [Bool.or_eq_true, Option.isSome_iff_ne_none, or_assoc] at parts
        exact .bigIntegerParts whole suffix parts
      · rename_i bare
        simp only [Bool.or_eq_true, not_or, Bool.not_eq_true, Option.isSome_eq_false_iff,
          Option.isNone_iff_eq_none] at bare
        exact .bigInteger suffix bare.1.1 bare.1.2 bare.2
    · rename_i suffix
      split
      · rename_i parts
        simp only [Bool.or_eq_true, Option.isSome_iff_ne_none] at parts
        exact .decimalParts whole suffix parts
      · rename_i bare
        simp only [Bool.or_eq_true, not_or, Bool.not_eq_true, Option.isSome_eq_false_iff,
          Option.isNone_iff_eq_none] at bare
        exact .decimal suffix bare.1 bare.2
    · rename_i suffix
      split
      · rename_i octal
        exact .octal octal suffix (whole octal).1 (whole octal).2
      · rename_i octal
        rw [Bool.not_eq_true] at octal
        split
        · rename_i read
          exact .number octal suffix read
        · rename_i read
          exact .unreadable octal suffix read

theorem decimalLiteral_eq_iff {s : DecimalShape} {r : Except NumberFault Literal} :
    decimalLiteral s = r ↔ ShapeOutcome s r := by
  refine ⟨fun h => h ▸ decimalLiteral_outcome s, fun h => ?_⟩
  unfold decimalLiteral
  cases h with
  | octalParts octal parts =>
    simp only [octal, Bool.true_and, Bool.or_eq_true, Option.isSome_iff_ne_none, if_pos parts]
  | bigIntegerParts whole suffix parts =>
    simp only [octalParts_eq_false whole, Bool.false_eq_true, if_false, suffix, Bool.or_eq_true,
      Option.isSome_iff_ne_none, or_assoc, if_pos parts]
  | decimalParts whole suffix parts =>
    simp only [octalParts_eq_false whole, Bool.false_eq_true, if_false, suffix, Bool.or_eq_true,
      Option.isSome_iff_ne_none, if_pos parts]
  | unreadable octal suffix read => simp [octal, suffix, read]
  | bigInteger suffix fraction exponent zero =>
    simp [DecimalShape.isOctal_of_no_leading_zero zero, suffix, fraction, exponent, zero]
  | decimal suffix exponent zero =>
    simp [DecimalShape.isOctal_of_no_leading_zero zero, suffix, exponent, zero]
  | octal octal suffix fraction exponent => simp [octal, suffix, fraction, exponent]
  | number octal suffix read => simp [octal, suffix, read]

/-- The checks before the literal of a decimal shape is made. -/
structure DecimalChecks (s : DecimalShape) (rest : List Char) : Prop where
  ne_nil : s.integer ≠ []
  ends : ∀ c ∈ rest.head?, c ≠ 'e' ∧ c ≠ 'E'
  separators : separatorFault? s = none

/-- What comes of a decimal shape and the text after it. -/
inductive DecimalOutcome (start : Nat) (s : DecimalShape) (rest : List Char) :
    Except TokenError Scanned → Prop
  | noDigits (empty : s.integer = []) :
      DecimalOutcome start s rest (.error (.malformedNumber ⟨start, start + 1⟩ .noDigits))
  | noExponentDigits {c : Char} (ne_nil : s.integer ≠ []) (head : c ∈ rest.head?)
      (mark : c = 'e' ∨ c = 'E') :
      DecimalOutcome start s rest
        (.error (.malformedNumber ⟨start, start + s.chars.length + 1⟩ .noExponentDigits))
  | separator {offset : Nat} (ne_nil : s.integer ≠ []) (ends : ∀ c ∈ rest.head?, c ≠ 'e' ∧ c ≠ 'E')
      (misplaced : separatorFault? s = some offset) :
      DecimalOutcome start s rest (.error (.misplacedSeparator (start + offset)))
  | malformed {fault : NumberFault} (checks : DecimalChecks s rest)
      (refused : decimalLiteral s = .error fault) :
      DecimalOutcome start s rest
        (.error (.malformedNumber ⟨start, start + s.chars.length⟩ fault))
  | literal {x : Literal} (checks : DecimalChecks s rest) (accepted : decimalLiteral s = .ok x) :
      DecimalOutcome start s rest (.ok ⟨x, start + s.chars.length, rest⟩)

/-- Whether an exponent mark without digits is left over. -/
theorem exponentMark_iff {cs : List Char} :
    (cs.head?.any fun c => c == 'e' || c == 'E') = true ↔ ∃ c ∈ cs.head?, c = 'e' ∨ c = 'E' := by
  simp only [Option.any_eq_true, Bool.or_eq_true, beq_iff_eq, Option.mem_def]

theorem not_exponentMark_iff {cs : List Char} :
    ¬ (cs.head?.any fun c => c == 'e' || c == 'E') = true ↔
      ∀ c ∈ cs.head?, c ≠ 'e' ∧ c ≠ 'E' := by
  simp only [exponentMark_iff, not_exists, not_and, not_or]

theorem scanDecimal_outcome (start : Nat) (cs : List Char) :
    DecimalOutcome start (DecimalShape.split cs).1 (DecimalShape.split cs).2
      (scanDecimal start cs) := by
  unfold scanDecimal
  obtain ⟨s, rest⟩ := DecimalShape.split cs
  dsimp only
  split
  · rename_i empty
    exact .noDigits empty
  · rename_i ne_nil
    split
    · rename_i mark
      obtain ⟨c, head, mark⟩ := exponentMark_iff.1 mark
      exact .noExponentDigits ne_nil head mark
    · rename_i ends
      rw [not_exponentMark_iff] at ends
      split
      · rename_i misplaced
        exact .separator ne_nil ends misplaced
      · rename_i separators
        have checks : DecimalChecks s rest := ⟨ne_nil, ends, separators⟩
        split
        · rename_i accepted
          exact .literal checks accepted
        · rename_i refused
          exact .malformed checks refused

theorem scanDecimal_eq_iff {start : Nat} {cs : List Char} {r : Except TokenError Scanned} :
    scanDecimal start cs = r ↔
      DecimalOutcome start (DecimalShape.split cs).1 (DecimalShape.split cs).2 r := by
  refine ⟨fun h => h ▸ scanDecimal_outcome start cs, fun h => ?_⟩
  unfold scanDecimal
  generalize DecimalShape.split cs = parts at *
  obtain ⟨s, rest⟩ := parts
  dsimp only at h ⊢
  cases h with
  | noDigits empty => rw [if_pos empty]
  | noExponentDigits ne_nil head mark =>
    rw [if_neg ne_nil, if_pos (exponentMark_iff.2 ⟨_, head, mark⟩)]
  | separator ne_nil ends misplaced =>
    rw [if_neg ne_nil, if_neg (not_exponentMark_iff.2 ends), misplaced]
  | malformed checks refused =>
    rw [if_neg checks.ne_nil, if_neg (not_exponentMark_iff.2 checks.ends), checks.separators,
      refused]
  | literal checks accepted =>
    rw [if_neg checks.ne_nil, if_neg (not_exponentMark_iff.2 checks.ends), checks.separators,
      accepted]

/-- What comes of a literal, which has a radix mark or has none. -/
inductive LiteralOutcome (start : Nat) (cs : List Char) (r : Except TokenError Scanned) : Prop
  | marked {mark : Char} {radix : Radix} {tail : List Char} (text : cs = '0' :: mark :: tail)
      (marked : Radix.ofMark? mark = some radix) (scanned : scanRadix start radix tail = r)
  | unmarked (unmarked : ∀ mark tail, cs = '0' :: mark :: tail → Radix.ofMark? mark = none)
      (scanned : scanDecimal start cs = r)

theorem scanLiteral_eq_iff {start : Nat} {cs : List Char} {r : Except TokenError Scanned} :
    scanLiteral start cs = r ↔ LiteralOutcome start cs r := by
  unfold scanLiteral
  constructor
  · intro h
    split at h
    · split at h
      · rename_i marked
        exact .marked rfl marked h
      · rename_i unmarked
        refine .unmarked ?_ h
        rintro mark tail ⟨⟩
        exact unmarked
    · rename_i other
      exact .unmarked (fun mark tail text => (other mark tail text).elim) h
  · intro h
    cases h with
    | marked text marked scanned =>
      subst text
      simp only [marked]
      exact scanned
    | unmarked unmarked scanned =>
      split
      · rw [unmarked _ _ rfl]
        exact scanned
      · exact scanned

/-- What comes of a number: no identifier may start after its literal. -/
inductive NumberOutcome (start : Nat) (cs : List Char) : Except TokenError Scanned → Prop
  | fault {e : TokenError} (literal : scanLiteral start cs = .error e) :
      NumberOutcome start cs (.error e)
  | identifier {scanned : Scanned} {c : Char} (literal : scanLiteral start cs = .ok scanned)
      (head : c ∈ scanned.rest.head?) (identifier : CharClass.isIdentifierStart c = true) :
      NumberOutcome start cs (.error (.identifierAfterNumber c scanned.stop))
  | number {scanned : Scanned} (literal : scanLiteral start cs = .ok scanned)
      (ends : ∀ c ∈ scanned.rest.head?, CharClass.isIdentifierStart c = false) :
      NumberOutcome start cs (.ok scanned)

theorem scanNumber_eq_iff {start : Nat} {cs : List Char} {r : Except TokenError Scanned} :
    scanNumber start cs = r ↔ NumberOutcome start cs r := by
  unfold scanNumber
  constructor
  · intro h
    split at h
    · rename_i literal
      exact h ▸ .fault literal
    · rename_i scanned literal
      split at h
      · rename_i identifier
        obtain ⟨head, identifier⟩ := Option.filter_eq_some_iff.1 identifier
        exact h ▸ .identifier literal head identifier
      · rename_i ends
        exact h ▸ .number literal (filter_head?_eq_none_iff.1 ends)
  · intro h
    cases h with
    | fault literal => rw [literal]
    | identifier literal head identifier =>
      rw [literal]
      simp only [Option.filter_eq_some_iff.2 ⟨head, identifier⟩]
    | number literal ends =>
      rw [literal]
      simp only [filter_head?_eq_none_iff.2 ends]

/-! ## Progress -/

theorem scanRadix_rest_le {start : Nat} {radix : Radix} {cs : List Char} {r : Scanned}
    (h : scanRadix start radix cs = .ok r) : r.rest.length ≤ cs.length := by
  have whole := congrArg List.length (Literal.run_append_afterRun radix.base cs)
  have outcome := scanRadix_eq_iff.1 h
  generalize Literal.afterRun radix.base cs = rest at whole outcome
  rw [List.length_append] at whole
  cases outcome with
  | bigInteger _ suffix =>
    rw [suffix, List.length_cons] at whole
    dsimp only
    omega
  | number =>
    dsimp only
    omega

theorem scanDecimal_rest_lt {start : Nat} {cs : List Char} {r : Scanned}
    (h : scanDecimal start cs = .ok r) : r.rest.length < cs.length := by
  have whole := congrArg List.length (DecimalShape.split_chars_append cs)
  have outcome := scanDecimal_eq_iff.1 h
  generalize (DecimalShape.split cs).2 = rest at whole outcome
  cases outcome with
  | literal checks _ =>
    have pos := List.length_pos_iff.2 checks.ne_nil
    simp only [DecimalShape.chars, DecimalShape.numeral, DecimalShape.mantissa,
      List.length_append] at whole
    dsimp only
    omega

/-- A scanned number leaves less text than there was. -/
theorem scanNumber_rest_lt {start : Nat} {cs : List Char} {r : Scanned}
    (h : scanNumber start cs = .ok r) : r.rest.length < cs.length := by
  cases scanNumber_eq_iff.1 h with
  | number literal _ =>
    cases scanLiteral_eq_iff.1 literal with
    | marked text _ scanned =>
      have le := scanRadix_rest_le scanned
      rw [text, List.length_cons, List.length_cons]
      omega
    | unmarked _ scanned => exact scanDecimal_rest_lt scanned

end IntervalRules.Token
