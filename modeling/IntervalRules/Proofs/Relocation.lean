import IntervalRules.Proofs.Items
import IntervalRules.Proofs.Lexemes

/-!
Tokens and errors at other places. A text that starts `d` bytes later has the same tokens and the
same error, each `d` bytes later: the scanners count on from the offset that they are given and
look at it in no other way.
-/

namespace IntervalRules

instance decidableEqExcept {ε α : Type} [DecidableEq ε] [DecidableEq α] : DecidableEq (Except ε α)
  | .ok x, .ok y => decidable_of_iff (x = y) ⟨congrArg _, Except.ok.inj⟩
  | .error e, .error e' => decidable_of_iff (e = e') ⟨congrArg _, Except.error.inj⟩
  | .ok _, .error _ | .error _, .ok _ => .isFalse nofun

section

variable {ε ε' α α' β β' : Type} (f : ε → ε') (g : α → α')

/-- A result with its error and its value changed. -/
def mapBoth (x : Except ε α) : Except ε' α' := (x.mapError f).map g

@[simp] theorem mapBoth_ok (a : α) : mapBoth f g (.ok a) = .ok (g a) := rfl

@[simp] theorem mapBoth_error (e : ε) : mapBoth f g (.error e : Except ε α) = .error (f e) := rfl

@[simp] theorem mapBoth_pure (a : α) : mapBoth f g (pure a : Except ε α) = pure (g a) := rfl

@[simp] theorem mapBoth_throw (e : ε) : mapBoth f g (throw e : Except ε α) = throw (f e) := rfl

theorem mapBoth_id (x : Except ε α) : mapBoth f id x = x.mapError f := by
  cases x <;> rfl

variable {f g}

theorem mapBoth_bind {g' : β → β'} {x : Except ε α} {next : α → Except ε β}
    {next' : α' → Except ε' β'} (h : ∀ a, x = .ok a → next' (g a) = mapBoth f g' (next a)) :
    mapBoth f g x >>= next' = mapBoth f g' (x >>= next) := by
  cases x with
  | error e => rfl
  | ok a => exact h a rfl

end

/-- The span `d` bytes later. -/
def Span.shift (d : Nat) (s : Span) : Span := ⟨s.start + d, s.stop + d⟩

/-- The same error where its span is placed. -/
def TokenError.relocate (place : Span → Span) (e : TokenError) : TokenError :=
  let span := place e.span
  match e with
  | .unexpectedChar c _ => .unexpectedChar c span.start
  | .unterminatedComment _ => .unterminatedComment span.start
  | .malformedNumber _ fault => .malformedNumber span fault
  | .invalidDigit c radix _ => .invalidDigit c radix span.start
  | .misplacedSeparator _ => .misplacedSeparator span.start
  | .identifierAfterNumber c _ => .identifierAfterNumber c span.start

theorem TokenError.relocate_congr {place place' : Span → Span} {e : TokenError}
    (h : place e.span = place' e.span) : e.relocate place = e.relocate place' := by
  simp only [relocate, h]

def Token.relocate (place : Span → Span) (t : Token) : Token := { t with span := place t.span }

namespace Token

/-- An item where its span is placed. -/
def relocateItem (place : Span → Span) : Except TokenError Token → Except TokenError Token :=
  mapBoth (TokenError.relocate place) (Token.relocate place)

def Scanned.shift (d : Nat) (r : Scanned) : Scanned := { r with stop := r.stop + d }

/-! ## Scanning -/

theorem skipTrivia_shift (pos d : Nat) (cs : List Char) :
    skipTrivia (pos + d) cs =
      mapBoth (TokenError.relocate (Span.shift d)) (fun r => (r.1 + d, r.2))
        (skipTrivia pos cs) := by
  cases fronted cs with
  | @gap gap rest hgap hrest =>
    simp only [skipTrivia_append hgap, skipTrivia_of_noTrivia hrest, mapBoth_ok,
      Nat.add_right_comm pos d]
  | @line gap body hgap hbody =>
    simp only [skipTrivia_endTrivia (.inr ⟨gap, body, hgap, hbody, rfl⟩), mapBoth_ok,
      Nat.add_right_comm pos d]
  | @block gap body hgap hbody =>
    simp only [skipTrivia_append hgap, skipTrivia_open hbody, mapBoth_error,
      Nat.add_right_comm pos d]
    rfl

section

variable {start : Nat} {radix : Radix} {digits rest : List Char} {s : DecimalShape}
  {result : Except TokenError Scanned}

theorem RadixOutcome.shift (h : RadixOutcome start radix digits rest result) (d : Nat) :
    RadixOutcome (start + d) radix digits rest
      (mapBoth (TokenError.relocate (Span.shift d)) (Scanned.shift d) result) := by
  have hplace (m n : Nat) : m + n + d = m + d + n := Nat.add_right_comm m n d
  cases h <;> simp only [mapBoth_ok, mapBoth_error, TokenError.relocate, TokenError.span,
    Span.shift, Scanned.shift, hplace]
  case invalidDigit head digit => exact .invalidDigit head digit
  case noDigits ends empty => exact .noDigits ends empty
  case separator ends ne_nil misplaced => exact .separator ends ne_nil misplaced
  case decimalSuffix checks suffix => exact .decimalSuffix checks suffix
  case bigInteger checks suffix => exact .bigInteger checks suffix
  case number checks bare => exact .number checks bare

theorem DecimalOutcome.shift (h : DecimalOutcome start s rest result) (d : Nat) :
    DecimalOutcome (start + d) s rest
      (mapBoth (TokenError.relocate (Span.shift d)) (Scanned.shift d) result) := by
  have hplace (m n : Nat) : m + n + d = m + d + n := Nat.add_right_comm m n d
  cases h <;> simp only [mapBoth_ok, mapBoth_error, TokenError.relocate, TokenError.span,
    Span.shift, Scanned.shift, hplace]
  case noDigits empty => exact .noDigits empty
  case noExponentDigits ne_nil head mark => exact .noExponentDigits ne_nil head mark
  case separator ne_nil ends misplaced => exact .separator ne_nil ends misplaced
  case malformed checks refused => exact .malformed checks refused
  case literal checks accepted => exact .literal checks accepted

end

theorem scanRadix_shift (start d : Nat) (radix : Radix) (cs : List Char) :
    scanRadix (start + d) radix cs =
      mapBoth (TokenError.relocate (Span.shift d)) (Scanned.shift d)
        (scanRadix start radix cs) :=
  scanRadix_eq_iff.2 ((scanRadix_outcome start radix cs).shift d)

theorem scanDecimal_shift (start d : Nat) (cs : List Char) :
    scanDecimal (start + d) cs =
      mapBoth (TokenError.relocate (Span.shift d)) (Scanned.shift d) (scanDecimal start cs) :=
  scanDecimal_eq_iff.2 ((scanDecimal_outcome start cs).shift d)

theorem scanLiteral_shift (start d : Nat) (cs : List Char) :
    scanLiteral (start + d) cs =
      mapBoth (TokenError.relocate (Span.shift d)) (Scanned.shift d) (scanLiteral start cs) := by
  rw [scanLiteral_eq_iff]
  cases scanLiteral_eq_iff.1 (rfl : scanLiteral start cs = _) with
  | marked text marked scanned =>
    exact .marked text marked (by rw [scanRadix_shift, scanned])
  | unmarked unmarked scanned => exact .unmarked unmarked (by rw [scanDecimal_shift, scanned])

theorem scanNumber_shift (start d : Nat) (cs : List Char) :
    scanNumber (start + d) cs =
      mapBoth (TokenError.relocate (Span.shift d)) (Scanned.shift d) (scanNumber start cs) := by
  have hliteral := scanLiteral_shift start d cs
  have houtcome := scanNumber_eq_iff.1 (rfl : scanNumber start cs = _)
  rw [scanNumber_eq_iff]
  generalize scanNumber start cs = result at houtcome ⊢
  cases houtcome with
  | fault literal =>
    rw [literal] at hliteral
    exact .fault hliteral
  | identifier literal head identifier =>
    rw [literal] at hliteral
    exact @NumberOutcome.identifier _ _ (Scanned.shift d _) _ hliteral head identifier
  | number literal ends =>
    rw [literal] at hliteral
    exact @NumberOutcome.number _ _ (Scanned.shift d _) hliteral ends

/-- A token is scanned the same at every offset. -/
theorem scan_shift (pos d : Nat) (cs : List Char) :
    scan (pos + d) cs =
      mapBoth (TokenError.relocate (Span.shift d))
        (fun r => (r.1.relocate (Span.shift d), r.2)) (scan pos cs) := by
  unfold scan
  rw [skipTrivia_shift]
  cases skipTrivia pos cs with
  | error e => rfl
  | ok r =>
    obtain ⟨start, _ | ⟨c, rest⟩⟩ := r
    · rfl
    · have hplace (m n : Nat) : m + d + n = m + n + d := Nat.add_right_comm m d n
      simp only [mapBoth_ok, scanNumber_shift]
      cases CharClass.of c with
      | digit =>
        cases scanNumber start (c :: rest) with
        | error e => rfl
        | ok n => rfl
      | _ => simp only [mapBoth_ok, mapBoth_error, hplace, Token.relocate, Span.shift,
          TokenError.relocate, TokenError.span]

/-! ## All items -/

/-- A text has the same items at every offset. -/
theorem itemsFrom_shift (pos d : Nat) (cs : List Char) :
    itemsFrom (pos + d) cs = (itemsFrom pos cs).map (relocateItem (Span.shift d)) := by
  fun_induction itemsFrom pos cs with
  | case1 pos cs e hscan =>
    have hshift := scan_shift pos d cs
    rw [hscan] at hshift
    rw [itemsFrom_of_scan_error hshift]
    rfl
  | case2 pos cs r hscan hend =>
    have hshift := scan_shift pos d cs
    rw [hscan] at hshift
    rw [itemsFrom_of_scan_end hshift hend]
    rfl
  | case3 pos cs r hscan hmore ih =>
    have hshift := scan_shift pos d cs
    rw [hscan] at hshift
    rw [itemsFrom_of_scan hshift hmore, List.map_cons, ← ih]
    rfl

end Token

end IntervalRules
