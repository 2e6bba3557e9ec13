import IntervalRules.Text.Blank
import IntervalRules.Token.Number

/-!
Digits by their code points, and runs of digits and separators: where a run in the text ends,
and that no separator is found misplaced exactly if each stands between two digits.
-/

namespace IntervalRules.Literal

open Text (isDigit)

/-! ## Characters -/

theorem char_le_iff (c d : Char) : c ≤ d ↔ c.toNat ≤ d.toNat := by
  rw [Char.le_def, UInt32.le_iff_toNat_le]
  rfl

theorem isDigit_iff (base : Nat) (c : Char) :
    isDigit base c = true ↔
      (48 ≤ c.toNat ∧ c.toNat ≤ 57 ∧ c.toNat < 48 + base) ∨
        (97 ≤ c.toNat ∧ c.toNat ≤ 102 ∧ c.toNat < 87 + base) ∨
          (65 ≤ c.toNat ∧ c.toNat ≤ 70 ∧ c.toNat < 55 + base) := by
  simp only [isDigit, Text.digit?, char_le_iff, show '0'.toNat = 48 from rfl,
    show '9'.toNat = 57 from rfl, show 'a'.toNat = 97 from rfl, show 'f'.toNat = 102 from rfl,
    show 'A'.toNat = 65 from rfl, show 'F'.toNat = 70 from rfl]
  split
  · simp [Option.filter]
    omega
  · split
    · simp [Option.filter]
      omega
    · split
      · simp [Option.filter]
        omega
      · simp
        omega

theorem not_isBlank_of_isDigit {c : Char} (h : isDigit 10 c = true) : Text.isBlank c = false := by
  rw [isDigit_iff] at h
  rw [Bool.eq_false_iff]
  simp [Text.isBlank]
  omega

theorem isAsciiLetter_iff (c : Char) :
    Text.isAsciiLetter c = true ↔
      (97 ≤ c.toNat ∧ c.toNat ≤ 122) ∨ (65 ≤ c.toNat ∧ c.toNat ≤ 90) := by
  simp only [Text.isAsciiLetter, Bool.or_eq_true, Bool.and_eq_true, decide_eq_true_eq, char_le_iff,
    show 'a'.toNat = 97 from rfl, show 'z'.toNat = 122 from rfl, show 'A'.toNat = 65 from rfl,
    show 'Z'.toNat = 90 from rfl]

theorem isAlphabetic_of_ascii {c : Char}
    (h : (97 ≤ c.toNat ∧ c.toNat ≤ 122) ∨ (65 ≤ c.toNat ∧ c.toNat ≤ 90)) :
    Text.isAlphabetic c = true := by
  rw [Text.isAlphabetic, if_pos (by omega)]
  exact (isAsciiLetter_iff c).2 h

/-- A digit of any radix is a decimal digit or a letter. -/
theorem isDigit_or_isIdentifierStart {base : Nat} {c : Char} (h : isDigit base c = true) :
    isDigit 10 c = true ∨ CharClass.isIdentifierStart c = true := by
  rw [isDigit_iff] at h
  rcases h with h | h | h
  · left
    rw [isDigit_iff]
    omega
  · right
    simp [CharClass.isIdentifierStart, isAlphabetic_of_ascii (c := c) (by omega)]
  · right
    simp [CharClass.isIdentifierStart, isAlphabetic_of_ascii (c := c) (by omega)]

theorem isRunChar_iff (base : Nat) (c : Char) :
    isRunChar base c = true ↔ c = '_' ∨ isDigit base c = true := by
  simp [isRunChar]

theorem isDigit_separator (base : Nat) : isDigit base '_' = false := by
  rw [Bool.eq_false_iff]
  intro h
  rw [isDigit_iff, show '_'.toNat = 95 from rfl] at h
  omega

theorem toNat_of_isRunChar {base : Nat} {c : Char} (h : isRunChar base c = true) :
    48 ≤ c.toNat ∧ c.toNat ≤ 102 ∧ ¬ (57 < c.toNat ∧ c.toNat < 65) := by
  rw [isRunChar_iff, isDigit_iff] at h
  rcases h with rfl | h
  · decide
  · omega

theorem utf8Size_of_ascii {c : Char} (h : c.toNat < 128) : c.utf8Size = 1 := by
  rw [Char.utf8Size_eq_one_iff, UInt32.le_iff_toNat_le]
  have hval : c.toNat = c.val.toNat := rfl
  have hlimit : (127 : UInt32).toNat = 127 := rfl
  omega

theorem byteLength_of_ascii {cs : List Char} (h : ∀ c ∈ cs, c.toNat < 128) :
    Text.byteLength cs = cs.length := by
  induction cs with
  | nil => rfl
  | cons c cs ih =>
    rw [Text.byteLength, utf8Size_of_ascii (h c List.mem_cons_self),
      ih fun d hd => h d (List.mem_cons_of_mem c hd), List.length_cons, Nat.add_comm]

/-! ## The end of a run -/

/-- No run of the radix goes on at the front of the text. -/
def StopsRun (base : Nat) (cs : List Char) : Prop := ∀ c ∈ cs.head?, isRunChar base c = false

theorem isRunChar_of_mem_run {base : Nat} {cs : List Char} {c : Char} (h : c ∈ run base cs) :
    isRunChar base c = true :=
  List.all_eq_true.1 List.all_takeWhile c h

theorem stopsRun_afterRun (base : Nat) (cs : List Char) : StopsRun base (afterRun base cs) := by
  intro c hc
  have h := List.head?_dropWhile_not (isRunChar base) cs
  rw [show (cs.dropWhile (isRunChar base)).head? = some c from hc] at h
  exact h

theorem run_of_stopsRun {base : Nat} {cs : List Char} (h : StopsRun base cs) :
    run base cs = [] := by
  cases cs with
  | nil => rfl
  | cons c cs => simp [run, h c rfl]

theorem afterRun_of_stopsRun {base : Nat} {cs : List Char} (h : StopsRun base cs) :
    afterRun base cs = cs := by
  cases cs with
  | nil => rfl
  | cons c cs => simp [afterRun, h c rfl]

theorem run_append {base : Nat} {digits rest : List Char}
    (hdigits : ∀ c ∈ digits, isRunChar base c = true) (hrest : StopsRun base rest) :
    run base (digits ++ rest) = digits := by
  rw [run, List.takeWhile_append_of_pos hdigits, ← run, run_of_stopsRun hrest, List.append_nil]

theorem afterRun_append {base : Nat} {digits rest : List Char}
    (hdigits : ∀ c ∈ digits, isRunChar base c = true) (hrest : StopsRun base rest) :
    afterRun base (digits ++ rest) = rest := by
  rw [afterRun, List.dropWhile_append_of_pos hdigits, ← afterRun, afterRun_of_stopsRun hrest]

/-! ## Separators -/

/-- Digits of a radix, at least one, and separators, each between two digits. -/
structure DigitRun (base : Nat) (cs : List Char) : Prop where
  ne_nil : cs ≠ []
  chars : ∀ c ∈ cs, isRunChar base c = true
  separated : ∀ front back, cs = front ++ '_' :: back →
    front.getLast?.any (isDigit base) = true ∧ back.head?.any (isDigit base) = true

/-- The scanner's flag says what stood before the text. -/
theorem misplacedSeparator?_eq_none_iff (base : Nat) (afterDigit : Bool) (cs : List Char) :
    misplacedSeparator? base afterDigit cs = none ↔
      ∀ front back, cs = front ++ '_' :: back →
        front.getLast?.elim afterDigit (isDigit base) = true ∧
          back.head?.any (isDigit base) = true := by
  induction cs generalizing afterDigit with
  | nil => simp [misplacedSeparator?]
  | cons c cs ih =>
    have hsplit : (∀ front back, c :: cs = front ++ '_' :: back →
        front.getLast?.elim afterDigit (isDigit base) = true ∧
          back.head?.any (isDigit base) = true) ↔
        (c = '_' → afterDigit = true ∧ cs.head?.any (isDigit base) = true) ∧
          misplacedSeparator? base (isDigit base c) cs = none := by
      rw [ih]
      constructor
      · intro h
        refine ⟨fun hc => h [] cs (by rw [hc, List.nil_append]), ?_⟩
        intro front back hcs
        have hplace := h (c :: front) back (by rw [hcs, List.cons_append])
        rw [List.getLast?_cons] at hplace
        cases hlast : front.getLast? <;> simpa [hlast] using hplace
      · rintro ⟨hhead, htail⟩ front back hcs
        cases front with
        | nil =>
          injection hcs with hc hback
          subst hback
          exact hhead hc
        | cons d front =>
          injection hcs with hc hback
          subst hc
          have hplace := htail front back hback
          rw [List.getLast?_cons]
          cases hlast : front.getLast? <;> simpa [hlast] using hplace
    rw [hsplit, misplacedSeparator?]
    by_cases hc : c = '_'
    · subst hc
      rw [if_pos rfl, isDigit_separator]
      cases hplace : afterDigit && cs.head?.any (isDigit base) <;> simp_all
    · rw [if_neg hc]
      simp [hc]

theorem digitRun_iff {base : Nat} {cs : List Char} (hchars : ∀ c ∈ cs, isRunChar base c = true) :
    DigitRun base cs ↔ cs ≠ [] ∧ misplacedSeparator? base false cs = none := by
  have hany (o : Option Char) : o.elim false (isDigit base) = o.any (isDigit base) := by
    cases o <;> rfl
  simp only [misplacedSeparator?_eq_none_iff, hany]
  exact ⟨fun h => ⟨h.ne_nil, h.separated⟩, fun h => ⟨h.1, hchars, h.2⟩⟩

theorem DigitRun.head {base : Nat} {cs : List Char} (h : DigitRun base cs) :
    ∃ c rest, cs = c :: rest ∧ isDigit base c = true := by
  cases cs with
  | nil => exact absurd rfl h.ne_nil
  | cons c rest =>
    refine ⟨c, rest, rfl, ?_⟩
    rcases (isRunChar_iff base c).1 (h.chars c List.mem_cons_self) with rfl | hc
    · exact absurd (h.separated [] rest rfl).1 (by simp)
    · exact hc

theorem isDigit_of_mem_withoutSeparators {base : Nat} {cs : List Char} {c : Char}
    (hchars : ∀ c ∈ cs, isRunChar base c = true) (h : c ∈ withoutSeparators cs) :
    isDigit base c = true := by
  rw [withoutSeparators, List.mem_filter] at h
  rcases (isRunChar_iff base c).1 (hchars c h.1) with rfl | hc
  · exact absurd h.2 (by decide)
  · exact hc

theorem DigitRun.withoutSeparators_ne_nil {base : Nat} {cs : List Char} (h : DigitRun base cs) :
    withoutSeparators cs ≠ [] := by
  obtain ⟨c, rest, rfl, hc⟩ := h.head
  have hne : c ≠ '_' := by
    rintro rfl
    rw [isDigit_separator] at hc
    cases hc
  simp [withoutSeparators, hne]

end IntervalRules.Literal
