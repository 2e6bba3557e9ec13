import IntervalRules.Proofs.Lexemes

/-!
Where errors are. The span of an error marks a part of the text, of at least one character, that
has not been read yet.
-/

namespace IntervalRules

open Literal (isRunChar)
open Text (byteLength byteLength_append)

/-! ## Separators -/

/-- A separator stands so many characters into the text. -/
def SeparatorAt (offset : Nat) (cs : List Char) : Prop :=
  ∃ front back, cs = front ++ '_' :: back ∧ front.length = offset

theorem SeparatorAt.cons {offset : Nat} {cs : List Char} (c : Char) (h : SeparatorAt offset cs) :
    SeparatorAt (offset + 1) (c :: cs) := by
  obtain ⟨front, back, rfl, rfl⟩ := h
  exact ⟨c :: front, back, rfl, rfl⟩

theorem SeparatorAt.append {offset : Nat} {cs : List Char} (h : SeparatorAt offset cs)
    (before after : List Char) :
    SeparatorAt (before.length + offset) (before ++ (cs ++ after)) := by
  obtain ⟨front, back, rfl, rfl⟩ := h
  exact ⟨before ++ front, back ++ after, by simp, by simp⟩

theorem separatorAt_idxOf {cs : List Char} (h : '_' ∈ cs) : SeparatorAt (cs.idxOf '_') cs := by
  obtain ⟨front, back, rfl, hnot⟩ := List.eq_append_cons_of_mem h
  exact ⟨front, back, rfl, by simp [List.idxOf_append, hnot]⟩

theorem separatorAt_of_misplaced {base : Nat} {afterDigit : Bool} {cs : List Char} {offset : Nat}
    (h : Literal.misplacedSeparator? base afterDigit cs = some offset) : SeparatorAt offset cs := by
  induction cs generalizing afterDigit offset with
  | nil => cases h
  | cons c cs ih =>
    rw [Literal.misplacedSeparator?] at h
    split at h
    · rename_i hc
      split at h
      · obtain ⟨n, hn, rfl⟩ := Option.map_eq_some_iff.1 h
        exact (ih hn).cons c
      · cases h
        exact ⟨[], cs, by rw [hc]; rfl, rfl⟩
    · obtain ⟨n, hn, rfl⟩ := Option.map_eq_some_iff.1 h
      exact (ih hn).cons c

theorem separatorAt_of_fault {s : DecimalShape} {offset : Nat}
    (h : Token.separatorFault? s = some offset) : SeparatorAt offset s.chars := by
  have hinteger {n : Nat} (hn : SeparatorAt n s.integer) : SeparatorAt n s.chars := by
    rw [DecimalShape.chars_eq]
    simpa using hn.append [] (Literal.Form.fractionChars s.fraction ++
      (Literal.Form.exponentChars s.exponent ++ (s.suffix.map Suffix.char).toList))
  rcases Option.or_eq_some_iff.1 h with h | ⟨-, h⟩
  · rcases Option.or_eq_some_iff.1 h with h | ⟨-, h⟩
    · rcases Option.or_eq_some_iff.1 h with h | ⟨-, h⟩
      · exact hinteger (separatorAt_of_misplaced h)
      · obtain ⟨digits, hfraction, h⟩ := Option.bind_eq_some_iff.1 h
        obtain ⟨n, hn, rfl⟩ := Option.map_eq_some_iff.1 h
        have happend := (separatorAt_of_misplaced hn).append (s.integer ++ ['.'])
          (Literal.Form.exponentChars s.exponent ++ (s.suffix.map Suffix.char).toList)
        simpa [DecimalShape.chars_eq, hfraction, Literal.Form.fractionChars] using happend
    · obtain ⟨e, hexponent, h⟩ := Option.bind_eq_some_iff.1 h
      obtain ⟨n, hn, rfl⟩ := Option.map_eq_some_iff.1 h
      have happend := (separatorAt_of_misplaced hn).append
        (s.mantissa ++ e.mark :: e.sign.toList) (s.suffix.map Suffix.char).toList
      simpa [DecimalShape.chars, DecimalShape.numeral, hexponent, Exponent.chars, Nat.add_assoc,
        Nat.add_comm 1] using happend
  · split at h
    · rename_i hzero
      cases h
      rw [Bool.and_eq_true, List.contains_iff_mem] at hzero
      exact hinteger (separatorAt_idxOf hzero.2)
    · cases h

namespace Token

/-- The span is that of a part of the text, which starts at `pos`. -/
def Marks (pos : Nat) (cs : List Char) (span : Span) : Prop :=
  ∃ front marked back, cs = front ++ (marked ++ back) ∧ marked ≠ [] ∧
    span = spanAfter pos front marked

namespace Marks

variable {pos : Nat} {cs : List Char} {span : Span}

theorem start_lt_stop (h : Marks pos cs span) : pos ≤ span.start ∧ span.start < span.stop := by
  obtain ⟨front, marked, back, -, hne, rfl⟩ := h
  have hpos := Text.byteLength_pos hne
  simp only [spanAfter]
  omega

theorem prepend (front : List Char) (h : Marks (pos + byteLength front) cs span) :
    Marks pos (front ++ cs) span := by
  obtain ⟨more, marked, back, rfl, hne, rfl⟩ := h
  refine ⟨front ++ more, marked, back, by rw [List.append_assoc], hne, ?_⟩
  simp only [spanAfter, byteLength_append, Nat.add_assoc]

theorem char {front back : List Char} {c : Char} {p : Nat} (hcs : cs = front ++ c :: back)
    (hp : p = pos + byteLength front) : Marks pos cs ⟨p, p + c.utf8Size⟩ :=
  ⟨front, [c], back, hcs, List.cons_ne_nil c [], by simp [spanAfter, byteLength, hp]⟩

/-- A part at the front. -/
theorem front {marked back : List Char} {stop : Nat} (hcs : cs = marked ++ back)
    (hne : marked ≠ []) (hstop : stop = pos + byteLength marked) : Marks pos cs ⟨pos, stop⟩ :=
  ⟨[], marked, back, hcs, hne, by simp [spanAfter, byteLength, hstop]⟩

end Marks

/-! ## Numbers -/

section

variable {start : Nat} {number rest : List Char}

/-- A separator in a number of ASCII characters. -/
theorem marks_separator (hascii : ∀ c ∈ number, c.toNat < 128) {offset : Nat}
    (h : SeparatorAt offset number) :
    Marks start (number ++ rest) ⟨start + offset, start + offset + 1⟩ := by
  obtain ⟨front, back, rfl, rfl⟩ := h
  have hfront : byteLength front = front.length :=
    Literal.byteLength_of_ascii fun c hc => hascii c (List.mem_append_left _ hc)
  have htext : front ++ '_' :: back ++ rest = front ++ '_' :: (back ++ rest) := by simp
  exact .char htext (by rw [hfront])

/-- A number of ASCII characters. -/
theorem marks_number (hascii : ∀ c ∈ number, c.toNat < 128) (hne : number ≠ []) :
    Marks start (number ++ rest) ⟨start, start + number.length⟩ :=
  .front rfl hne (by rw [Literal.byteLength_of_ascii hascii])

/-- A number of ASCII characters together with the ASCII character after it. -/
theorem marks_number_char (hascii : ∀ c ∈ number, c.toNat < 128) {c : Char} (hc : c.toNat < 128) :
    Marks start (number ++ c :: rest) ⟨start, start + number.length + 1⟩ := by
  have hboth : ∀ d ∈ number ++ [c], d.toNat < 128 := by
    intro d hd
    rcases List.mem_append.1 hd with hd | hd
    · exact hascii d hd
    · rw [List.mem_singleton.1 hd]
      exact hc
  have hmarks : Marks start (number ++ [c] ++ rest) _ := marks_number hboth (by simp)
  rwa [List.append_assoc, List.length_append, ← Nat.add_assoc] at hmarks

/-- The character after a number of ASCII characters. -/
theorem marks_after_number (hascii : ∀ c ∈ number, c.toNat < 128) (c : Char) :
    Marks start (number ++ c :: rest)
      ⟨start + number.length, start + number.length + c.utf8Size⟩ :=
  .char rfl (by rw [Literal.byteLength_of_ascii hascii])

end

variable {start pos : Nat} {cs : List Char} {e : TokenError}

theorem marks_of_scanRadix {radix : Radix} {mark : Char} (hmark : Radix.ofMark? mark = some radix)
    (h : scanRadix start radix cs = .error e) : Marks start ('0' :: mark :: cs) e.span := by
  obtain ⟨digits, rest, rfl, hchars, -, houtcome⟩ := exists_digits_of_scanRadix h
  have hascii := fun c hc => (visible_of_marked_run hmark hchars c hc).ascii
  have hstop : start + 2 + digits.length = start + ('0' :: mark :: digits).length := by
    simp only [List.length_cons]
    omega
  cases houtcome with
  | invalidDigit head =>
    obtain ⟨more, rfl⟩ := List.head?_eq_some_iff.1 head
    rw [hstop]
    exact marks_after_number hascii _
  | noDigits _ empty =>
    subst empty
    exact marks_number hascii (List.cons_ne_nil _ _)
  | @separator offset _ _ misplaced =>
    have hplace := ((separatorAt_of_misplaced misplaced).cons mark).cons '0'
    have hmarks : Marks start ('0' :: mark :: digits ++ rest) _ := marks_separator hascii hplace
    rwa [show start + (offset + 1 + 1) = start + 2 + offset by omega] at hmarks
  | decimalSuffix _ suffix =>
    rw [suffix, hstop]
    exact marks_number_char hascii (by decide)

theorem marks_of_scanDecimal {c : Char} {rest : List Char} (hc : Text.isDigit 10 c = true)
    (h : scanDecimal start (c :: rest) = .error e) : Marks start (c :: rest) e.span := by
  obtain ⟨s, more, htext, hproper, -, hinteger, houtcome⟩ := exists_shape_of_scanDecimal h
  have hne := hinteger c rfl ((Literal.isRunChar_iff 10 c).2 (.inr hc))
  have hascii := fun d hd => (visible_of_proper hproper d hd).ascii
  rw [htext]
  cases houtcome with
  | noDigits empty => exact absurd empty hne
  | noExponentDigits _ head mark =>
    obtain ⟨more, rfl⟩ := List.head?_eq_some_iff.1 head
    refine marks_number_char hascii ?_
    rcases mark with rfl | rfl <;> decide
  | separator _ _ misplaced => exact marks_separator hascii (separatorAt_of_fault misplaced)
  | malformed => exact marks_number hascii (by simp [DecimalShape.chars_eq, hne])

theorem marks_of_scanNumber {c : Char} {rest : List Char} (hc : Text.isDigit 10 c = true)
    (h : scanNumber start (c :: rest) = .error e) : Marks start (c :: rest) e.span := by
  cases scanNumber_eq_iff.1 h with
  | fault literal =>
    cases scanLiteral_eq_iff.1 literal with
    | marked text marked scanned => exact text ▸ marks_of_scanRadix marked scanned
    | unmarked _ scanned => exact marks_of_scanDecimal hc scanned
  | @identifier r d literal head _ =>
    obtain ⟨form, ⟨hform, htext, -, hstop⟩, -⟩ := scanLiteral_sound literal
    obtain ⟨more, hmore⟩ := List.head?_eq_some_iff.1 head
    rw [htext, hmore, hstop]
    exact marks_after_number (fun c hc => (visible_of_wellFormed hform c hc).ascii) d

/-! ## Tokens -/

/-- The span of an error is that of a part of the text that is not read. -/
theorem marks_of_scan (h : scan pos cs = .error e) : Marks pos cs e.span := by
  cases scanFault_of_scan h with
  | @comment gap body =>
    have htext : '/' :: '*' :: body = ['/', '*'] ++ body := rfl
    exact .prepend gap (.front htext (List.cons_ne_nil _ _) rfl)
  | @number gap _ _ _ _ hc hscan => exact .prepend gap (marks_of_scanNumber hc hscan)
  | @character gap rest c => exact .prepend gap (.char (List.nil_append (c :: rest)).symm rfl)

end Token

end IntervalRules
