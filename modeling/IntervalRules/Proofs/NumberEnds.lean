import IntervalRules.Proofs.NumberToken
import IntervalRules.Proofs.Positions
import IntervalRules.Proofs.Relocation

/-!
What may directly follow a number. No identifier starts there, and no digit stands there unless the
number has a suffix. After a suffix any digit is left to the next token: `5n5` is two numbers with
nothing in between.
-/

namespace IntervalRules

open Literal (Form EndsBefore Continues)
open Text (byteLength codePointAt?)

/-- Whether a literal is written with the suffix `n` or `m`. -/
def Literal.hasSuffix : Literal → Bool
  | .number _ => false
  | .bigInteger .. | .decimal _ => true

theorem isIdentifierStart_of_isDigit {c : Char} (h : Text.isDigit 10 c = true) :
    CharClass.isIdentifierStart c = false := by
  rw [Literal.isDigit_iff] at h
  have hseparator : c ≠ '_' := by
    rintro rfl
    simp at h
  have hdollar : c ≠ '$' := by
    rintro rfl
    simp at h
  have hletter : Text.isAlphabetic c = false := by
    rw [Text.isAlphabetic, if_pos (by omega), Bool.eq_false_iff, Ne, Literal.isAsciiLetter_iff]
    omega
  simp [CharClass.isIdentifierStart, hletter, hseparator, hdollar]

namespace Literal.Form

variable {form : Form} {x : Literal}

/-- The suffix is the last character, and without one the last character is neither. -/
theorem hasSuffix_iff (hform : form.WellFormed) (hx : form.literal? = some x) :
    x.hasSuffix = true ↔ form.chars.getLast? = some 'n' ∨ form.chars.getLast? = some 'm' := by
  have hwithout {s : DecimalShape} (hshape : form.shape? = some s) (hnone : s.suffix = none) :
      ¬ (form.chars.getLast? = some 'n' ∨ form.chars.getLast? = some 'm') := by
    obtain ⟨hn, hm⟩ := DecimalShape.getLast?_chars_ne (proper_of_shape hshape hform).1 hnone
    rw [chars_of_shape hshape]
    exact not_or.2 ⟨hn, hm⟩
  cases form with
  | marked radix mark digits exact =>
    cases exact with
    | false =>
      obtain rfl := Option.some.inj hx
      obtain ⟨hn, hm⟩ := @Token.getLast?_marked radix mark digits hform.2
      simp [hasSuffix, hn, hm]
    | true =>
      obtain rfl := Option.some.inj hx
      have hlast : (marked radix mark digits true).chars.getLast? = some 'n' :=
        List.getLast?_concat (l := '0' :: mark :: digits)
      simp [hasSuffix, hlast]
  | octal digits =>
    obtain rfl := Option.some.inj hx
    simp [hasSuffix, hwithout rfl rfl]
  | decimal integer fraction exponent =>
    obtain ⟨value, -, rfl⟩ := Option.map_eq_some_iff.1 hx
    simp [hasSuffix, hwithout rfl rfl]
  | bigInteger integer =>
    obtain rfl := Option.some.inj hx
    simp [hasSuffix, chars]
  | exactDecimal integer fraction =>
    obtain rfl := Option.some.inj hx
    simp [hasSuffix, chars]

/-- A digit goes on with the number exactly if there is no suffix. -/
theorem continues_digit_iff (hform : form.WellFormed) (hx : form.literal? = some x) {c : Char}
    (hc : Text.isDigit 10 c = true) : Continues form.chars c ↔ x.hasSuffix = false := by
  have hidentifier := isIdentifierStart_of_isDigit hc
  have hpoint : c ≠ '.' := by
    rintro rfl
    cases hc
  rw [← Bool.not_eq_true, hasSuffix_iff hform hx, not_or]
  simp [Continues, hidentifier, hc, hpoint]

end Literal.Form

namespace Token

section

variable {text : String} {offset : Nat} {t : Token} {x : Literal}

/-- What follows a number token does not go on with it. -/
theorem endsBefore_of_next (h : next text offset = .ok t) (hkind : t.kind = .number x) :
    ∃ form : Form, form.WellFormed ∧ form.literal? = some x ∧
      ∀ c, codePointAt? text t.span.stop = some c → ¬ Continues form.chars c := by
  obtain ⟨form, ⟨hform, front, back, htext, -, hstop, hends⟩, hx⟩ := exists_form_of_next h hkind
  refine ⟨form, hform, hx, ?_⟩
  intro c hc
  have hafter := Cutting.codePointAt?_after
    (fun d hd => (visible_of_wellFormed hform d hd).ascii) htext
  rw [← byteLength_of_wellFormed hform, ← hstop, hc] at hafter
  exact hends c hafter.symm

/-- So it starts no identifier, and is a digit after a suffix only. -/
theorem after_number (h : next text offset = .ok t) (hkind : t.kind = .number x) {c : Char}
    (hc : codePointAt? text t.span.stop = some c) :
    CharClass.isIdentifierStart c = false ∧
      (Text.isDigit 10 c = true → x.hasSuffix = true) := by
  obtain ⟨form, hform, hx, hends⟩ := endsBefore_of_next h hkind
  have hnot := hends c hc
  constructor
  · rw [Bool.eq_false_iff]
    exact fun hidentifier => hnot (.inl hidentifier)
  · intro hdigit
    rw [Form.continues_digit_iff hform hx hdigit] at hnot
    simpa using hnot

/-- A number token starts with a digit. -/
theorem digit_at_start (h : next text offset = .ok t) (hkind : t.kind = .number x) :
    ∃ c, codePointAt? text t.span.start = some c ∧ Text.isDigit 10 c = true := by
  obtain ⟨form, ⟨hform, front, back, htext, hstart, -⟩, -⟩ := exists_form_of_next h hkind
  obtain ⟨c, rest, hchars, hc⟩ := exists_digit_head hform
  refine ⟨c, ?_, hc⟩
  rw [hstart, Cutting.codePointAt?_eq htext, hchars]
  rfl

end

/-- Of two number tokens side by side the first has a suffix. -/
theorem hasSuffix_of_adjacent {text : String} {s t : Token} {x y : Literal}
    (hs : .ok s ∈ items text) (ht : .ok t ∈ items text) (hx : s.kind = .number x)
    (hy : t.kind = .number y) (hadjacent : s.span.stop = t.span.start) : x.hasSuffix = true := by
  have hread := (next_of_mem_itemsFrom (List.nil_append text.toList).symm).2
  obtain ⟨c, hc, hdigit⟩ := digit_at_start (hread t ht).1 hy
  rw [← hadjacent] at hc
  exact (after_number (hread s hs).1 hx hc).2 hdigit

/-- A number before a digit is read as itself exactly if it has a suffix. -/
theorem next_before_digit_iff {text : String} {form : Form} {x : Literal} {front rest : List Char}
    {c : Char} (hform : form.WellFormed) (hx : form.literal? = some x)
    (hc : Text.isDigit 10 c = true) (htext : text.toList = front ++ (form.chars ++ c :: rest)) :
    next text (byteLength front) = .ok ⟨.number x,
        ⟨byteLength front, byteLength front + byteLength form.chars⟩⟩ ↔ x.hasSuffix = true := by
  constructor
  · intro h
    have hcode := Cutting.codePointAt?_after
      (fun d hd => (visible_of_wellFormed hform d hd).ascii) htext
    rw [← byteLength_of_wellFormed hform] at hcode
    exact (after_number h rfl hcode).2 hc
  · intro hsuffix
    have hends : EndsBefore form.chars (c :: rest) := by
      rintro _ ⟨⟩
      rw [Form.continues_digit_iff hform hx hc, hsuffix]
      exact Bool.noConfusion
    have hstands : StandsAt form text
        ⟨byteLength front, byteLength front + byteLength form.chars⟩ :=
      ⟨hform, front, c :: rest, htext, rfl, rfl, hends⟩
    obtain ⟨x', hx', hnext⟩ := next_of_standsAt hstands
    obtain rfl : x = x' := Option.some.inj (hx.symm.trans hx')
    exact hnext

/-- How a number ends in a text. The character after a number token starts no identifier, and it is
a digit only if the number has a suffix; so of two number tokens side by side the first one has a
suffix. Every number with a suffix is read as itself before any digit, and no other number is. -/
theorem number_end (text : String) :
    (∀ offset t x, next text offset = .ok t → t.kind = .number x →
      ∀ c, codePointAt? text t.span.stop = some c →
        CharClass.isIdentifierStart c = false ∧
          (Text.isDigit 10 c = true → x.hasSuffix = true)) ∧
    (∀ s t x y, .ok s ∈ items text → .ok t ∈ items text → s.kind = .number x →
      t.kind = .number y → s.span.stop = t.span.start → x.hasSuffix = true) ∧
    ∀ (form : Form) (x : Literal) (c : Char) (front rest : List Char), form.WellFormed →
      form.literal? = some x → Text.isDigit 10 c = true →
      text.toList = front ++ (form.chars ++ c :: rest) →
        (next text (byteLength front) = .ok ⟨.number x,
            ⟨byteLength front, byteLength front + byteLength form.chars⟩⟩ ↔
          x.hasSuffix = true) :=
  ⟨fun _ _ _ hnext hkind _ hc => after_number hnext hkind hc,
    fun _ _ _ _ hs ht hx hy hadjacent => hasSuffix_of_adjacent hs ht hx hy hadjacent,
    fun _ _ _ _ _ hform hx hc htext => next_before_digit_iff hform hx hc htext⟩

/-- A binary number with its suffix, directly before the digit of another number. -/
theorem number_end_binary :
    (next "[0b1n1" 1 = .ok ⟨.number (.bigInteger "1" .binary), ⟨1, 5⟩⟩ ∧
      codePointAt? "[0b1n1" 5 = some '1' ∧ CharClass.isIdentifierStart '1' = false) ∧
    (.ok ⟨.number (.bigInteger "1" .binary), ⟨1, 5⟩⟩ ∈ items "[0b1n1" ∧
      .ok ⟨.number (.number (.ofNat 1)), ⟨5, 6⟩⟩ ∈ items "[0b1n1" ∧
      (Literal.bigInteger "1" .binary).hasSuffix = true) ∧
    ((Form.marked .binary 'b' ['1'] false).WellFormed ∧
      next "0b11" 0 ≠ .ok ⟨.number (.number (.ofNat 1)), ⟨0, 3⟩⟩) := by
  have hnext : next "[0b1n1" 1 = .ok ⟨.number (.bigInteger "1" .binary), ⟨1, 5⟩⟩ := by
    decide +kernel
  have hcode : codePointAt? "[0b1n1" 5 = some '1' := by decide +kernel
  have hfirst : .ok ⟨.number (.bigInteger "1" .binary), ⟨1, 5⟩⟩ ∈ items "[0b1n1" := by
    decide +kernel
  have hsecond : .ok ⟨.number (.number (.ofNat 1)), ⟨5, 6⟩⟩ ∈ items "[0b1n1" := by
    decide +kernel
  have hform : (Form.marked .binary 'b' ['1'] false).WellFormed := by decide
  have hliteral : (Form.marked .binary 'b' ['1'] false).literal? =
      some (.number (.ofNat 1)) := by
    decide +kernel
  have hplain := (number_end "0b11").2.2 _ _ '1' [] [] hform hliteral (by decide) rfl
  refine ⟨⟨hnext, hcode, ((number_end "[0b1n1").1 1 _ _ hnext rfl '1' hcode).1⟩,
    ⟨hfirst, hsecond, (number_end "[0b1n1").2.1 _ _ _ _ hfirst hsecond rfl rfl rfl⟩, hform, ?_⟩
  intro h
  exact absurd (hplain.1 h) (by decide)

/-- `5n5` is two numbers side by side: the first one ends before a digit. -/
theorem not_delimited :
    ¬ (∀ (text : String) (offset : Nat) (t : Token) (x : Literal) (c : Char),
      next text offset = .ok t → t.kind = .number x → codePointAt? text t.span.stop = some c →
        CharClass.isIdentifierStart c = false ∧ Text.isDigit 10 c = false) ∧
    ¬ ∀ (text : String) (s t : Token) (x y : Literal), .ok s ∈ items text → .ok t ∈ items text →
      s.kind = .number x → t.kind = .number y → s.span.stop ≠ t.span.start := by
  have hnext : next "5n5" 0 = .ok ⟨.number (.bigInteger "5" .decimal), ⟨0, 2⟩⟩ := by decide +kernel
  have hcode : codePointAt? "5n5" 2 = some '5' := by decide +kernel
  have hfirst : .ok ⟨.number (.bigInteger "5" .decimal), ⟨0, 2⟩⟩ ∈ items "5n5" := by decide +kernel
  have hsecond : .ok ⟨.number (.number (.ofNat 5)), ⟨2, 3⟩⟩ ∈ items "5n5" := by decide +kernel
  constructor
  · intro h
    have hdigit := (h "5n5" 0 _ _ '5' hnext rfl hcode).2
    cases hdigit
  · intro h
    exact h "5n5" _ _ _ _ hfirst hsecond rfl rfl rfl

end Token

end IntervalRules
