import IntervalRules.Proofs.Lexemes

/-!
Number tokens in a text. The token after any offset is a number exactly if, past the trivia
there, the text has a number of the grammar; its span and literal are those of that number.
-/

namespace IntervalRules.Token

open Literal (Form EndsBefore)
open Text (byteLength_append)

/-- A number of the grammar stands at the span in the text and ends there. -/
def StandsAt (form : Form) (text : String) (span : Span) : Prop :=
  form.WellFormed ∧ ∃ front back, text.toList = front ++ (form.chars ++ back) ∧
    span.start = Text.byteLength front ∧
    span.stop = Text.byteLength front + Text.byteLength form.chars ∧
    EndsBefore form.chars back

theorem exists_form_of_next {text : String} {offset : Nat} {token : Token} {x : Literal}
    (h : next text offset = .ok token) (hkind : token.kind = .number x) :
    ∃ form, StandsAt form text token.span ∧ form.literal? = some x := by
  have hne : token.kind ≠ .endOfInput := by
    rw [hkind]
    exact nofun
  obtain ⟨front, cs, rest, htext, hoffset, hscan⟩ := exists_scan_of_next h hne
  obtain ⟨gap, lexeme, rfl, -, hlexeme, hdelimited, hspan⟩ := (scan_eq_ok_iff hne).1 hscan
  rw [hkind] at hlexeme
  cases hlexeme with
  | @number form _ hform hx =>
    refine ⟨form, ⟨hform, front ++ gap, rest, ?_, ?_, ?_, hdelimited x hkind⟩, hx⟩
    · rw [htext, List.append_assoc]
    · rw [hspan, byteLength_append, hoffset, spanAfter]
    · rw [hspan, byteLength_append, hoffset, spanAfter]

theorem next_of_standsAt {form : Form} {text : String} {span : Span}
    (h : StandsAt form text span) :
    ∃ x, form.literal? = some x ∧ next text span.start = .ok ⟨.number x, span⟩ := by
  obtain ⟨hform, front, back, htext, hstart, hstop, hends⟩ := h
  obtain ⟨start, stop⟩ := span
  dsimp only at hstart hstop
  obtain ⟨x, hx⟩ := Option.isSome_iff_exists.1 (Form.literal?_isSome hform)
  have hscan := scan_of_lexeme (.number hform hx) (fun _ _ => hends) start
  refine ⟨x, hx, ?_⟩
  rw [next_of_front htext hstart.symm, hscan, hstop, hstart]
  rfl

/-- The literal grammar, exactly: a number token is a number of the grammar with the literal it
denotes, and each number of the grammar that ends in the text is the token there. -/
theorem next_number_exact (text : String) :
    (∀ offset token x, next text offset = .ok token → token.kind = .number x →
      ∃ form, StandsAt form text token.span ∧ form.literal? = some x) ∧
    ∀ form span, StandsAt form text span →
      ∃ x, form.literal? = some x ∧ next text span.start = .ok ⟨.number x, span⟩ :=
  ⟨fun _ _ _ => exists_form_of_next, fun _ _ => next_of_standsAt⟩

end IntervalRules.Token
