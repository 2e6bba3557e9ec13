import IntervalRules.Proofs.ErrorSpans
import IntervalRules.Proofs.Items

/-!
Tokens read off the front of a text. They stay the same when the text after them is replaced by
one that does not go on with a number either, such as trivia in front of that text.
-/

namespace IntervalRules.Token

open Expression (Item)
open Literal (EndsBefore)
open Text (byteLength byteLength_append)

/-- The tokens are read from the text at `pos` one after another; the second text is left, at the
second offset. -/
inductive Reads : Nat → List Char → List Token → Nat → List Char → Prop
  | nil (pos : Nat) (cs : List Char) : Reads pos cs [] pos cs
  | token {pos pos' : Nat} {cs rest rest' : List Char} {t : Token} {tokens : List Token}
      (hscan : scan pos cs = .ok (t, rest)) (hkind : t.kind ≠ .endOfInput) :
      Reads t.span.stop rest tokens pos' rest' → Reads pos cs (t :: tokens) pos' rest'

/-- No number that ends before the one text goes on with the other. -/
def KeepsEnds (rest rest' : List Char) : Prop :=
  ∀ number, EndsBefore number rest → EndsBefore number rest'

namespace Reads

variable {pos pos' : Nat} {cs rest : List Char} {tokens : List Token}

theorem append {pos'' : Nat} {rest' : List Char} {more : List Token}
    (h : Reads pos cs tokens pos' rest) (h' : Reads pos' rest more pos'' rest') :
    Reads pos cs (tokens ++ more) pos'' rest' := by
  induction h with
  | nil => exact h'
  | token hscan hkind _ ih => exact .token hscan hkind (ih h')

theorem itemsFrom_eq (h : Reads pos cs tokens pos' rest) :
    itemsFrom pos cs = tokens.map .ok ++ itemsFrom pos' rest := by
  induction h with
  | nil => rfl
  | token hscan hkind _ ih => rw [itemsFrom_of_scan hscan hkind, ih]; rfl

theorem exists_front (h : Reads pos cs tokens pos' rest) :
    ∃ front, cs = front ++ rest ∧ pos' = pos + byteLength front := by
  induction h with
  | nil => exact ⟨[], rfl, rfl⟩
  | token hscan hkind _ ih =>
    obtain ⟨read, hread, hstop⟩ := exists_read_of_scan hscan hkind
    obtain ⟨front, hfront, hlength⟩ := ih
    dsimp only at hread hstop
    refine ⟨read ++ front, by rw [hread, hfront, List.append_assoc], ?_⟩
    rw [hlength, hstop, byteLength_append, Nat.add_assoc]

theorem span_bounds (h : Reads pos cs tokens pos' rest) :
    ∀ t ∈ tokens, t.span.start < t.span.stop ∧ t.span.stop ≤ pos' := by
  induction h with
  | nil => exact nofun
  | token hscan hkind hreads ih =>
    intro t ht
    rcases List.mem_cons.1 ht with rfl | ht
    · obtain ⟨gap, lexeme, hcs, -, hlexeme, -, hspan⟩ := (scan_eq_ok_iff hkind).1 hscan
      have hmarks : Marks _ _ t.span := ⟨gap, lexeme, _, hcs, hlexeme.ne_nil, hspan⟩
      obtain ⟨front, -, hlength⟩ := hreads.exists_front
      exact ⟨hmarks.start_lt_stop.2, by omega⟩
    · exact ih t ht

theorem stop_eq {t : Token} (h : Reads pos cs (tokens ++ [t]) pos' rest) : t.span.stop = pos' := by
  induction tokens generalizing pos cs with
  | nil =>
    cases h with
    | token _ _ h =>
      cases h
      rfl
  | cons u tokens ih =>
    cases h with
    | token _ _ h => exact ih h

end Reads

theorem KeepsEnds.append {rest rest' : List Char} (h : KeepsEnds rest rest') (front : List Char) :
    KeepsEnds (front ++ rest) (front ++ rest') := by
  cases front with
  | nil => exact h
  | cons c front => exact fun _ hends => hends

theorem Delimited.of_keepsEnds {kind : TokenKind} {lexeme rest rest' : List Char}
    (h : Delimited kind lexeme rest) (hkeeps : KeepsEnds rest rest') :
    Delimited kind lexeme rest' :=
  fun x hx => hkeeps lexeme (h x hx)

/-- What is left may be replaced. -/
theorem Reads.replace {pos pos' : Nat} {cs rest rest' : List Char} {tokens : List Token}
    (h : Reads pos cs tokens pos' rest) (hkeeps : KeepsEnds rest rest') :
    ∃ front, cs = front ++ rest ∧ pos' = pos + byteLength front ∧
      Reads pos (front ++ rest') tokens pos' rest' := by
  induction h with
  | nil pos cs => exact ⟨[], rfl, rfl, .nil pos rest'⟩
  | @token pos pos' cs more rest t tokens hscan hkind _ ih =>
    obtain ⟨front, rfl, hlength, hreads⟩ := ih hkeeps
    obtain ⟨gap, lexeme, rfl, hgap, hlexeme, hdelimited, hspan⟩ := (scan_eq_ok_iff hkind).1 hscan
    have hscan' : scan pos (gap ++ (lexeme ++ (front ++ rest'))) = .ok (t, front ++ rest') :=
      (scan_eq_ok_iff hkind).2 ⟨gap, lexeme, rfl, hgap, hlexeme,
        hdelimited.of_keepsEnds (hkeeps.append front), hspan⟩
    refine ⟨gap ++ (lexeme ++ front), by simp, ?_, ?_⟩
    · rw [hlength, hspan]
      simp only [spanAfter, byteLength_append, Nat.add_assoc]
    · simpa using Reads.token hscan' hkind hreads

/-- Tokens at the front of the items are read one after another. -/
theorem exists_reads {pos : Nat} {cs : List Char} {tokens : List Token} {more : List Item}
    (h : itemsFrom pos cs = tokens.map .ok ++ more) (hmore : more ≠ []) :
    ∃ pos' rest, Reads pos cs tokens pos' rest ∧ itemsFrom pos' rest = more := by
  induction tokens generalizing pos cs with
  | nil => exact ⟨pos, cs, .nil pos cs, h⟩
  | cons t tokens ih =>
    cases hscan : scan pos cs with
    | error e =>
      rw [itemsFrom_of_scan_error hscan] at h
      cases h
    | ok r =>
      by_cases hkind : r.1.kind = .endOfInput
      · rw [itemsFrom_of_scan_end hscan hkind] at h
        have hnil := (List.cons.inj h).2
        exact absurd (List.append_eq_nil_iff.1 hnil.symm).2 hmore
      · rw [itemsFrom_of_scan hscan hkind] at h
        obtain ⟨hfirst, hrest⟩ := List.cons.inj h
        obtain ⟨pos', rest, hreads, hitems⟩ := ih hrest
        obtain ⟨t', rest'⟩ := r
        cases hfirst
        exact ⟨pos', rest, .token hscan hkind hreads, hitems⟩

/-! ## What may be put after a number -/

theorem keepsEnds_trivia {trivia : List Char} (h : Trivia trivia) (rest : List Char) :
    KeepsEnds rest (trivia ++ rest) := by
  by_cases hne : trivia = []
  · subst hne
    exact fun _ hends => hends
  · exact fun number _ => (h.stopsNumber hne rest).endsBefore number

theorem keepsEnds_newline {newline : Char} (h : CharClass.isNewline newline = true)
    (tail rest : List Char) : KeepsEnds tail (tail ++ newline :: rest) := by
  cases tail with
  | nil =>
    exact fun number _ => (stopsNumber_blank (isBlank_of_newline h) rest).endsBefore number
  | cons c tail => exact fun _ hends => hends

end IntervalRules.Token
