import IntervalRules.Proofs.NumberToken
import IntervalRules.Proofs.Items

/-!
Texts that are spelled out of tokens: read at any offset, such a text has tokens of the given
kinds and the end of the input after them. A token may be put in front of a text if the text does
not go on with it.
-/

namespace IntervalRules.Token

open Literal (Form EndsBefore)

/-- At every offset the text has tokens of these kinds, and nothing else. -/
def Spells (cs : List Char) (kinds : List TokenKind) : Prop :=
  ∀ pos, ∃ tokens : List Token,
    itemsFrom pos cs = tokens.map .ok ∧ tokens.map Token.kind = kinds

namespace Spells

variable {cs rest : List Char} {kinds : List TokenKind}

theorem nil : Spells [] [.endOfInput] :=
  fun pos => ⟨[⟨.endOfInput, ⟨pos, pos⟩⟩],
    itemsFrom_of_scan_end (scan_of_endTrivia (.inl .nil) pos) rfl, rfl⟩

theorem lexeme {kind : TokenKind} {cs : List Char} (hcs : Lexeme kind cs)
    (hdelimited : Delimited kind cs rest) (h : Spells rest kinds) :
    Spells (cs ++ rest) (kind :: kinds) := by
  intro pos
  have hfirst := scan_of_lexeme hcs hdelimited pos
  obtain ⟨tokens, hitems, hkinds⟩ := h (pos + Text.byteLength cs)
  refine ⟨⟨kind, ⟨pos, pos + Text.byteLength cs⟩⟩ :: tokens, ?_, by rw [List.map_cons, hkinds]⟩
  rw [itemsFrom_of_scan hfirst hcs.kind_ne, hitems, List.map_cons]

theorem trivia {gap : List Char} (hgap : Trivia gap) (h : Spells cs kinds) :
    Spells (gap ++ cs) kinds := by
  intro pos
  rw [itemsFrom_congr (scan_append_trivia hgap pos cs)]
  exact h (pos + Text.byteLength gap)

theorem space (h : Spells cs kinds) : Spells (' ' :: cs) kinds :=
  h.trivia (.blank (by decide) .nil)

theorem punctuation (p : Punctuation) (h : Spells rest kinds) :
    Spells (p.char :: rest) (.punctuation p :: kinds) :=
  h.lexeme (.punctuation p) nofun

theorem minus (h : Spells rest kinds) : Spells ('-' :: rest) (.minus :: kinds) :=
  h.lexeme .minus nofun

theorem number {form : Form} {x : Literal} (hform : form.WellFormed)
    (hliteral : form.literal? = some x) (hends : EndsBefore form.chars rest)
    (h : Spells rest kinds) : Spells (form.chars ++ rest) (.number x :: kinds) :=
  h.lexeme (.number hform hliteral) fun _ _ => hends

end Spells

end IntervalRules.Token
