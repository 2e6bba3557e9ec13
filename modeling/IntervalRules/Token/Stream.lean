import IntervalRules.Token.Trivia
import IntervalRules.Token.Number

/-!
The tokens of a text. Each is scanned from the text after the one before it; the last
item is the end of the input or the first error.
-/

namespace IntervalRules.Token

/-- Skips trivia and takes one token, which may be the end of the input, from the front of a
text at offset `pos`. The second part of the result is the text after the token. -/
def scan (pos : Nat) (cs : List Char) : Except TokenError (Token × List Char) :=
  match skipTrivia pos cs with
  | .error e => .error e
  | .ok (start, []) => .ok (⟨.endOfInput, ⟨start, start⟩⟩, [])
  | .ok (start, c :: rest) =>
    let single (kind : TokenKind) : Except TokenError (Token × List Char) :=
      .ok (⟨kind, ⟨start, start + c.utf8Size⟩⟩, rest)
    match CharClass.of c with
    | .digit =>
      match scanNumber start (c :: rest) with
      | .error e => .error e
      | .ok n => .ok (⟨.number n.literal, ⟨start, n.stop⟩⟩, n.rest)
    | .punctuation p => single (.punctuation p)
    | .sign => single (if c = '-' then .minus else .plus)
    | _ => .error (.unexpectedChar c start)

/-- Every token but the end of the input takes something from the text. -/
theorem scan_rest_lt {pos : Nat} {cs : List Char} {r : Token × List Char}
    (h : scan pos cs = .ok r) (hr : r.1.kind ≠ .endOfInput) : r.2.length < cs.length := by
  unfold scan at h
  split at h
  · cases h
  · cases h
    exact absurd rfl hr
  · rename_i start c rest skipped
    have bound := skipTrivia_length_le skipped
    simp only [List.length_cons] at bound
    dsimp only at h
    split at h
    · split at h
      · cases h
      · rename_i number
        have := scanNumber_rest_lt number
        cases h
        simp only [List.length_cons] at this
        dsimp only
        omega
    · cases h
      dsimp only
      omega
    · cases h
      dsimp only
      omega
    · cases h

/-- The tokens of a text at offset `pos`, in order. -/
def itemsFrom (pos : Nat) (cs : List Char) : List (Except TokenError Token) :=
  match _scanned : scan pos cs with
  | .error e => [.error e]
  | .ok r =>
    if _more : r.1.kind = .endOfInput then [.ok r.1]
    else .ok r.1 :: itemsFrom r.1.span.stop r.2
termination_by cs.length
decreasing_by exact scan_rest_lt _scanned _more

/-- What there is to read in a text: tokens up to the end of the input or the first error. -/
def items (text : String) : List (Except TokenError Token) := itemsFrom 0 text.toList

/-- All tokens of a text, or its first error. -/
def tokenize (text : String) : Except TokenError (List Token) := (items text).mapM id

/-- The token after a byte offset. An offset that names no suffix of the text has the end of
the input there. -/
def next (text : String) (offset : Nat) : Except TokenError Token :=
  match Text.suffixAt? offset text.toList with
  | some cs => (scan offset cs).map Prod.fst
  | none => .ok ⟨.endOfInput, ⟨offset, offset⟩⟩

example :
    (tokenize "[0x10, // end").toOption.map (fun tokens => tokens.map (·.kind.text)) =
      some ["'['", "number 16", "','", "end of input"] := by decide +kernel

example : (next "[1,2]" 9).toOption = some ⟨.endOfInput, ⟨9, 9⟩⟩ := by decide +kernel

end IntervalRules.Token
