import IntervalRules.Command.Output

/-!
Errors as JSON. The grammar of JSON is given here as far as an error needs it, without blanks and
with the escapes of a string read back to the characters they stand for. What the program writes
for an error is one object of that grammar, and its first field is the message.
-/

namespace IntervalRules.Json

/-! ## Grammar -/

/-- The letters that stand for a character after a backslash. -/
def escapes : List (Char × Char) :=
  [('"', '"'), ('\\', '\\'), ('/', '/'), ('b', '\x08'), ('f', '\x0c'), ('n', '\n'), ('r', '\r'),
    ('t', '\t')]

/-- What stands between the quotes of a string, and the characters that it means. -/
inductive Quotes : List Char → List Char → Prop
  | nil : Quotes [] []
  | plain {c : Char} {body text : List Char} (hcontrol : 0x20 ≤ c.toNat) (hquote : c ≠ '"')
      (hbackslash : c ≠ '\\') : Quotes body text → Quotes (c :: body) (c :: text)
  | escape {letter c : Char} {body text : List Char} (h : (letter, c) ∈ escapes) :
      Quotes body text → Quotes ('\\' :: letter :: body) (c :: text)
  | code {digits : List Char} {c : Char} {body text : List Char} (hlength : digits.length = 4)
      (hdigits : ∀ d ∈ digits, Text.isDigit 16 d = true) (hcode : Text.natOf 16 digits = c.toNat) :
      Quotes body text → Quotes ('\\' :: 'u' :: digits ++ body) (c :: text)

/-- Strings, numbers without sign, fraction and exponent, and lists of such values. -/
inductive IsValue : List Char → Prop
  | text {body text : List Char} : Quotes body text → IsValue ('"' :: body ++ ['"'])
  | natural (n : Nat) : IsValue (Nat.toDigits 10 n)
  | list {items : List (List Char)} : (∀ item ∈ items, IsValue item) →
      IsValue ('[' :: [','].intercalate items ++ [']'])

/-- A field: what stands between the quotes of its name, and its value. -/
structure IsField (name value : List Char) : Prop where
  name : ∃ text, Quotes name text
  value : IsValue value

/-- An object of one or more fields. -/
def IsObject (fields : List (List Char × List Char)) (cs : List Char) : Prop :=
  fields ≠ [] ∧ (∀ field ∈ fields, IsField field.1 field.2) ∧
    cs = '\x7b' :: [','].intercalate (fields.map fun field =>
      '"' :: field.1 ++ '"' :: ':' :: field.2) ++ ['\x7d']

/-! ## Strings -/

theorem isDigit_digitChar {d : Nat} (hd : d < 16) : Text.isDigit 16 (Nat.digitChar d) = true := by
  decide +revert

theorem natOf_digitChars :
    ∀ high < 16, ∀ low < 16,
      Text.natOf 16 ['0', '0', Nat.digitChar high, Nat.digitChar low] = 16 * high + low := by
  decide

/-- The characters that a letter stands for. -/
def lettered : List Char := ['"', '\\', '\x08', '\t', '\n', '\x0c', '\r']

theorem escapeChar_of_lettered :
    ∀ c ∈ lettered, ∃ letter, escapeChar c = ['\\', letter] ∧ (letter, c) ∈ escapes := by
  intro c hc
  simp only [lettered, List.mem_cons, List.not_mem_nil, or_false] at hc
  rcases hc with rfl | rfl | rfl | rfl | rfl | rfl | rfl <;> exact ⟨_, rfl, by decide⟩

theorem escapeChar_of_not_lettered {c : Char} (h : c ∉ lettered) :
    escapeChar c =
      if c.toNat < 0x20 then
        ['\\', 'u', '0', '0', Nat.digitChar (c.toNat / 16), Nat.digitChar (c.toNat % 16)]
      else [c] := by
  simp only [lettered, List.mem_cons, List.not_mem_nil, or_false, not_or] at h
  obtain ⟨hquote, hbackslash, hbackspace, htab, hnewline, hfeed, hreturn⟩ := h
  rw [escapeChar, if_neg (not_or.2 ⟨hquote, hbackslash⟩), if_neg hbackspace, if_neg htab,
    if_neg hnewline, if_neg hfeed, if_neg hreturn]
  rfl

/-- A character is written so that it is read back as itself. -/
theorem Quotes.cons_escapeChar {body text : List Char} (h : Quotes body text) (c : Char) :
    Quotes (escapeChar c ++ body) (c :: text) := by
  by_cases hlettered : c ∈ lettered
  · obtain ⟨letter, hwritten, hescape⟩ := escapeChar_of_lettered c hlettered
    rw [hwritten]
    exact .escape hescape h
  · rw [escapeChar_of_not_lettered hlettered]
    split
    · rename_i hcontrol
      have hhigh : c.toNat / 16 < 16 := by omega
      have hlow : c.toNat % 16 < 16 := Nat.mod_lt _ (by decide)
      refine @Quotes.code ['0', '0', Nat.digitChar (c.toNat / 16), Nat.digitChar (c.toNat % 16)]
        c body text rfl ?_ ?_ h
      · simp only [List.forall_mem_cons]
        exact ⟨by decide, by decide, isDigit_digitChar hhigh, isDigit_digitChar hlow, nofun⟩
      · rw [natOf_digitChars _ hhigh _ hlow]
        omega
    · rename_i hcontrol
      simp only [lettered, List.mem_cons, not_or] at hlettered
      exact .plain (by omega) hlettered.1 hlettered.2.1 h

theorem quotes_flatMap_escapeChar (text : List Char) :
    Quotes (text.flatMap escapeChar) text := by
  induction text with
  | nil => exact .nil
  | cons c text ih =>
    rw [List.flatMap_cons]
    exact ih.cons_escapeChar c

theorem isValue_quote (s : String) : IsValue (quote s) :=
  .text (quotes_flatMap_escapeChar s.toList)

/-! ## Objects -/

theorem isValue_write_span (span : Span) :
    IsValue (Json.list [.natural span.start, .natural span.stop]).write := by
  have hitems : ∀ item ∈ [Nat.toDigits 10 span.start, Nat.toDigits 10 span.stop], IsValue item :=
    List.forall_mem_cons.2 ⟨.natural _, List.forall_mem_singleton.2 (.natural _)⟩
  have hvalue := IsValue.list hitems
  simpa [write, writeItems, List.intercalate_cons_cons] using hvalue

theorem quote_error : quote "error" = '"' :: "error".toList ++ ['"'] := by decide

theorem quote_span : quote "span" = '"' :: "span".toList ++ ['"'] := by decide

/-- An error is written as one object with the message in its first field. -/
theorem isObject_write_error (e : CommandError) :
    ∃ body fields, Quotes body e.message.toList ∧
      IsObject (("error".toList, '"' :: body ++ ['"']) :: fields) e.json.write := by
  have hbody : Quotes _ e.message.toList := quotes_flatMap_escapeChar e.message.toList
  have herror : IsField "error".toList (quote e.message) :=
    ⟨⟨_, quotes_flatMap_escapeChar "error".toList⟩, isValue_quote e.message⟩
  cases hlocation : e.location? with
  | none =>
    have hwrite : e.json.write =
        '\x7b' :: (quote "error" ++ ':' :: quote e.message) ++ ['\x7d'] := by
      rw [CommandError.json, hlocation]
      rfl
    refine ⟨_, [], hbody, List.cons_ne_nil _ _, List.forall_mem_singleton.2 herror, ?_⟩
    rw [hwrite, quote_error]
    simp [quote]
  | some located =>
    obtain ⟨source, span⟩ := located
    let value := Json.list [.natural span.start, .natural span.stop]
    have hspan : IsField "span".toList value.write :=
      ⟨⟨_, quotes_flatMap_escapeChar "span".toList⟩, isValue_write_span span⟩
    have hwrite : e.json.write =
        '\x7b' :: (quote "error" ++ ':' :: quote e.message ++ ',' ::
          (quote "span" ++ ':' :: value.write)) ++ ['\x7d'] := by
      rw [CommandError.json, hlocation]
      rfl
    refine ⟨_, [("span".toList, value.write)], hbody, List.cons_ne_nil _ _,
      List.forall_mem_cons.2 ⟨herror, List.forall_mem_singleton.2 hspan⟩, ?_⟩
    rw [hwrite, quote_error, quote_span]
    simp [quote, List.intercalate_cons_cons]

end IntervalRules.Json
