import IntervalRules.Proofs.NumberScan
import IntervalRules.Proofs.Trivia
import IntervalRules.Token.Stream

/-!
What is read as one token. A token is read from trivia and a lexeme of its kind (`scan_eq_ok_iff`),
where only a number depends on what follows it; the end of the input is read where trivia is all
that is left (`scan_eq_end_iff`). Where there is no token, a comment does not end, a number is refused or
a character starts nothing (`ScanFault`).
-/

namespace IntervalRules.Token

open Literal (Form EndsBefore)
open Text (byteLength byteLength_append)

/-! ## Characters -/

theorem classOf_eq_digit_iff (c : Char) : CharClass.of c = .digit ↔ Text.isDigit 10 c = true := by
  unfold CharClass.of
  constructor
  · intro h
    split at h
    · assumption
    · split at h
      · cases h
      · split at h
        · cases h
        · split at h
          · cases h
          · split at h
            · cases h
            · cases hpunctuation : CharClass.punctuation? c <;> simp [hpunctuation] at h
  · intro h
    rw [if_pos h]

theorem char_of_punctuation? {c : Char} {p : Punctuation} (h : CharClass.punctuation? c = some p) :
    c = p.char := by
  unfold CharClass.punctuation? at h
  split at h
  all_goals
    cases h
    try rfl

/-- A character that is a token by itself. -/
theorem char_of_class {c : Char} :
    (∀ p, CharClass.of c = .punctuation p → c = p.char) ∧
      (CharClass.of c = .sign → c = '+' ∨ c = '-') := by
  unfold CharClass.of
  split
  · exact ⟨nofun, nofun⟩
  · split
    · exact ⟨nofun, nofun⟩
    · split
      · rename_i hsign
        exact ⟨nofun, fun _ => hsign⟩
      · split
        · exact ⟨nofun, nofun⟩
        · split
          · exact ⟨nofun, nofun⟩
          · cases hpunctuation : CharClass.punctuation? c with
            | none => exact ⟨nofun, nofun⟩
            | some q =>
              refine ⟨fun p h => ?_, nofun⟩
              cases h
              exact char_of_punctuation? hpunctuation

theorem classOf_punctuation (p : Punctuation) : CharClass.of p.char = .punctuation p := by
  cases p <;> decide

theorem isBlank_of_digit {c : Char} (h : Text.isDigit 10 c = true) :
    isBlank c = false ∧ c ≠ '/' := by
  rw [Literal.isDigit_iff] at h
  have hne {d : Char} (hd : d.toNat < 48 ∨ 57 < d.toNat) : c ≠ d := by
    rintro rfl
    omega
  have hnewline : CharClass.isNewline c = false := by
    simp [CharClass.isNewline, hne (d := '\n') (by decide), hne (d := '\r') (by decide),
      hne (d := '\u2028') (by decide), hne (d := '\u2029') (by decide)]
  have hspace : CharClass.isSpace c = false := by
    simp [CharClass.isSpace]
    omega
  exact ⟨by rw [isBlank, hspace, hnewline]; rfl, hne (by decide)⟩

/-! ## Numbers are visible ASCII -/

/-- A character of ASCII that is no blank and no control character. -/
def Visible (c : Char) : Prop := 32 < c.toNat ∧ c.toNat < 127

theorem Visible.ascii {c : Char} (h : Visible c) : c.toNat < 128 := Nat.lt_succ_of_lt h.2

theorem exists_digit_head {form : Form} (h : form.WellFormed) :
    ∃ c rest, form.chars = c :: rest ∧ Text.isDigit 10 c = true := by
  rcases form.marked_or_shape with ⟨radix, mark, digits, exact, rfl⟩ | ⟨s, hshape⟩
  · exact ⟨'0', _, rfl, rfl⟩
  · obtain ⟨c, digits, hinteger, hc⟩ := (Form.proper_of_shape hshape h).2.head
    rw [Form.chars_of_shape hshape, DecimalShape.chars_eq, hinteger]
    exact ⟨c, _, rfl, hc⟩

theorem visible_of_isRunChar {base : Nat} {c : Char} (h : Literal.isRunChar base c = true) :
    Visible c := by
  obtain ⟨hlow, hhigh, -⟩ := Literal.toNat_of_isRunChar h
  exact ⟨by omega, by omega⟩

theorem visible_of_proper {s : DecimalShape} (hs : s.Proper) : ∀ c ∈ s.chars, Visible c := by
  intro c hc
  rcases DecimalShape.mem_chars hs hc with hchar | hmem | hsuffix
  · exact visible_of_isRunChar hchar
  · simp only [List.mem_cons, List.not_mem_nil, or_false] at hmem
    rcases hmem with rfl | rfl | rfl | rfl | rfl <;> exact ⟨by decide, by decide⟩
  · obtain ⟨suffix, -, rfl⟩ := Option.map_eq_some_iff.1 hsuffix
    cases suffix <;> exact ⟨by decide, by decide⟩

theorem visible_of_marked_run {radix : Radix} {mark : Char} {digits : List Char}
    (hmark : Radix.ofMark? mark = some radix)
    (hdigits : ∀ c ∈ digits, Literal.isRunChar radix.base c = true) :
    ∀ c ∈ '0' :: mark :: digits, Visible c := by
  intro c hc
  rcases List.mem_cons.1 hc with rfl | hc
  · exact ⟨by decide, by decide⟩
  · rcases List.mem_cons.1 hc with rfl | hc
    · exact (Radix.facts_of_ofMark? hmark).1
    · exact visible_of_isRunChar (hdigits c hc)

theorem visible_of_marked {radix : Radix} {mark : Char} {digits : List Char} {exact : Bool}
    (h : (Form.marked radix mark digits exact).WellFormed) :
    ∀ c ∈ (Form.marked radix mark digits exact).chars, Visible c := by
  intro c hc
  rcases List.mem_append.1 hc with hc | hc
  · exact visible_of_marked_run h.1 h.2.chars c hc
  · cases exact with
    | false => cases hc
    | true =>
      rw [List.mem_singleton.1 hc]
      exact ⟨by decide, by decide⟩

theorem visible_of_wellFormed {form : Form} (h : form.WellFormed) :
    ∀ c ∈ form.chars, Visible c := by
  rcases form.marked_or_shape with ⟨radix, mark, digits, exact, rfl⟩ | ⟨s, hshape⟩
  · exact visible_of_marked h
  · rw [Form.chars_of_shape hshape]
    exact visible_of_proper (Form.proper_of_shape hshape h).1

theorem byteLength_of_wellFormed {form : Form} (h : form.WellFormed) :
    byteLength form.chars = form.chars.length :=
  Literal.byteLength_of_ascii fun c hc => (visible_of_wellFormed h c hc).ascii

/-! ## The end of a number -/

/-- No number goes on with the text. -/
def StopsNumber (rest : List Char) : Prop :=
  ∀ c ∈ rest.head?, CharClass.isIdentifierStart c = false ∧ Text.isDigit 10 c = false ∧ c ≠ '.'

theorem StopsNumber.endsBefore {rest : List Char} (h : StopsNumber rest) (number : List Char) :
    EndsBefore number rest := by
  rintro c hc (hidentifier | ⟨hdigit, -⟩ | ⟨hpoint, -⟩)
  · rw [(h c hc).1] at hidentifier
    cases hidentifier
  · rw [(h c hc).2.1] at hdigit
    cases hdigit
  · exact (h c hc).2.2 hpoint

theorem stopsNumber_punctuation (p : Punctuation) (rest : List Char) :
    StopsNumber (p.char :: rest) := by
  rintro c ⟨⟩
  cases p <;> decide

/-- No blank is part of an identifier. -/
theorem isIdentifierStart_of_isBlank {c : Char} (h : isBlank c = true) :
    CharClass.isIdentifierStart c = false := by
  have hcodes : ∀ n ∈ [0x9, 0xa, 0xb, 0xc, 0xd, 0x20, 0xa0, 0x1680, 0x2000, 0x2001, 0x2002, 0x2003,
      0x2004, 0x2005, 0x2006, 0x2007, 0x2008, 0x2009, 0x200a, 0x2028, 0x2029, 0x202f, 0x205f,
      0x3000, 0xfeff], CharClass.isIdentifierStart (Char.ofNat n) = false := by
    decide +kernel
  rw [← Char.ofNat_toNat c]
  refine hcodes c.toNat ?_
  rcases Bool.or_eq_true_iff.1 h with hspace | hnewline
  · simp [CharClass.isSpace] at hspace
    simp
    omega
  · simp [CharClass.isNewline] at hnewline
    rcases hnewline with ((rfl | rfl) | rfl) | rfl <;> decide

theorem stopsNumber_blank {c : Char} (h : isBlank c = true) (rest : List Char) :
    StopsNumber (c :: rest) := by
  rintro d ⟨⟩
  refine ⟨isIdentifierStart_of_isBlank h, ?_, ?_⟩
  · rw [Bool.eq_false_iff]
    intro hdigit
    rw [(isBlank_of_digit hdigit).1] at h
    cases h
  · rintro rfl
    cases h

theorem Trivia.stopsNumber {trivia : List Char} (h : Trivia trivia) (hne : trivia ≠ [])
    (rest : List Char) : StopsNumber (trivia ++ rest) := by
  have hslash (more : List Char) : StopsNumber ('/' :: more) := by
    rintro c ⟨⟩
    decide
  cases h with
  | nil => exact absurd rfl hne
  | blank hc _ => exact stopsNumber_blank hc _
  | block _ _ => exact hslash _
  | line _ _ _ => exact hslash _

/-! ## Lexemes -/

/-- The text of a token. -/
inductive Lexeme : TokenKind → List Char → Prop
  | number {form : Form} {x : Literal} (hform : form.WellFormed) (hx : form.literal? = some x) :
      Lexeme (.number x) form.chars
  | punctuation (p : Punctuation) : Lexeme (.punctuation p) [p.char]
  | minus : Lexeme .minus ['-']
  | plus : Lexeme .plus ['+']

/-- What follows a token does not go on with it; only a number could be gone on with. -/
def Delimited (kind : TokenKind) (lexeme rest : List Char) : Prop :=
  ∀ x, kind = .number x → EndsBefore lexeme rest

theorem Lexeme.exists_head {kind : TokenKind} {lexeme : List Char} (h : Lexeme kind lexeme) :
    ∃ c rest, lexeme = c :: rest ∧ isBlank c = false ∧ c ≠ '/' := by
  cases h with
  | number hform hx =>
    obtain ⟨c, rest, hchars, hc⟩ := exists_digit_head hform
    exact ⟨c, rest, hchars, isBlank_of_digit hc⟩
  | punctuation p => exact ⟨p.char, [], rfl, by cases p <;> decide⟩
  | minus => exact ⟨'-', [], rfl, by decide⟩
  | plus => exact ⟨'+', [], rfl, by decide⟩

theorem Lexeme.ne_nil {kind : TokenKind} {lexeme : List Char} (h : Lexeme kind lexeme) :
    lexeme ≠ [] := by
  obtain ⟨c, rest, rfl, -⟩ := h.exists_head
  exact List.cons_ne_nil c rest

theorem Lexeme.kind_ne {kind : TokenKind} {lexeme : List Char} (h : Lexeme kind lexeme) :
    kind ≠ .endOfInput := by
  cases h <;> exact nofun

theorem Lexeme.noTrivia {kind : TokenKind} {lexeme : List Char} (h : Lexeme kind lexeme)
    (rest : List Char) : NoTrivia (lexeme ++ rest) := by
  obtain ⟨c, more, rfl, hblank, hslash⟩ := h.exists_head
  exact noTrivia_cons hblank hslash _

/-- The span of a text after a front. -/
def spanAfter (pos : Nat) (front marked : List Char) : Span :=
  ⟨pos + byteLength front, pos + byteLength front + byteLength marked⟩

/-! ## Tokens -/

theorem scan_append_trivia {gap : List Char} (h : Trivia gap) (pos : Nat) (cs : List Char) :
    scan pos (gap ++ cs) = scan (pos + byteLength gap) cs := by
  simp only [scan, skipTrivia_append h]

theorem scan_of_skipTrivia {pos start : Nat} {cs rest : List Char}
    (hskip : skipTrivia pos cs = .ok (start, rest)) (hrest : NoTrivia rest) :
    scan pos cs = scan start rest := by
  simp only [scan, hskip, skipTrivia_of_noTrivia hrest]

theorem scan_of_lexeme {kind : TokenKind} {lexeme rest : List Char} (h : Lexeme kind lexeme)
    (hrest : Delimited kind lexeme rest) (pos : Nat) :
    scan pos (lexeme ++ rest) = .ok (⟨kind, ⟨pos, pos + byteLength lexeme⟩⟩, rest) := by
  have hskip := skipTrivia_of_noTrivia (h.noTrivia rest) pos
  cases h with
  | @number form x hform hx =>
    have hscan : scanNumber pos (form.chars ++ rest) = .ok ⟨x, pos + form.chars.length, rest⟩ :=
      scanNumber_eq_ok_iff.2 ⟨form, ⟨hform, rfl, hx, rfl⟩, hrest x rfl⟩
    rw [byteLength_of_wellFormed hform]
    obtain ⟨c, more, hchars, hc⟩ := exists_digit_head hform
    rw [hchars, List.cons_append] at hskip hscan ⊢
    simp only [scan, hskip, (classOf_eq_digit_iff c).2 hc, hscan]
  | punctuation p =>
    rw [List.singleton_append] at hskip ⊢
    simp only [scan, hskip, classOf_punctuation]
    rfl
  | minus =>
    rw [List.singleton_append] at hskip ⊢
    simp only [scan, hskip, show CharClass.of '-' = .sign by decide]
    rfl
  | plus =>
    rw [List.singleton_append] at hskip ⊢
    simp only [scan, hskip, show CharClass.of '+' = .sign by decide]
    rfl

theorem exists_lexeme_of_scan {start : Nat} {cs : List Char} {r : Token × List Char}
    (hcs : NoTrivia cs) (hne : cs ≠ []) (h : scan start cs = .ok r) :
    ∃ lexeme, cs = lexeme ++ r.2 ∧ Lexeme r.1.kind lexeme ∧ Delimited r.1.kind lexeme r.2 ∧
      r.1.span = ⟨start, start + byteLength lexeme⟩ := by
  obtain ⟨c, rest, rfl⟩ := List.exists_cons_of_ne_nil hne
  simp only [scan, skipTrivia_of_noTrivia hcs start] at h
  split at h
  · split at h
    · cases h
    · rename_i n hnumber
      cases h
      obtain ⟨form, htakes, hends⟩ := scanNumber_eq_ok_iff.1 hnumber
      refine ⟨form.chars, htakes.text, .number htakes.wellFormed htakes.literal,
        fun _ _ => hends, ?_⟩
      rw [byteLength_of_wellFormed htakes.wellFormed, ← htakes.stop]
  · rename_i p hclass
    cases h
    obtain rfl := char_of_class.1 p hclass
    exact ⟨[p.char], rfl, .punctuation p, nofun, rfl⟩
  · rename_i hclass
    cases h
    rcases char_of_class.2 hclass with rfl | rfl
    · exact ⟨['+'], rfl, .plus, nofun, rfl⟩
    · exact ⟨['-'], rfl, .minus, nofun, rfl⟩
  · cases h

theorem scan_of_endTrivia {cs : List Char} (h : EndTrivia cs) (pos : Nat) :
    scan pos cs =
      .ok (⟨.endOfInput, ⟨pos + byteLength cs, pos + byteLength cs⟩⟩, []) := by
  simp only [scan, skipTrivia_endTrivia h]

/-- Past the trivia there is a lexeme or the end of the input. -/
theorem scan_cases {pos : Nat} {cs : List Char} {r : Token × List Char}
    (h : scan pos cs = .ok r) :
    (∃ gap lexeme, cs = gap ++ (lexeme ++ r.2) ∧ Trivia gap ∧ Lexeme r.1.kind lexeme ∧
        Delimited r.1.kind lexeme r.2 ∧ r.1.span = spanAfter pos gap lexeme) ∨
      EndTrivia cs ∧ r = (⟨.endOfInput, ⟨pos + byteLength cs, pos + byteLength cs⟩⟩, []) := by
  have hend (hcs : EndTrivia cs) :
      r = (⟨.endOfInput, ⟨pos + byteLength cs, pos + byteLength cs⟩⟩, []) := by
    rw [scan_of_endTrivia hcs] at h
    exact (Except.ok.inj h).symm
  cases hskip : skipTrivia pos cs with
  | error e =>
    simp only [scan, hskip] at h
    cases h
  | ok skipped =>
    rcases skipTrivia_eq_ok hskip with ⟨gap, hgap, hrest, hcs, hstart⟩ | ⟨hcs, -⟩
    · by_cases hne : skipped.2 = []
      · rw [hne, List.append_nil] at hcs
        exact .inr ⟨.inl (hcs ▸ hgap), hend (.inl (hcs ▸ hgap))⟩
      · rw [scan_of_skipTrivia hskip hrest] at h
        obtain ⟨lexeme, htext, hlexeme, hdelimited, hspan⟩ := exists_lexeme_of_scan hrest hne h
        refine .inl ⟨gap, lexeme, by rw [hcs, htext], hgap, hlexeme, hdelimited, ?_⟩
        rw [hspan, hstart, spanAfter]
    · exact .inr ⟨hcs, hend hcs⟩

/-- Why there is no token past the trivia. -/
inductive ScanFault (pos : Nat) : List Char → TokenError → Prop
  | comment {gap body : List Char} (hgap : Trivia gap) (hbody : InBlock body) :
      ScanFault pos (gap ++ '/' :: '*' :: body) (.unterminatedComment (pos + byteLength gap))
  | number {gap rest : List Char} {c : Char} {e : TokenError} (hgap : Trivia gap)
      (hc : Text.isDigit 10 c = true)
      (hscan : scanNumber (pos + byteLength gap) (c :: rest) = .error e) :
      ScanFault pos (gap ++ c :: rest) e
  | character {gap rest : List Char} {c : Char} (hgap : Trivia gap) (hrest : NoTrivia (c :: rest))
      (hclass : CharClass.of c ≠ .digit ∧ CharClass.of c ≠ .sign ∧
        ∀ p, CharClass.of c ≠ .punctuation p) :
      ScanFault pos (gap ++ c :: rest) (.unexpectedChar c (pos + byteLength gap))

theorem scanFault_of_scan {pos : Nat} {cs : List Char} {e : TokenError}
    (h : scan pos cs = .error e) : ScanFault pos cs e := by
  cases fronted cs with
  | @gap gap rest hgap hrest =>
    rw [scan_append_trivia hgap] at h
    simp only [scan, skipTrivia_of_noTrivia hrest] at h
    cases rest with
    | nil => cases h
    | cons c rest =>
      dsimp only at h
      split at h
      · rename_i hclass
        split at h
        · rename_i hscan
          cases h
          exact .number hgap ((classOf_eq_digit_iff c).1 hclass) hscan
        · cases h
      · cases h
      · cases h
      · rename_i hdigit hpunctuation hsign
        cases h
        exact .character hgap hrest ⟨hdigit, hsign, hpunctuation⟩
  | line hgap hbody =>
    rw [scan_of_endTrivia (.inr ⟨_, _, hgap, hbody, rfl⟩)] at h
    cases h
  | block hgap hbody =>
    simp only [scan, skipTrivia_append hgap, skipTrivia_open hbody] at h
    cases h
    exact .comment hgap hbody

/-- A token other than the end of the input is read from trivia and a lexeme of its kind, which
ends where the text does not go on with it. -/
theorem scan_eq_ok_iff {pos : Nat} {cs rest : List Char} {t : Token}
    (hkind : t.kind ≠ .endOfInput) :
    scan pos cs = .ok (t, rest) ↔
      ∃ gap lexeme, cs = gap ++ (lexeme ++ rest) ∧ Trivia gap ∧ Lexeme t.kind lexeme ∧
        Delimited t.kind lexeme rest ∧ t.span = spanAfter pos gap lexeme := by
  constructor
  · intro h
    rcases scan_cases h with hlexeme | ⟨-, hend⟩
    · exact hlexeme
    · cases hend
      exact absurd rfl hkind
  · rintro ⟨gap, lexeme, rfl, hgap, hlexeme, hdelimited, hspan⟩
    rw [scan_append_trivia hgap, scan_of_lexeme hlexeme hdelimited]
    obtain ⟨kind, span⟩ := t
    dsimp only at hspan
    rw [hspan, spanAfter]

/-- What is left starts where the token ends. -/
theorem exists_read_of_scan {pos : Nat} {cs : List Char} {r : Token × List Char}
    (h : scan pos cs = .ok r) (hkind : r.1.kind ≠ .endOfInput) :
    ∃ read, cs = read ++ r.2 ∧ r.1.span.stop = pos + byteLength read := by
  obtain ⟨gap, lexeme, rfl, -, -, -, hspan⟩ := (scan_eq_ok_iff hkind).1 h
  refine ⟨gap ++ lexeme, by rw [List.append_assoc], ?_⟩
  rw [hspan, spanAfter, byteLength_append, Nat.add_assoc]

/-- The end of the input is read where trivia is all that is left. -/
theorem scan_eq_end_iff {pos : Nat} {cs rest : List Char} {t : Token}
    (hkind : t.kind = .endOfInput) :
    scan pos cs = .ok (t, rest) ↔
      EndTrivia cs ∧ rest = [] ∧ t.span = ⟨pos + byteLength cs, pos + byteLength cs⟩ := by
  constructor
  · intro h
    rcases scan_cases h with ⟨gap, lexeme, -, -, hlexeme, -⟩ | ⟨hcs, hend⟩
    · exact absurd hkind hlexeme.kind_ne
    · cases hend
      exact ⟨hcs, rfl, rfl⟩
  · rintro ⟨hcs, rfl, hspan⟩
    obtain ⟨kind, span⟩ := t
    dsimp only at hkind hspan
    rw [scan_of_endTrivia hcs, hkind, hspan]

/-! ## The token after an offset -/

theorem next_of_front {text : String} {front cs : List Char} {offset : Nat}
    (htext : text.toList = front ++ cs) (hoffset : byteLength front = offset) :
    next text offset = (scan offset cs).map Prod.fst := by
  rw [next, htext, ← hoffset, Text.suffixAt?_byteLength]

theorem exists_scan_of_next {text : String} {offset : Nat} {t : Token}
    (h : next text offset = .ok t) (hkind : t.kind ≠ .endOfInput) :
    ∃ front cs rest, text.toList = front ++ cs ∧ byteLength front = offset ∧
      scan offset cs = .ok (t, rest) := by
  unfold next at h
  split at h
  · rename_i cs hsuffix
    obtain ⟨front, htext, hoffset⟩ := Text.exists_front_of_suffixAt? hsuffix
    obtain ⟨r, hscan, rfl⟩ : ∃ r, scan offset cs = .ok r ∧ r.1 = t := by
      cases hscan : scan offset cs with
      | error e =>
        rw [hscan] at h
        cases h
      | ok r =>
        rw [hscan] at h
        exact ⟨r, rfl, Except.ok.inj h⟩
    exact ⟨front, cs, r.2, htext, hoffset, hscan⟩
  · cases h
    exact absurd rfl hkind

end IntervalRules.Token
