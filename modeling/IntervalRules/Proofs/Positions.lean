import IntervalRules.Proofs.Cover
import IntervalRules.Proofs.Faults
import IntervalRules.Proofs.Slices

/-!
Positions that are reported. Whatever is read of a text, the span of a token or an error lies
within it and ends between two characters, and what an error says of the text is to be found at its
position.
-/

namespace IntervalRules

open Text (byteLength byteLength_append codePointAt? suffixAt?)

/-- Whether an offset is between two characters of a text, or at one of its ends. -/
def Text.Boundary (text : String) (offset : Nat) : Prop :=
  ∃ front back, text.toList = front ++ back ∧ byteLength front = offset

/-- The span is that of a part of the text, which may be empty. -/
structure Span.Fits (text : String) (span : Span) : Prop where
  ordered : span.start ≤ span.stop
  within : span.stop ≤ byteLength text.toList
  start : Text.Boundary text span.start
  stop : Text.Boundary text span.stop

/-- What an error says of the text. -/
def TokenError.TrueOf (text : String) : TokenError → Prop
  /- The character starts there. -/
  | .unexpectedChar c pos => codePointAt? text pos = some c
  /- A comment starts there and does not end. -/
  | .unterminatedComment start =>
    ∃ body, suffixAt? start text.toList = some ('/' :: '*' :: body) ∧ ¬ ['*', '/'] <:+: body
  /- The number starts with a digit. -/
  | .malformedNumber span _ => ∃ c, codePointAt? text span.start = some c ∧ Text.isDigit 10 c = true
  /- The character there is a decimal digit, but none of the radix. -/
  | .invalidDigit c radix pos =>
    codePointAt? text pos = some c ∧ ∃ d, Text.digit? 10 c = some d ∧ radix.base ≤ d
  | .misplacedSeparator pos => codePointAt? text pos = some '_'
  /- The character there starts an identifier, and a number ends there. -/
  | .identifierAfterNumber c pos =>
    codePointAt? text pos = some c ∧ CharClass.isIdentifierStart c = true ∧
      ∃ (form : Literal.Form) (front back : List Char), form.WellFormed ∧
        text.toList = front ++ (form.chars ++ c :: back) ∧
        byteLength front + byteLength form.chars = pos

namespace Text

theorem boundary_iff (text : String) (offset : Nat) :
    Boundary text offset ↔ ∃ cs, suffixAt? offset text.toList = some cs := by
  constructor
  · rintro ⟨front, back, htext, rfl⟩
    exact ⟨back, by rw [htext, suffixAt?_byteLength]⟩
  · rintro ⟨cs, hsuffix⟩
    obtain ⟨front, htext, hoffset⟩ := exists_front_of_suffixAt? hsuffix
    exact ⟨front, cs, htext, hoffset⟩

end Text

theorem Span.Fits.empty {text : String} {front back : List Char}
    (htext : text.toList = front ++ back) :
    Span.Fits text ⟨byteLength front, byteLength front⟩ where
  ordered := Nat.le_refl _
  within := by
    rw [htext, byteLength_append]
    exact Nat.le_add_right _ _
  start := ⟨front, back, htext, rfl⟩
  stop := ⟨front, back, htext, rfl⟩

theorem Token.Marks.fits {text : String} {front cs : List Char} {span : Span}
    (htext : text.toList = front ++ cs) (h : Marks (byteLength front) cs span) :
    span.Fits text := by
  obtain ⟨before, marked, back, rfl, -, rfl⟩ := h
  have hstart : text.toList = (front ++ before) ++ (marked ++ back) := by simp [htext]
  have hstop : text.toList = (front ++ before ++ marked) ++ back := by simp [htext]
  refine ⟨Nat.le_add_right _ _, ?_, ⟨_, _, hstart, ?_⟩, ⟨_, _, hstop, ?_⟩⟩
  · simp only [spanAfter, htext, byteLength_append]
    omega
  · simp only [spanAfter, byteLength_append]
  · simp only [spanAfter, byteLength_append]

namespace Token

/-! ## What an error says -/

section

variable {text : String} {front cs : List Char} {e : TokenError}

/-- The separator so many characters into a number of ASCII characters. -/
theorem trueOf_separator {number rest : List Char} (hascii : ∀ c ∈ number, c.toNat < 128)
    {offset : Nat} (h : SeparatorAt offset number)
    (htext : text.toList = front ++ (number ++ rest)) :
    (TokenError.misplacedSeparator (byteLength front + offset)).TrueOf text := by
  obtain ⟨before, after, rfl, rfl⟩ := h
  have hrest : text.toList = front ++ (before ++ '_' :: (after ++ rest)) := by simp [htext]
  exact Cutting.codePointAt?_after (fun c hc => hascii c (List.mem_append_left _ hc)) hrest

theorem trueOf_malformed {c : Char} (hc : Text.isDigit 10 c = true)
    (htext : text.toList = front ++ c :: cs) (stop : Nat) (fault : NumberFault) :
    (TokenError.malformedNumber ⟨byteLength front, stop⟩ fault).TrueOf text :=
  ⟨c, Cutting.codePointAt?_eq htext, hc⟩

/-- A digit that is none of the radix. -/
theorem exists_digit_ge {radix : Radix} {c : Char} (hdigit : Text.isDigit 10 c = true)
    (hnone : Text.isDigit radix.base c = false) :
    ∃ d, Text.digit? 10 c = some d ∧ radix.base ≤ d := by
  obtain ⟨d, hd⟩ := Option.isSome_iff_exists.1 hdigit
  refine ⟨d, hd, Nat.le_of_not_lt fun hlt => ?_⟩
  have hsome : Text.digit? radix.base c = some d :=
    Option.filter_eq_some_iff.2 ⟨(Option.filter_eq_some_iff.1 hd).1, decide_eq_true hlt⟩
  rw [Text.isDigit, hsome] at hnone
  cases hnone

theorem trueOf_scanRadix {radix : Radix} {mark : Char} (hmark : Radix.ofMark? mark = some radix)
    (htext : text.toList = front ++ '0' :: mark :: cs)
    (h : scanRadix (byteLength front) radix cs = .error e) : e.TrueOf text := by
  obtain ⟨digits, rest, rfl, hchars, hstops, houtcome⟩ := exists_digits_of_scanRadix h
  have hascii := fun c hc => (visible_of_marked_run hmark hchars c hc).ascii
  cases houtcome with
  | @invalidDigit c head digit =>
    have hnone : Text.isDigit radix.base c = false := by
      have hchar := hstops c head
      rw [Literal.isRunChar, Bool.or_eq_false_iff] at hchar
      exact hchar.2
    refine ⟨?_, exists_digit_ge digit hnone⟩
    have hafter := @Cutting.codePointAt?_after text front ('0' :: mark :: digits) rest hascii htext
    rw [head] at hafter
    rw [← hafter, List.length_cons, List.length_cons]
    congr 1
    omega
  | noDigits => exact trueOf_malformed (by decide) htext _ _
  | @separator offset _ _ misplaced =>
    have hplace := ((separatorAt_of_misplaced misplaced).cons mark).cons '0'
    have htrue := @trueOf_separator text front _ rest hascii _ hplace htext
    rwa [show byteLength front + (offset + 1 + 1) = byteLength front + 2 + offset by omega]
      at htrue
  | decimalSuffix => exact trueOf_malformed (by decide) htext _ _

theorem trueOf_scanDecimal {c : Char} (hc : Text.isDigit 10 c = true)
    (htext : text.toList = front ++ c :: cs)
    (h : scanDecimal (byteLength front) (c :: cs) = .error e) : e.TrueOf text := by
  obtain ⟨s, rest, hread, hproper, -, -, houtcome⟩ := exists_shape_of_scanDecimal h
  cases houtcome with
  | separator _ _ misplaced =>
    exact trueOf_separator (fun d hd => (visible_of_proper hproper d hd).ascii)
      (separatorAt_of_fault misplaced) (by rw [htext, hread])
  | noDigits | noExponentDigits | malformed => exact trueOf_malformed hc htext _ _

theorem trueOf_scanNumber {c : Char} (hc : Text.isDigit 10 c = true)
    (htext : text.toList = front ++ c :: cs)
    (h : scanNumber (byteLength front) (c :: cs) = .error e) : e.TrueOf text := by
  cases scanNumber_eq_iff.1 h with
  | fault literal =>
    cases scanLiteral_eq_iff.1 literal with
    | marked hmarked marked scanned =>
      rw [hmarked] at htext
      exact trueOf_scanRadix marked htext scanned
    | unmarked _ scanned => exact trueOf_scanDecimal hc htext scanned
  | identifier literal head hidentifier =>
    obtain ⟨form, ⟨hform, hread, -, hstop⟩, -⟩ := scanLiteral_sound literal
    obtain ⟨more, hmore⟩ := List.head?_eq_some_iff.1 head
    rw [hread, hmore] at htext
    refine ⟨?_, hidentifier, form, front, more, hform, htext, ?_⟩
    · rw [hstop]
      exact Cutting.codePointAt?_after (fun c hc => (visible_of_wellFormed hform c hc).ascii) htext
    · rw [hstop, byteLength_of_wellFormed hform]

/-- What an error says of the text is so. -/
theorem trueOf_scan (htext : text.toList = front ++ cs)
    (h : scan (byteLength front) cs = .error e) : e.TrueOf text := by
  cases scanFault_of_scan h with
  | @comment gap body _ hbody =>
    refine ⟨body, ?_, hbody⟩
    rw [htext, ← List.append_assoc, ← byteLength_append, Text.suffixAt?_byteLength]
  | number _ hc hscan =>
    rw [← List.append_assoc] at htext
    rw [← byteLength_append] at hscan
    exact trueOf_scanNumber hc htext hscan
  | character =>
    rw [← List.append_assoc] at htext
    rw [← byteLength_append]
    exact Cutting.codePointAt?_eq htext

end

/-! ## Positions -/

section

variable {text : String} {front cs : List Char} {offset : Nat}

theorem next_of_not_boundary (h : ¬ Text.Boundary text offset) :
    next text offset = .ok ⟨.endOfInput, ⟨offset, offset⟩⟩ := by
  cases hsuffix : suffixAt? offset text.toList with
  | none => rw [next, hsuffix]
  | some cs => exact absurd ((Text.boundary_iff text offset).2 ⟨cs, hsuffix⟩) h

/-- A token that is read within the text lies in it. -/
theorem fits_of_scan {r : Token × List Char} (htext : text.toList = front ++ cs)
    (h : scan (byteLength front) cs = .ok r) : r.1.span.Fits text := by
  rcases scan_cases h with ⟨gap, lexeme, rfl, -, hlexeme, -, hspan⟩ | ⟨-, rfl⟩
  · exact Marks.fits htext ⟨gap, lexeme, r.2, rfl, hlexeme.ne_nil, hspan⟩
  · have hend := @Span.Fits.empty text (front ++ cs) [] (by simp [htext])
    rwa [byteLength_append] at hend

theorem fits_of_next (hboundary : Text.Boundary text offset) {t : Token}
    (h : next text offset = .ok t) : t.span.Fits text := by
  obtain ⟨front, cs, htext, rfl⟩ := hboundary
  rw [next_of_front htext rfl] at h
  cases hscan : scan (byteLength front) cs with
  | error e =>
    rw [hscan] at h
    cases h
  | ok r =>
    rw [hscan] at h
    cases h
    exact fits_of_scan htext hscan

/-- An error is one of the rest of the text. -/
theorem exists_scan_of_error {e : TokenError} (h : next text offset = .error e) :
    ∃ front cs, text.toList = front ++ cs ∧ byteLength front = offset ∧
      scan (byteLength front) cs = .error e := by
  by_cases hboundary : Text.Boundary text offset
  · obtain ⟨front, cs, htext, rfl⟩ := hboundary
    rw [next_of_front htext rfl] at h
    cases hscan : scan (byteLength front) cs with
    | error e' =>
      rw [hscan] at h
      cases h
      exact ⟨front, cs, htext, rfl, hscan⟩
    | ok r =>
      rw [hscan] at h
      cases h
  · rw [next_of_not_boundary hboundary] at h
    cases h

/-- An error lies within the text, and what it says of the text is so. -/
theorem error_of_next {e : TokenError} (h : next text offset = .error e) :
    e.span.Fits text ∧ e.TrueOf text := by
  obtain ⟨front, cs, htext, -, hscan⟩ := exists_scan_of_error h
  exact ⟨Marks.fits htext (marks_of_scan hscan), trueOf_scan htext hscan⟩

/-! ## Items -/

/-- A token is read again where it starts. -/
theorem next_start_of_scan {r : Token × List Char} (htext : text.toList = front ++ cs)
    (h : scan (byteLength front) cs = .ok r) : next text r.1.span.start = .ok r.1 := by
  rcases scan_cases h with ⟨gap, lexeme, rfl, -, hlexeme, hdelimited, hspan⟩ | ⟨-, rfl⟩
  · have hstart : text.toList = (front ++ gap) ++ (lexeme ++ r.2) := by simp [htext]
    have hscan := scan_of_lexeme hlexeme hdelimited (byteLength front + byteLength gap)
    rw [hspan, spanAfter, next_of_front hstart (byteLength_append front gap), hscan]
    obtain ⟨⟨kind, span⟩, rest⟩ := r
    dsimp only at hspan
    rw [hspan]
    rfl
  · have hend : text.toList = (front ++ cs) ++ [] := by simp [htext]
    rw [next_of_front hend (byteLength_append front cs), scan_of_endTrivia (.inl .nil)]
    rfl

/-- Each item of a text is what is read at some offset; a token is what is read at its start. -/
theorem next_of_mem_itemsFrom (htext : text.toList = front ++ cs) :
    (∀ e, .error e ∈ itemsFrom (byteLength front) cs → ∃ offset, next text offset = .error e) ∧
      ∀ t, .ok t ∈ itemsFrom (byteLength front) cs →
        next text t.span.start = .ok t ∧ t.span.Fits text := by
  generalize hpos : byteLength front = pos
  fun_induction itemsFrom pos cs generalizing front with
  | case1 pos cs e hscan =>
    refine ⟨fun e' he' => ?_, fun t ht => ?_⟩
    · cases List.mem_singleton.1 he'
      exact ⟨pos, by rw [next_of_front htext hpos, hscan]; rfl⟩
    · cases List.mem_singleton.1 ht
  | case2 pos cs r hscan hend =>
    subst hpos
    refine ⟨fun e he => ?_, fun t ht => ?_⟩
    · cases List.mem_singleton.1 he
    · cases List.mem_singleton.1 ht
      exact ⟨next_start_of_scan htext hscan, fits_of_scan htext hscan⟩
  | case3 pos cs r hscan hmore ih =>
    subst hpos
    obtain ⟨read, hread, hstop⟩ := exists_read_of_scan hscan hmore
    have hrest : text.toList = (front ++ read) ++ r.2 := by rw [htext, hread, List.append_assoc]
    obtain ⟨herrors, htokens⟩ := ih hrest (by rw [byteLength_append, hstop])
    refine ⟨fun e he => ?_, fun t ht => ?_⟩
    · rcases List.mem_cons.1 he with h | h
      · cases h
      · exact herrors e h
    · rcases List.mem_cons.1 ht with h | h
      · cases h
        exact ⟨next_start_of_scan htext hscan, fits_of_scan htext hscan⟩
      · exact htokens t h

/-- The tokens at the front of the items are apart and in order. -/
theorem apart_of_items {tokens : List Token} {item : Expression.Item}
    {rest : List Expression.Item} (h : items text = tokens.map .ok ++ item :: rest) :
    tokens.Pairwise fun s t => s.span.stop ≤ t.span.start := by
  obtain ⟨all, last, hitems, horder⟩ := (cover_itemsFrom 0 text.toList).exists_inOrder
  have hlength := congrArg List.length (h.symm.trans hitems)
  simp only [List.length_append, List.length_map, List.length_cons, List.length_nil] at hlength
  have hprefix : tokens.map Except.ok <+: all.map (Except.ok : Token → Expression.Item) := by
    have hlast : all.map Except.ok <+: items text := ⟨[last], hitems.symm⟩
    refine List.prefix_of_prefix_length_le ⟨item :: rest, h.symm⟩ hlast ?_
    rw [List.length_map, List.length_map]
    omega
  obtain ⟨part, hpart, hmap⟩ := List.prefix_map_iff.1 hprefix
  obtain rfl := (List.map_inj_right fun _ _ => Except.ok.inj).1 hmap
  exact horder.apart.sublist hpart.sublist

end

end Token

/-! ## Errors of an expression -/

open Grammar (IsClause Misordered Stops)
open Expression (Item ofItems)

/-- The span of a clause goes from its opening bracket to its closing one, both of which are read
where they stand. -/
theorem Grammar.Misordered.exists_brackets {text : String} {earlier : List Grammar.Clause}
    {c : Grammar.Clause} {span : Span} (h : Misordered (Token.items text) earlier c span) :
    ∃ opening closing : Token, opening.kind = .punctuation (openerOf c.lowerInclusive) ∧
      span = ⟨opening.span.start, closing.span.stop⟩ ∧
      Token.next text opening.span.start = .ok opening ∧ opening.span.Fits text ∧
      closing.span.Fits text ∧ opening.span.stop ≤ closing.span.start := by
  obtain ⟨⟨front, body, next, rest, hitems, -, hbody⟩, -, -⟩ := h
  obtain ⟨opening, lower, comma, upper, closing, rfl, hopening, -, -, -, -, rfl⟩ :=
    hbody.exists_parts
  have hread {t : Token} (ht : t ∈ opening :: (lower ++ comma :: (upper ++ [closing]))) :
      Token.next text t.span.start = .ok t ∧ t.span.Fits text := by
    have hmem : .ok t ∈ Token.items text := by
      rw [hitems]
      exact List.mem_append_right _ (List.mem_append_left _ (List.mem_map_of_mem ht))
    exact (Token.next_of_mem_itemsFrom (List.nil_append _).symm).2 t hmem
  obtain ⟨hnext, hfits⟩ := hread List.mem_cons_self
  refine ⟨opening, closing, hopening, rfl, hnext, hfits, (hread (by simp)).2, ?_⟩
  rw [← List.append_assoc, ← List.map_append] at hitems
  have hapart := (List.pairwise_append.1 (Token.apart_of_items hitems)).2.1
  exact (List.pairwise_cons.1 hapart).1 closing (by simp)

/-- So it lies in the text. -/
theorem Grammar.Misordered.fits {text : String} {earlier : List Grammar.Clause}
    {c : Grammar.Clause} {span : Span} (h : Misordered (Token.items text) earlier c span) :
    span.Fits text := by
  obtain ⟨opening, closing, -, rfl, -, hopening, hclosing, hapart⟩ := h.exists_brackets
  have hordered : opening.span.start ≤ closing.span.stop :=
    Nat.le_trans hopening.ordered (Nat.le_trans hapart hclosing.ordered)
  exact ⟨hordered, hclosing.within, hopening.start, hclosing.stop⟩

/-- Where the first error of a text comes from, by its kind. -/
theorem parse_error_origin {text : String} {e : ExpressionError}
    (h : Expression.parse text = .error e) :
    e = .empty ∨ (∃ i interval span earlier c, e = .order i interval span ∧
        Misordered (Token.items text) earlier c span) ∨
      (∃ e' offset, e = .token e' ∧ Token.next text offset = .error e') ∨
      ∃ expected t, e = .unexpected expected t.kind t.span ∧
        Token.next text t.span.start = .ok t ∧ t.span.Fits text := by
  have hread := Token.next_of_mem_itemsFrom (List.nil_append text.toList).symm
  have hitems := Token.items_terminated text
  rw [Expression.parse] at h
  rcases Grammar.ofItems_cases hitems with ⟨t, rest, hcons, ht⟩ |
    ⟨u, tokens, hmap, hkinds, hordered⟩ | ⟨earlier, c, span, hmis⟩ | ⟨e', he', hstops⟩
  · rw [hcons, Grammar.ofItems_of_end ht] at h
    cases h
    exact .inl rfl
  · rw [hmap, Grammar.ofItems_of_sentence hordered hkinds] at h
    cases h
  · rw [hmis.ofItems_eq] at h
    cases h
    exact .inr (.inl ⟨_, _, _, _, _, rfl, hmis⟩)
  · rw [he'] at h
    cases h
    obtain ⟨tokens, s, item, rest, hsplit, -, hitem⟩ := hstops.exists_item (hstops.ne_empty hitems)
    have hmem : item ∈ Token.items text := by simp [hsplit]
    rcases hitem with ⟨e', rfl, rfl⟩ | ⟨t, rfl, -, rfl⟩
    · obtain ⟨offset, hoffset⟩ := hread.1 e' hmem
      exact .inr (.inr (.inl ⟨e', offset, rfl, hoffset⟩))
    · obtain ⟨hnext, hfits⟩ := hread.2 t hmem
      exact .inr (.inr (.inr ⟨_, t, rfl, hnext, hfits⟩))

/-- Where the first error of a text stands, by its kind. -/
theorem parse_error_cases {text : String} {e : ExpressionError}
    (h : Expression.parse text = .error e) :
    e = .empty ∨ (∃ i interval span, e = .order i interval span ∧ span.Fits text) ∨
      (∃ e' offset, e = .token e' ∧ Token.next text offset = .error e') ∨
      ∃ expected t, e = .unexpected expected t.kind t.span ∧
        Token.next text t.span.start = .ok t ∧ t.span.Fits text :=
  (parse_error_origin h).imp_right (Or.imp_left
    fun ⟨i, interval, span, _, _, he, hmis⟩ => ⟨i, interval, span, he, hmis.fits⟩)

/-- No text is cut inside a character, and every position that is reported is true. For every offset
the scanner that cuts the text at offsets reads the same token or error, so that none of its cuts
fails. A token lies within the text between two characters; at an offset that is not between two
characters there is the end of the input, with nothing in its span. An error lies within the text,
and what it says of the text is so. The same holds of the errors of an expression, in which an
unexpected token is the one that is read where its span starts. -/
theorem positions_true (text : String) :
    (∀ offset, Token.Cutting.next text offset = Token.Cutting.outcome (Token.next text offset)) ∧
    (∀ offset, ¬ Text.Boundary text offset →
      Token.next text offset = .ok ⟨.endOfInput, ⟨offset, offset⟩⟩) ∧
    (∀ offset t, Text.Boundary text offset → Token.next text offset = .ok t →
      t.span.Fits text) ∧
    (∀ offset e, Token.next text offset = .error e → e.span.Fits text ∧ e.TrueOf text) ∧
    ∀ e, Expression.parse text = .error e →
      (∀ span, e.span? = some span → span.Fits text) ∧
      (∀ e', e = .token e' → e'.TrueOf text) ∧
      ∀ expected found span, e = .unexpected expected found span →
        Token.next text span.start = .ok ⟨found, span⟩ := by
  refine ⟨Token.Cutting.next_eq text, fun _ => Token.next_of_not_boundary,
    fun _ _ hboundary => Token.fits_of_next hboundary, fun _ _ => Token.error_of_next,
    fun e he => ?_⟩
  rcases parse_error_cases he with rfl | ⟨i, interval, span, rfl, hfits⟩ |
    ⟨e', offset, rfl, hnext⟩ | ⟨expected, t, rfl, hnext, hfits⟩
  · exact ⟨nofun, nofun, nofun⟩
  · refine ⟨fun span' hspan => ?_, nofun, nofun⟩
    cases hspan
    exact hfits
  · obtain ⟨hfits, htrue⟩ := Token.error_of_next hnext
    refine ⟨fun span hspan => ?_, fun e'' he'' => ?_, nofun⟩
    · cases hspan
      exact hfits
    · cases he''
      exact htrue
  · refine ⟨fun span hspan => ?_, nofun, fun expected' found span heq => ?_⟩
    · cases hspan
      exact hfits
    · cases heq
      exact hnext

end IntervalRules
