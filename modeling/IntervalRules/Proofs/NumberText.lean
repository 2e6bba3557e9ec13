import IntervalRules.Proofs.NumberValue
import IntervalRules.Proofs.Stops
import IntervalRules.Proofs.Trimming

/-!
Texts that hold one number. Such a text has a number of the grammar with an optional sign in front
of it, and otherwise trivia; `Text.Denotes` is the rational that it denotes, which is one only.
These are the texts that are read as a number, and they stay so when they are trimmed.
-/

namespace IntervalRules

open Literal (Form EndsBefore)

namespace Token

/-! ## The first token by its kind -/

theorem EndTrivia.endsBefore {cs : List Char} (h : EndTrivia cs) (number : List Char) :
    EndsBefore number cs := by
  have htrivia {front : List Char} (hfront : Trivia front) (hne : front ≠ []) (rest : List Char) :
      EndsBefore number (front ++ rest) := (hfront.stopsNumber hne rest).endsBefore number
  rcases h with hcs | ⟨front, body, hfront, -, rfl⟩
  · by_cases hne : cs = []
    · subst hne
      exact fun _ => nofun
    · simpa using htrivia hcs hne []
  · by_cases hne : front = []
    · subst hne
      have hslash : StopsNumber ('/' :: '/' :: body) := by
        rintro c ⟨⟩
        decide
      exact hslash.endsBefore number
    · exact htrivia hfront hne _

theorem kinds_lexeme {kind : TokenKind} {lexeme rest : List Char} (h : Lexeme kind lexeme)
    (hdelimited : Delimited kind lexeme rest) :
    kinds (lexeme ++ rest) = some kind :: kinds rest := by
  rw [kinds, itemsFrom_of_scan (scan_of_lexeme h hdelimited 0) h.kind_ne, List.map_cons,
    map_kind?_itemsFrom]
  rfl

theorem exists_lexeme_of_kinds {cs : List Char} {kind : TokenKind} {more : List (Option TokenKind)}
    (hne : kind ≠ .endOfInput) (h : kinds cs = some kind :: more) :
    ∃ gap lexeme rest, cs = gap ++ (lexeme ++ rest) ∧ Trivia gap ∧ Lexeme kind lexeme ∧
      kinds rest = more := by
  cases hscan : scan 0 cs with
  | error e =>
    rw [kinds, itemsFrom_of_scan_error hscan] at h
    cases h
  | ok r =>
    by_cases hkind : r.1.kind = .endOfInput
    · rw [kinds, itemsFrom_of_scan_end hscan hkind] at h
      obtain ⟨hfirst, -⟩ := List.cons.inj h
      exact absurd (hkind.symm.trans (Option.some.inj hfirst)).symm hne
    · rw [kinds, itemsFrom_of_scan hscan hkind, List.map_cons, map_kind?_itemsFrom] at h
      obtain ⟨hfirst, hmore⟩ := List.cons.inj h
      obtain ⟨gap, lexeme, hcs, hgap, hlexeme, -⟩ := (scan_eq_ok_iff hkind).1 hscan
      exact ⟨gap, lexeme, r.2, hcs, hgap, Option.some.inj hfirst ▸ hlexeme, hmore⟩

theorem endTrivia_of_kinds {cs : List Char} (h : kinds cs = [some .endOfInput]) :
    EndTrivia cs := by
  obtain ⟨item, hitems, hitem⟩ := List.map_eq_singleton_iff.1 h
  cases item with
  | error e => cases hitem
  | ok t => exact (endTrivia_of_itemsFrom hitems (Option.some.inj hitem)).1

end Token

namespace Expression

open Grammar (Bound Stops)

/-- Whatever is read as a bound has the tokens of one. -/
theorem exists_bound_of_ok {items : List Item} {r : Binary64 × List Item}
    (h : bound items = .ok r) :
    ∃ (b : Bound) (tokens : List Token), items = tokens.map .ok ++ r.2 ∧
      tokens.map Token.kind = b.kinds ∧ b.value = r.1 := by
  have hexit : ∀ t rest, items = .ok t :: rest → Grammar.Side.exit .lower t.kind = none := by
    rintro t rest rfl
    refine Grammar.Side.exit_lower_eq_none fun hcomma => ?_
    simp [bound, magnitude, hcomma, bind, Except.bind, throw, throwThe, MonadExceptOf.throw] at h
  rcases Grammar.bound_cases .lower items hexit with ⟨b, tokens, rest, rfl, hkinds⟩ | ⟨e, he, -⟩
  · rw [Grammar.bound_of_kinds hkinds] at h
    cases h
    exact ⟨b, tokens, rfl, hkinds, rfl⟩
  · rw [he] at h
    cases h

end Expression

open Grammar (Bound)

/-- A text is read as a number exactly if its tokens are those of a bound that is not NaN. -/
theorem parseNumber?_eq_some_iff (text : String) (x : Binary64) :
    parseNumber? text = some x ↔ x.isNaN = false ∧
      ∃ b : Bound, b.value = x ∧
        Token.kinds text.toList = (b.kinds ++ [TokenKind.endOfInput]).map some := by
  constructor
  · intro h
    unfold parseNumber? at h
    split at h
    · cases h
    · rename_i value rest hbound
      split at h
      · cases h
      · rename_i t ht
        split at h
        · rename_i hend
          cases h
          obtain ⟨b, tokens, hitems, hkinds, hvalue⟩ := Expression.exists_bound_of_ok hbound
          have hrest := Expression.eq_cons_of_head ht
          have hterminated : Token.Terminated rest :=
            (hitems ▸ Token.items_terminated text).of_append (by rw [hrest]; exact nofun)
          rw [hrest] at hterminated
          have htail := hterminated.eq_nil_of_end hend.1
          refine ⟨Bool.eq_false_iff.2 hend.2, b, hvalue, ?_⟩
          have hkind : Token.kind? (.ok t) = some .endOfInput := congrArg some hend.1
          rw [Token.kinds, ← Token.items, hitems, hrest, htail, List.map_append, List.map_append,
            ← hkinds, List.map_map, List.map_map, List.map_singleton, hkind]
          rfl
        · cases h
  · rintro ⟨hnan, b, rfl, hkinds⟩
    obtain ⟨tokens, hitems, htokens⟩ := Token.exists_tokens_of_map_kind? hkinds
    obtain ⟨front, last, rfl, hfront, hlast⟩ := List.map_eq_append_iff.1 htokens
    obtain ⟨t, rfl, ht⟩ := List.map_eq_singleton_iff.1 hlast
    have hbound : Expression.bound (Token.items text) = .ok (b.value, [.ok t]) := by
      rw [Token.items, hitems, List.map_append]
      exact Grammar.bound_of_kinds hfront _
    simp [parseNumber?, hbound, ht, hnan]

/-! ## One number

A form is determined by how it is written, and so is the number of a text. -/

namespace Literal.Form

/-- The integer part of a decimal is not written as an octal. -/
theorem octal_chars_ne_integer {digits integer : List Char} (h : (Form.octal digits).WellFormed)
    (hinteger : PlainInteger integer ∨ LegacyDecimal integer) : integer ≠ '0' :: digits := by
  rintro rfl
  have hyes := (Token.isOctal_of_octal h).1
  have hno := (Token.not_octal_of_integer (s := ⟨'0' :: digits, none, none, none⟩) hinteger).1
  rw [hyes] at hno
  cases hno

/-- A form without a radix mark is determined by its parts. -/
theorem eq_of_shape {form form' : Form} {s : DecimalShape} (h : form.WellFormed)
    (h' : form'.WellFormed) (hshape : form.shape? = some s) (hshape' : form'.shape? = some s) :
    form = form' := by
  cases form <;> cases hshape <;> cases form' <;> cases hshape'
  all_goals first
    | rfl
    | exact absurd rfl (octal_chars_ne_integer h' h.1)
    | exact absurd rfl (octal_chars_ne_integer h h'.1)

theorem eq_of_marked_chars_eq {radix radix' : Radix} {mark mark' : Char}
    {digits digits' : List Char} {exact exact' : Bool}
    (h : (Form.marked radix mark digits exact).WellFormed)
    (h' : (Form.marked radix' mark' digits' exact').WellFormed)
    (hchars : (Form.marked radix mark digits exact).chars =
      (Form.marked radix' mark' digits' exact').chars) :
    Form.marked radix mark digits exact = Form.marked radix' mark' digits' exact' := by
  have hsuffix {radix : Radix} {digits digits' : List Char} (hrun : DigitRun radix.base digits) :
      digits' ++ ['n'] ≠ digits := by
    rintro rfl
    have hn := hrun.chars 'n' (by simp)
    cases radix <;> cases hn
  injection hchars with _ htail
  injection htail with hmark hdigits
  subst hmark
  obtain rfl : radix = radix' := Option.some.inj (h.1.symm.trans h'.1)
  cases exact <;> cases exact'
  · simpa using hdigits
  · exact absurd (by simpa using hdigits.symm) (hsuffix h.2)
  · exact absurd (by simpa using hdigits) (hsuffix h'.2)
  · simpa using hdigits

/-- A number with a radix mark is not written as one without. -/
theorem chars_ne_marked_chars {radix : Radix} {mark : Char} {digits : List Char} {exact : Bool}
    {form : Form} {s : DecimalShape} (h : (Form.marked radix mark digits exact).WellFormed)
    (hform : form.WellFormed) (hshape : form.shape? = some s) :
    form.chars ≠ (Form.marked radix mark digits exact).chars := by
  intro hchars
  obtain ⟨hproper, hrun⟩ := proper_of_shape hshape hform
  have hnone := @DecimalShape.ofMark?_eq_none s [] (digits ++ if exact then ['n'] else []) mark
    hproper hrun.ne_nil nofun (by
      rw [List.append_nil, ← chars_of_shape hshape, hchars]
      rfl)
  rw [h.1] at hnone
  cases hnone

theorem split_chars_of_shape {form : Form} {s : DecimalShape} (hform : form.WellFormed)
    (hshape : form.shape? = some s) : DecimalShape.split form.chars = (s, []) := by
  have hproper := (proper_of_shape hshape hform).1
  have hends : s.Ends [] := DecimalShape.ends_of_endsBefore hproper (fun _ => nofun)
  have hwhole := DecimalShape.split_chars_append_of_ends hproper hends (fun _ _ => nofun)
  rwa [List.append_nil, ← chars_of_shape hshape] at hwhole

/-- No number is written as another one is. -/
theorem eq_of_chars_eq {form form' : Form} (h : form.WellFormed) (h' : form'.WellFormed)
    (hchars : form.chars = form'.chars) : form = form' := by
  rcases form.marked_or_shape with ⟨radix, mark, digits, exact, rfl⟩ | ⟨s, hshape⟩ <;>
    rcases form'.marked_or_shape with ⟨radix', mark', digits', exact', rfl⟩ | ⟨s', hshape'⟩
  · exact eq_of_marked_chars_eq h h' hchars
  · exact absurd hchars.symm (chars_ne_marked_chars h h' hshape')
  · exact absurd hchars (chars_ne_marked_chars h' h hshape)
  · have hshapes := split_chars_of_shape h hshape
    rw [hchars, split_chars_of_shape h' hshape'] at hshapes
    obtain rfl : s' = s := (Prod.mk.inj hshapes).1
    exact eq_of_shape h h' hshape hshape'

end Literal.Form

/-! ## Texts of one number -/

/-- What is written before a number for its sign. -/
def Grammar.signChars : Option Grammar.Sign → List Char
  | none => []
  | some .minus => ['-']
  | some .plus => ['+']

/-- A number with an optional sign, between trivia. -/
structure NumberText where
  lead : List Char
  sign : Option Grammar.Sign
  gap : List Char
  form : Form
  tail : List Char
  trivia_lead : Token.Trivia lead
  trivia_gap : Token.Trivia gap
  wellFormed : form.WellFormed
  endTrivia_tail : Token.EndTrivia tail

namespace NumberText

def chars (n : NumberText) : List Char :=
  n.lead ++ (Grammar.signChars n.sign ++ (n.gap ++ (n.form.chars ++ n.tail)))

/-- The rational that the number denotes, negated exactly if a minus sign precedes it. -/
def rational (n : NumberText) : ℚ :=
  match n.sign with
  | some .minus => -n.form.rational
  | some .plus | none => n.form.rational

theorem abs_rational (n : NumberText) : |n.rational| = n.form.rational := by
  have hnonneg := n.form.rational_nonneg
  rw [rational]
  split
  · rw [abs_neg, abs_of_nonneg hnonneg]
  · rw [abs_of_nonneg hnonneg]
  · rw [abs_of_nonneg hnonneg]

theorem kinds_chars (n : NumberText) {x : Literal} (hx : n.form.literal? = some x) :
    Token.kinds n.chars = ((Bound.mk n.sign x).kinds ++ [TokenKind.endOfInput]).map some := by
  have hnumber : Token.kinds (n.gap ++ (n.form.chars ++ n.tail)) =
      [some (.number x), some .endOfInput] := by
    rw [Token.kinds_append_trivia n.trivia_gap,
      Token.kinds_lexeme (.number n.wellFormed hx)
        (fun _ _ => n.endTrivia_tail.endsBefore n.form.chars),
      Token.kinds_of_endTrivia n.endTrivia_tail]
  rw [chars, Token.kinds_append_trivia n.trivia_lead]
  cases n.sign with
  | none => exact hnumber
  | some sign =>
    cases sign with
    | minus =>
      rw [Grammar.signChars, Token.kinds_lexeme .minus nofun, hnumber]
      rfl
    | plus =>
      rw [Grammar.signChars, Token.kinds_lexeme .plus nofun, hnumber]
      rfl

theorem exists_of_kinds {cs : List Char} {b : Bound}
    (h : Token.kinds cs = (b.kinds ++ [TokenKind.endOfInput]).map some) :
    ∃ n : NumberText, n.chars = cs := by
  obtain ⟨sign, x⟩ := b
  have hnumber {cs : List Char} (h : Token.kinds cs = [some (.number x), some .endOfInput]) :
      ∃ gap form tail, cs = gap ++ (Form.chars form ++ tail) ∧ Token.Trivia gap ∧
        form.WellFormed ∧ Token.EndTrivia tail := by
    obtain ⟨gap, lexeme, tail, hcs, hgap, hlexeme, htail⟩ :=
      Token.exists_lexeme_of_kinds (by exact nofun) h
    cases hlexeme with
    | @number form _ hform _ =>
      exact ⟨gap, form, tail, hcs, hgap, hform, Token.endTrivia_of_kinds htail⟩
  match sign with
  | none =>
    obtain ⟨gap, form, tail, hcs, hgap, hform, htail⟩ := hnumber h
    exact ⟨⟨[], none, gap, form, tail, .nil, hgap, hform, htail⟩, hcs.symm⟩
  | some .minus =>
    obtain ⟨lead, lexeme, rest, rfl, hlead, hlexeme, hrest⟩ :=
      @Token.exists_lexeme_of_kinds _ .minus _ nofun h
    cases hlexeme
    obtain ⟨gap, form, tail, rfl, hgap, hform, htail⟩ := hnumber hrest
    exact ⟨⟨lead, some .minus, gap, form, tail, hlead, hgap, hform, htail⟩, rfl⟩
  | some .plus =>
    obtain ⟨lead, lexeme, rest, rfl, hlead, hlexeme, hrest⟩ :=
      @Token.exists_lexeme_of_kinds _ .plus _ nofun h
    cases hlexeme
    obtain ⟨gap, form, tail, rfl, hgap, hform, htail⟩ := hnumber hrest
    exact ⟨⟨lead, some .plus, gap, form, tail, hlead, hgap, hform, htail⟩, rfl⟩

/-- Past trivia, the number and what is left are determined. -/
theorem eq_of_append_eq {gap gap' tail tail' : List Char} {form form' : Literal.Form}
    (hgap : Token.Trivia gap) (hgap' : Token.Trivia gap') (h : form.WellFormed)
    (h' : form'.WellFormed) (htail : Token.EndTrivia tail) (htail' : Token.EndTrivia tail')
    (heq : gap ++ (form.chars ++ tail) = gap' ++ (form'.chars ++ tail')) : form = form' := by
  obtain ⟨x, hx⟩ := Option.isSome_iff_exists.1 (Literal.Form.literal?_isSome h)
  obtain ⟨x', hx'⟩ := Option.isSome_iff_exists.1 (Literal.Form.literal?_isSome h')
  have hscan := Token.scan_of_lexeme (.number h hx) (fun _ _ => htail.endsBefore _)
    (0 + Text.byteLength gap)
  have hscan' := Token.scan_of_lexeme (.number h' hx') (fun _ _ => htail'.endsBefore _)
    (0 + Text.byteLength gap')
  rw [← Token.scan_append_trivia hgap] at hscan
  rw [← Token.scan_append_trivia hgap', ← heq, hscan] at hscan'
  injection hscan' with hpair
  injection hpair with htoken htails
  injection htoken with _ hspan
  subst htails
  have hfront : gap ++ form.chars = gap' ++ form'.chars :=
    List.append_cancel_right (by simpa using heq)
  have hlength : form.chars.length = form'.chars.length := by
    rw [← Token.byteLength_of_wellFormed h, ← Token.byteLength_of_wellFormed h']
    injection hspan
    omega
  exact Literal.Form.eq_of_chars_eq h h' (List.append_inj' hfront hlength).2

/-- Past trivia and a sign, what is left is determined. -/
theorem append_eq_of_sign {lead lead' rest rest' : List Char} {sign : Grammar.Sign}
    (hlead : Token.Trivia lead) (hlead' : Token.Trivia lead')
    (heq : lead ++ (Grammar.signChars (some sign) ++ rest) =
      lead' ++ (Grammar.signChars (some sign) ++ rest')) : rest = rest' := by
  have hsign : Token.Lexeme sign.kind (Grammar.signChars (some sign)) := by
    cases sign
    · exact .minus
    · exact .plus
  have hdelimited (rest : List Char) :
      Token.Delimited sign.kind (Grammar.signChars (some sign)) rest := by
    cases sign <;> exact nofun
  have hscan := Token.scan_of_lexeme hsign (hdelimited rest) (0 + Text.byteLength lead)
  have hscan' := Token.scan_of_lexeme hsign (hdelimited rest') (0 + Text.byteLength lead')
  rw [← Token.scan_append_trivia hlead] at hscan
  rw [← Token.scan_append_trivia hlead', ← heq, hscan] at hscan'
  injection hscan' with hpair
  injection hpair

theorem sign_eq {n n' : NumberText} (h : n.chars = n'.chars) : n.sign = n'.sign := by
  obtain ⟨x, hx⟩ := Option.isSome_iff_exists.1 (Literal.Form.literal?_isSome n.wellFormed)
  obtain ⟨x', hx'⟩ := Option.isSome_iff_exists.1 (Literal.Form.literal?_isSome n'.wellFormed)
  have hkinds := (n.kinds_chars hx).symm.trans (h ▸ n'.kinds_chars hx')
  rcases hsign : n.sign with _ | _ | _ <;> rcases hsign' : n'.sign with _ | _ | _ <;>
    simp_all [Grammar.Bound.kinds, Grammar.Sign.kind]

/-- A text holds one number only. -/
theorem rational_eq {n n' : NumberText} (h : n.chars = n'.chars) : n.rational = n'.rational := by
  have hsign := sign_eq h
  obtain ⟨lead, sign, gap, form, tail, hlead, hgap, hform, htail⟩ := n
  obtain ⟨lead', sign', gap', form', tail', hlead', hgap', hform', htail'⟩ := n'
  obtain rfl : sign = sign' := hsign
  have hforms : form = form' := by
    cases sign with
    | none =>
      refine eq_of_append_eq (hlead.append hgap) (hlead'.append hgap') hform hform' htail htail' ?_
      simpa [chars, Grammar.signChars] using h
    | some sign =>
      have hrest := append_eq_of_sign hlead hlead' h
      exact eq_of_append_eq hgap hgap' hform hform' htail htail' hrest
  subst hforms
  rfl

/-- The text is read as its number with the sign. -/
theorem parseNumber?_eq {text : String} (n : NumberText) (h : n.chars = text.toList) {x : Literal}
    (hx : n.form.literal? = some x) :
    parseNumber? text = some (Bound.mk n.sign x).value ∧
      (Bound.mk n.sign x).value.ReadAs |n.rational| := by
  have hkinds := h ▸ n.kinds_chars hx
  have hread : (Bound.mk n.sign x).value.ReadAs |n.rational| := by
    have hvalue := Literal.Form.readAs_value n.wellFormed hx
    rw [abs_rational, Bound.value]
    split
    · exact hvalue.neg
    · exact hvalue
    · exact hvalue
  exact ⟨(parseNumber?_eq_some_iff text _).2 ⟨hread.isNaN_eq_false, _, rfl, hkinds⟩, hread⟩

theorem exists_parseNumber? {text : String} (n : NumberText) (h : n.chars = text.toList) :
    ∃ x, parseNumber? text = some x ∧ x.ReadAs |n.rational| := by
  obtain ⟨x, hx⟩ := Option.isSome_iff_exists.1 (Literal.Form.literal?_isSome n.wellFormed)
  exact ⟨_, n.parseNumber?_eq h hx⟩

/-- Whatever is read as a number is the number of such a text. -/
theorem exists_of_parseNumber? {text : String} {y : Binary64} (h : parseNumber? text = some y) :
    ∃ (n : NumberText) (x : Literal), n.chars = text.toList ∧ n.form.literal? = some x ∧
      (Bound.mk n.sign x).value = y := by
  obtain ⟨-, b, -, hkinds⟩ := (parseNumber?_eq_some_iff text y).1 h
  obtain ⟨n, hn⟩ := exists_of_kinds hkinds
  obtain ⟨x, hx⟩ := Option.isSome_iff_exists.1 (Literal.Form.literal?_isSome n.wellFormed)
  exact ⟨n, x, hn, hx, Option.some.inj ((n.parseNumber?_eq hn hx).1.symm.trans h)⟩

end NumberText

/-- The text holds one number, which denotes the rational. -/
def Text.Denotes (text : String) (q : ℚ) : Prop :=
  ∃ n : NumberText, n.chars = text.toList ∧ n.rational = q

/-- A text denotes one rational only. -/
theorem Text.Denotes.unique {text : String} {q r : ℚ} (h : Denotes text q) (h' : Denotes text r) :
    q = r := by
  obtain ⟨n, hn, rfl⟩ := h
  obtain ⟨n', hn', rfl⟩ := h'
  exact NumberText.rational_eq (hn.trans hn'.symm)

/-- It is read as the rational that it denotes. -/
theorem Text.Denotes.exists_parseNumber? {text : String} {q : ℚ} (h : Denotes text q) :
    ∃ x, parseNumber? text = some x ∧ x.ReadAs |q| := by
  obtain ⟨n, hchars, rfl⟩ := h
  exact n.exists_parseNumber? hchars

/-! ## Trimming -/

theorem Token.Trivia.dropWhile {gap : List Char} (h : Trivia gap) :
    Trivia (gap.dropWhile Text.isBlank) := by
  have hslash (rest : List Char) : ('/' :: rest).dropWhile Text.isBlank = '/' :: rest :=
    List.dropWhile_cons_of_neg (by decide)
  induction h with
  | nil => exact .nil
  | @blank c rest hc hrest ih =>
    cases hblank : Text.isBlank c with
    | true => rwa [List.dropWhile_cons_of_pos hblank]
    | false =>
      rw [List.dropWhile_cons_of_neg (by simp [hblank])]
      exact .blank hc hrest
  | block hbody hrest _ =>
    rw [hslash]
    exact .block hbody hrest
  | line hbody hnewline hrest _ =>
    rw [hslash]
    exact .line hbody hnewline hrest

/-- Trimming stays outside a text that neither starts nor ends in a blank. -/
theorem Token.exists_trimChars_eq {gap body : List Char} (hgap : Trivia gap)
    (hhead : ∀ c ∈ body.head?, Text.isBlank c = false) (hne : body ≠ [])
    (hlast : ∀ c ∈ body.getLast?, Text.isBlank c = false) (tail : List Char) :
    ∃ gap', Trivia gap' ∧ Text.trimChars (gap ++ (body ++ tail)) =
      gap' ++ (body ++ Text.dropEnd Text.isBlank tail) := by
  refine ⟨gap.dropWhile Text.isBlank, hgap.dropWhile, ?_⟩
  obtain ⟨c, rest, rfl⟩ := List.exists_cons_of_ne_nil hne
  have hkeep : (c :: rest ++ tail).dropWhile Text.isBlank = c :: rest ++ tail :=
    List.dropWhile_cons_of_neg (by simp [hhead c rfl])
  have hdrop : (gap ++ (c :: rest ++ tail)).dropWhile Text.isBlank =
      gap.dropWhile Text.isBlank ++ (c :: rest) ++ tail := by
    rw [List.dropWhile_append, List.append_assoc]
    split
    · rename_i hempty
      rw [List.isEmpty_iff.1 hempty, hkeep, List.nil_append]
    · rfl
  rw [Text.trimChars, hdrop, Text.dropEnd_append, List.append_assoc]
  rwa [List.getLast?_append_of_ne_nil _ hne]

/-- Trimming keeps the number of a text. -/
theorem Text.Denotes.trim {text : String} {q : ℚ} (h : Denotes text q) :
    Denotes (Text.trim text) q := by
  obtain ⟨⟨lead, sign, gap, form, tail, hlead, hgap, hform, htail⟩, hchars, rfl⟩ := h
  obtain ⟨x, hx⟩ := Option.isSome_iff_exists.1 (Literal.Form.literal?_isSome hform)
  have hlexeme := Token.Lexeme.number hform hx
  have hne := hlexeme.ne_nil
  have hlast : ∀ c ∈ form.chars.getLast?, isBlank c = false :=
    fun c hc => hlexeme.isBlank_eq_false c (List.mem_of_getLast? hc)
  have htrim : (Text.trim text).toList = trimChars text.toList := String.toList_ofList
  rw [NumberText.chars] at hchars
  match sign with
  | none =>
    obtain ⟨gap', hgap', htext⟩ := Token.exists_trimChars_eq (hlead.append hgap)
      (fun c hc => hlexeme.isBlank_eq_false c (List.mem_of_head? hc)) hne hlast tail
    refine ⟨⟨[], none, gap', form, dropEnd isBlank tail, .nil, hgap', hform, htail.dropEnd⟩, ?_,
      rfl⟩
    rw [htrim, ← hchars]
    simpa [NumberText.chars, Grammar.signChars] using htext.symm
  | some s =>
    have hsign : ∃ c, Grammar.signChars (some s) = [c] ∧ isBlank c = false := by
      cases s
      · exact ⟨'-', rfl, by decide⟩
      · exact ⟨'+', rfl, by decide⟩
    obtain ⟨c, hc, hblank⟩ := hsign
    have hend : ∀ d ∈ (c :: (gap ++ form.chars)).getLast?, isBlank d = false := by
      rwa [← List.cons_append, List.getLast?_append_of_ne_nil _ hne]
    have hhead : ∀ d ∈ (c :: (gap ++ form.chars)).head?, isBlank d = false := by
      rintro _ ⟨⟩
      exact hblank
    obtain ⟨lead', hlead', htext⟩ :=
      Token.exists_trimChars_eq hlead hhead (List.cons_ne_nil c _) hend tail
    refine ⟨⟨lead', some s, gap, form, dropEnd isBlank tail, hlead', hgap, hform, htail.dropEnd⟩,
      ?_, rfl⟩
    rw [htrim, ← hchars]
    simpa [NumberText.chars, hc] using htext.symm

/-- The texts that are read as a number are those that denote a rational. -/
theorem exists_denotes_iff (text : String) :
    (∃ q, Text.Denotes text q) ↔ (parseNumber? text).isSome = true := by
  constructor
  · rintro ⟨q, h⟩
    obtain ⟨x, hx, -⟩ := h.exists_parseNumber?
    rw [hx]
    rfl
  · intro h
    obtain ⟨y, hy⟩ := Option.isSome_iff_exists.1 h
    obtain ⟨n, -, hn, -⟩ := NumberText.exists_of_parseNumber? hy
    exact ⟨n.rational, n, hn, rfl⟩

end IntervalRules
