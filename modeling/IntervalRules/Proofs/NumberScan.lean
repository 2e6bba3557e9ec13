import IntervalRules.Proofs.DecimalReading

/-!
The scanner of a number takes a number of the grammar, and takes each one that ends where it
stands.
-/

namespace IntervalRules

open Literal (isRunChar StopsRun Form Continues EndsBefore DigitRun)

namespace DecimalShape

variable {s : DecimalShape} {rest : List Char} {c : Char}

theorem mem_chars (hs : s.Proper) (h : c ∈ s.chars) :
    isRunChar 10 c = true ∨ c ∈ ['.', '+', '-', 'e', 'E'] ∨ s.suffix.map Suffix.char = some c := by
  rw [chars_eq, List.mem_append, List.mem_append, List.mem_append] at h
  rcases h with h | h | h | h
  · exact .inl (hs.integer c h)
  · cases hfraction : s.fraction with
    | none => simp [hfraction, Form.fractionChars] at h
    | some digits =>
      rw [hfraction] at h
      rcases List.mem_cons.1 h with rfl | h
      · exact .inr (.inl (by simp))
      · exact .inl (hs.fraction digits hfraction c h)
  · cases hexponent : s.exponent with
    | none => simp [hexponent, Form.exponentChars] at h
    | some e =>
      rw [hexponent] at h
      rcases List.mem_cons.1 h with rfl | h
      · rcases hs.mark e hexponent with hmark | hmark <;> rw [hmark] <;> simp
      · rcases List.mem_append.1 h with h | h
        · rcases hs.sign e hexponent c (Option.mem_toList.1 h) with rfl | rfl <;> simp
        · exact .inl ((hs.exponent e hexponent).2 c h)
  · exact .inr (.inr (Option.mem_toList.1 h))

theorem getLast?_chars {suffix : Suffix} (h : s.suffix = some suffix) :
    s.chars.getLast? = some suffix.char := by
  simp [chars, h]

/-- Without a suffix the last character is none. -/
theorem getLast?_chars_ne (hs : s.Proper) (h : s.suffix = none) :
    s.chars.getLast? ≠ some 'n' ∧ s.chars.getLast? ≠ some 'm' := by
  have hnot (d : Char) (hd : isRunChar 10 d = false ∧ d ∉ ['.', '+', '-', 'e', 'E']) :
      s.chars.getLast? ≠ some d := by
    intro hlast
    rcases mem_chars hs (List.mem_of_getLast? hlast) with hrun | hmem | hsuffix
    · rw [hd.1] at hrun
      cases hrun
    · exact hd.2 hmem
    · rw [h] at hsuffix
      cases hsuffix
  exact ⟨hnot 'n' (by decide), hnot 'm' (by decide)⟩

theorem ends_of_endsBefore (hs : s.Proper) (h : EndsBefore s.chars rest) : s.Ends rest where
  stopsRun := by
    intro hsuffix c hc
    obtain ⟨hn, hm⟩ := getLast?_chars_ne hs hsuffix
    rw [Bool.eq_false_iff]
    intro hrun
    rcases (Literal.isRunChar_iff 10 c).1 hrun with rfl | hdigit
    · exact h '_' hc (.inl (by decide))
    · exact h c hc (.inr (.inl ⟨hdigit, hn, hm⟩))
  point := by
    intro hsuffix hexponent hfraction hpoint
    refine h '.' hpoint (.inr (.inr ⟨rfl, ?_⟩))
    simpa [chars_eq, hsuffix, hexponent, hfraction, Form.fractionChars, Form.exponentChars]
      using hs.integer

theorem not_continues_of_ends (hs : s.Proper) (hends : s.Ends rest) (hc : c ∈ rest.head?)
    (hidentifier : CharClass.isIdentifierStart c = false) : ¬ Continues s.chars c := by
  rintro (h | ⟨hdigit, hn, hm⟩ | ⟨rfl, hrun⟩)
  · rw [hidentifier] at h
    cases h
  · cases hsuffix : s.suffix with
    | none =>
      have hstops := hends.stopsRun hsuffix c hc
      rw [(Literal.isRunChar_iff 10 c).2 (.inr hdigit)] at hstops
      cases hstops
    | some suffix =>
      rw [getLast?_chars hsuffix] at hn hm
      cases suffix with
      | bigInteger => exact hn rfl
      | decimal => exact hm rfl
  · rw [chars_eq] at hrun
    have hsuffix : s.suffix = none := by
      cases hsuffix : s.suffix with
      | none => rfl
      | some suffix =>
        have hchar := hrun suffix.char (by simp [hsuffix])
        cases suffix <;> cases hchar
    have hexponent : s.exponent = none := by
      cases hexponent : s.exponent with
      | none => rfl
      | some e =>
        have hchar := hrun e.mark (by simp [hexponent, Form.exponentChars, Exponent.chars])
        rcases hs.mark e hexponent with hmark | hmark <;> rw [hmark] at hchar <;> cases hchar
    have hfraction : s.fraction = none := by
      cases hfraction : s.fraction with
      | none => rfl
      | some digits =>
        have hchar := hrun '.' (by simp [hfraction, Form.fractionChars])
        cases hchar
    exact hends.point hsuffix hexponent hfraction hc

end DecimalShape

/-- A mark of a radix is an ASCII letter that no part of a decimal holds. -/
theorem Radix.facts_of_ofMark? {mark : Char} {radix : Radix}
    (h : Radix.ofMark? mark = some radix) :
    (32 < mark.toNat ∧ mark.toNat < 127) ∧ CharClass.isIdentifierStart mark = true ∧
      isRunChar 10 mark = false ∧
      mark ∉ ['.', '+', '-', 'e', 'E'] ∧ mark ≠ 'n' ∧ mark ≠ 'm' := by
  unfold Radix.ofMark? at h
  split at h
  all_goals first
    | decide
    | cases h

/-- No radix mark is at the front of a decimal shape. -/
theorem DecimalShape.ofMark?_eq_none {s : DecimalShape} {rest tail : List Char} {mark : Char}
    (hs : s.Proper) (hne : s.integer ≠ [])
    (hrest : ∀ c ∈ rest.head?, CharClass.isIdentifierStart c = false)
    (h : s.chars ++ rest = '0' :: mark :: tail) : Radix.ofMark? mark = none := by
  cases hmark : Radix.ofMark? mark with
  | none => rfl
  | some radix =>
    exfalso
    obtain ⟨-, hidentifier, hrun, hlist, hn, hm⟩ := Radix.facts_of_ofMark? hmark
    by_cases hin : mark ∈ s.chars
    · rcases mem_chars hs hin with h | h | h
      · rw [hrun] at h
        cases h
      · exact hlist h
      · cases hsuffix : s.suffix with
        | none =>
          rw [hsuffix] at h
          cases h
        | some suffix =>
          rw [hsuffix] at h
          cases suffix with
          | bigInteger => exact hn (Option.some.inj h).symm
          | decimal => exact hm (Option.some.inj h).symm
    · -- The shape is a single zero then, and the mark stands after it.
      match hchars : s.chars with
      | [] => simp [chars_eq, hne] at hchars
      | [d] =>
        rw [hchars] at h
        have hhead : rest = mark :: tail := (List.cons.inj h).2
        have hstart := hrest mark (by rw [hhead]; rfl)
        rw [hidentifier] at hstart
        cases hstart
      | d :: e :: more =>
        rw [hchars] at h hin
        have heq : e = mark := (List.cons.inj (List.cons.inj h).2).1
        exact hin (by rw [heq]; simp)

namespace Token

/-- The scanner's result is a number of the grammar at the front of the text. -/
structure Takes (start : Nat) (cs : List Char) (form : Form) (r : Scanned) : Prop where
  wellFormed : form.WellFormed
  text : cs = form.chars ++ r.rest
  literal : form.literal? = some r.literal
  stop : r.stop = start + form.chars.length

variable {start : Nat} {cs : List Char} {form : Form} {r : Scanned}

/-! ## What is scanned

The digits or the shape at the front of the text go as far as they can, and what comes of them is
one of the outcomes of the scanner. -/

section

variable {result : Except TokenError Scanned}

theorem exists_digits_of_scanRadix {radix : Radix} (h : scanRadix start radix cs = result) :
    ∃ digits rest, cs = digits ++ rest ∧ (∀ c ∈ digits, isRunChar radix.base c = true) ∧
      StopsRun radix.base rest ∧ RadixOutcome start radix digits rest result :=
  ⟨_, _, (Literal.run_append_afterRun radix.base cs).symm,
    fun _ hc => Literal.isRunChar_of_mem_run hc, Literal.stopsRun_afterRun radix.base cs,
    scanRadix_eq_iff.1 h⟩

theorem scanRadix_append_eq_iff {radix : Radix} {digits rest : List Char}
    (hchars : ∀ c ∈ digits, isRunChar radix.base c = true) (hstops : StopsRun radix.base rest) :
    scanRadix start radix (digits ++ rest) = result ↔
      RadixOutcome start radix digits rest result := by
  rw [scanRadix_eq_iff, Literal.run_append hchars hstops, Literal.afterRun_append hchars hstops]

theorem exists_shape_of_scanDecimal (h : scanDecimal start cs = result) :
    ∃ s rest, cs = s.chars ++ rest ∧ s.Proper ∧ s.Ends rest ∧
      (∀ c ∈ cs.head?, isRunChar 10 c = true → s.integer ≠ []) ∧
      DecimalOutcome start s rest result := by
  refine ⟨_, _, (DecimalShape.split_chars_append cs).symm, DecimalShape.proper_split cs,
    DecimalShape.ends_split cs, ?_, scanDecimal_eq_iff.1 h⟩
  intro c hc hchar
  obtain ⟨more, rfl⟩ := List.head?_eq_some_iff.1 hc
  have hrun : (DecimalShape.split (c :: more)).1.integer = c :: Literal.run 10 more :=
    List.takeWhile_cons_of_pos hchar
  rw [hrun]
  exact List.cons_ne_nil _ _

end

/-! ## With a radix mark -/

theorem not_continues_marked {radix : Radix} {mark c : Char} {digits : List Char} {exact : Bool}
    (hmark : Radix.ofMark? mark = some radix)
    (hidentifier : CharClass.isIdentifierStart c = false)
    (hdigit : exact = false → Text.isDigit 10 c = false) :
    ¬ Continues (Form.marked radix mark digits exact).chars c := by
  rintro (h | ⟨h, hn, -⟩ | ⟨-, hrun⟩)
  · rw [hidentifier] at h
    cases h
  · cases exact with
    | true => exact hn (List.getLast?_concat (l := '0' :: mark :: digits))
    | false =>
      rw [hdigit rfl] at h
      cases h
  · have hchar := hrun mark (by simp [Form.chars])
    rw [(Radix.facts_of_ofMark? hmark).2.2.1] at hchar
    cases hchar

theorem getLast?_marked {radix : Radix} {mark : Char} {digits : List Char}
    (hrun : DigitRun radix.base digits) :
    (Form.marked radix mark digits false).chars.getLast? ≠ some 'n' ∧
      (Form.marked radix mark digits false).chars.getLast? ≠ some 'm' := by
  have hlast : (Form.marked radix mark digits false).chars.getLast? =
      some (digits.getLast hrun.ne_nil) := by
    have hchars : (Form.marked radix mark digits false).chars = ['0', mark] ++ digits := by
      simp [Form.chars]
    rw [hchars, List.getLast?_append, List.getLast?_eq_some_getLast hrun.ne_nil, Option.some_or]
  have hcode := Literal.toNat_of_isRunChar (hrun.chars _ (List.getLast_mem hrun.ne_nil))
  rw [hlast]
  constructor
  · intro h
    rw [Option.some.inj h, show 'n'.toNat = 110 from rfl] at hcode
    omega
  · intro h
    rw [Option.some.inj h, show 'm'.toNat = 109 from rfl] at hcode
    omega

theorem scanRadix_sound {radix : Radix} {mark : Char} (hmark : Radix.ofMark? mark = some radix)
    (h : scanRadix start radix cs = .ok r) :
    ∃ form, Takes start ('0' :: mark :: cs) form r ∧
      ∀ c ∈ r.rest.head?, CharClass.isIdentifierStart c = false → ¬ Continues form.chars c := by
  obtain ⟨digits, rest, rfl, hchars, -, houtcome⟩ := exists_digits_of_scanRadix h
  cases houtcome with
  | bigInteger checks suffix =>
    have hrun := (Literal.digitRun_iff hchars).2 ⟨checks.ne_nil, checks.separators⟩
    refine ⟨.marked radix mark digits true, ⟨⟨hmark, hrun⟩, ?_, rfl, ?_⟩, ?_⟩
    · simp [Form.chars, suffix]
    · simp [Form.chars]
      omega
    · exact fun c _ hidentifier =>
        not_continues_marked hmark hidentifier fun h => Bool.noConfusion h
  | number checks =>
    have hrun := (Literal.digitRun_iff hchars).2 ⟨checks.ne_nil, checks.separators⟩
    refine ⟨.marked radix mark digits false, ⟨⟨hmark, hrun⟩, ?_, rfl, ?_⟩, ?_⟩
    · simp [Form.chars]
    · simp [Form.chars]
      omega
    · exact fun c hc hidentifier =>
        not_continues_marked hmark hidentifier fun _ => checks.ends c hc

theorem not_digit_of_endsBefore {radix : Radix} {mark : Char} {digits rest : List Char}
    (hrun : DigitRun radix.base digits)
    (hends : EndsBefore (Form.marked radix mark digits false).chars rest) :
    ∀ c ∈ rest.head?, Text.isDigit 10 c = false := by
  intro c hc
  rw [Bool.eq_false_iff]
  intro hdigit
  exact hends c hc (.inr (.inl ⟨hdigit, getLast?_marked hrun⟩))

theorem stopsRun_of_endsBefore {number rest : List Char} (base : Nat)
    (hends : EndsBefore number rest) (hdigit : ∀ c ∈ rest.head?, Text.isDigit 10 c = false) :
    StopsRun base rest := by
  intro c hc
  rw [Bool.eq_false_iff]
  intro hchar
  rcases (Literal.isRunChar_iff base c).1 hchar with rfl | hrun
  · exact hends.head?_ne (by decide) hc
  · rcases Literal.isDigit_or_isIdentifierStart hrun with h | h
    · rw [hdigit c hc] at h
      cases h
    · exact hends.head?_ne h hc

theorem scanRadix_complete {radix : Radix} {mark : Char} {digits : List Char} {exact : Bool}
    (h : Takes start cs (.marked radix mark digits exact) r)
    (hends : EndsBefore (Form.marked radix mark digits exact).chars r.rest) :
    ∃ tail, cs = '0' :: mark :: tail ∧ scanRadix start radix tail = .ok r := by
  obtain ⟨⟨hmark, hrun⟩, htext, hliteral, hstop⟩ := h
  obtain ⟨literal, stop, rest⟩ := r
  dsimp only at htext hliteral hstop hends
  obtain ⟨hne, hseparators⟩ := (Literal.digitRun_iff hrun.chars).1 hrun
  refine ⟨digits ++ ((if exact then ['n'] else []) ++ rest), by simp [htext, Form.chars], ?_⟩
  cases exact with
  | true =>
    have hstops : StopsRun radix.base ('n' :: rest) := by
      rintro c ⟨⟩
      cases radix <;> rfl
    have hdigit : ∀ c ∈ ('n' :: rest).head?, Text.isDigit 10 c = false := by
      rintro c ⟨⟩
      rfl
    cases hliteral
    have hlength : stop = start + 2 + digits.length + 1 := by
      rw [hstop]
      simp [Form.chars]
      omega
    rw [hlength]
    exact (scanRadix_append_eq_iff hrun.chars hstops).2
      (.bigInteger ⟨hdigit, hne, hseparators⟩ rfl)
  | false =>
    have hdigit := not_digit_of_endsBefore hrun hends
    have hstops := stopsRun_of_endsBefore radix.base hends hdigit
    have hbare : ∀ c ∈ rest.head?, c ≠ 'n' ∧ c ≠ 'm' := by
      refine fun c hc => ⟨?_, ?_⟩
      all_goals
        rintro rfl
        exact hends.head?_ne (by decide) hc
    cases hliteral
    have hlength : stop = start + 2 + digits.length := by
      rw [hstop]
      simp [Form.chars]
      omega
    rw [if_neg Bool.false_ne_true, List.nil_append, hlength]
    exact (scanRadix_append_eq_iff hrun.chars hstops).2
      (.number ⟨hdigit, hne, hseparators⟩ hbare)

/-! ## Without a radix mark -/

theorem scanDecimal_sound (h : scanDecimal start cs = .ok r) :
    ∃ form, Takes start cs form r ∧
      ∀ c ∈ r.rest.head?, CharClass.isIdentifierStart c = false → ¬ Continues form.chars c := by
  obtain ⟨s, rest, htext, hproper, hends, -, houtcome⟩ := exists_shape_of_scanDecimal h
  cases houtcome with
  | literal checks accepted =>
    obtain ⟨form, hshape, hform, hdenoted⟩ :=
      exists_form_of_accepted hproper checks.ne_nil checks.separators accepted
    have hchars := Form.chars_of_shape hshape
    refine ⟨form, ⟨hform, ?_, hdenoted, ?_⟩, ?_⟩
    · rw [hchars, htext]
    · rw [hchars]
    · intro c hc hidentifier
      rw [hchars]
      exact DecimalShape.not_continues_of_ends hproper hends hc hidentifier

theorem scanDecimal_complete {s : DecimalShape} (hshape : form.shape? = some s)
    (h : Takes start cs form r) (hends : EndsBefore form.chars r.rest) :
    scanDecimal start cs = .ok r := by
  obtain ⟨hform, htext, hliteral, hstop⟩ := h
  obtain ⟨literal, stop, rest⟩ := r
  dsimp only at htext hliteral hstop hends
  obtain ⟨hproper, hinteger⟩ := Form.proper_of_shape hshape hform
  obtain ⟨hseparators, haccepted⟩ := accepted_of_form hshape hform hliteral
  rw [Form.chars_of_shape hshape] at htext hstop hends
  have hsplit : DecimalShape.split cs = (s, rest) := by
    rw [htext]
    refine DecimalShape.split_chars_append_of_ends hproper
      (DecimalShape.ends_of_endsBefore hproper hends) fun _ c hc => ⟨⟨?_, ?_⟩, ?_, ?_⟩
    all_goals
      rintro rfl
      exact hends.head?_ne (by decide) hc
  have hmark : ∀ c ∈ rest.head?, c ≠ 'e' ∧ c ≠ 'E' := by
    refine fun c hc => ⟨?_, ?_⟩
    all_goals
      rintro rfl
      exact hends.head?_ne (by decide) hc
  rw [scanDecimal_eq_iff, hsplit, hstop]
  exact .literal ⟨hinteger.ne_nil, hmark, hseparators⟩ haccepted

/-! ## Numbers -/

theorem scanLiteral_sound (h : scanLiteral start cs = .ok r) :
    ∃ form, Takes start cs form r ∧
      ∀ c ∈ r.rest.head?, CharClass.isIdentifierStart c = false → ¬ Continues form.chars c := by
  cases scanLiteral_eq_iff.1 h with
  | marked text marked scanned => exact text ▸ scanRadix_sound marked scanned
  | unmarked _ scanned => exact scanDecimal_sound scanned

theorem scanLiteral_complete (h : Takes start cs form r) (hends : EndsBefore form.chars r.rest) :
    scanLiteral start cs = .ok r := by
  rw [scanLiteral_eq_iff]
  rcases form.marked_or_shape with ⟨radix, mark, digits, exact, rfl⟩ | ⟨s, hshape⟩
  · obtain ⟨tail, htext, hscan⟩ := scanRadix_complete h hends
    exact .marked htext h.wellFormed.1 hscan
  · refine .unmarked ?_ (scanDecimal_complete hshape h hends)
    rintro mark tail htext
    obtain ⟨hproper, hinteger⟩ := Form.proper_of_shape hshape h.wellFormed
    rw [h.text, Form.chars_of_shape hshape] at htext
    exact DecimalShape.ofMark?_eq_none hproper hinteger.ne_nil hends.isIdentifierStart_eq_false
      htext

/-- What is scanned as a number is one of the grammar that ends there, and each is scanned. -/
theorem scanNumber_eq_ok_iff :
    scanNumber start cs = .ok r ↔ ∃ form, Takes start cs form r ∧ EndsBefore form.chars r.rest := by
  rw [scanNumber_eq_iff]
  constructor
  · intro h
    cases h with
    | number literal hidentifier =>
      obtain ⟨form, htakes, hends⟩ := scanLiteral_sound literal
      exact ⟨form, htakes, fun c hc => hends c hc (hidentifier c hc)⟩
  · rintro ⟨form, htakes, hends⟩
    exact .number (scanLiteral_complete htakes hends) hends.isIdentifierStart_eq_false

end Token

end IntervalRules
