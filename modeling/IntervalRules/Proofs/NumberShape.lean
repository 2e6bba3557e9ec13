import IntervalRules.Proofs.NumberGrammar

/-!
Decimal shapes. Taking a shape from the front of a text undoes writing it out, if the text after
it does not go on with it; and the shapes that are accepted are those of the forms.
-/

namespace IntervalRules

open Literal (isRunChar StopsRun run afterRun)
open Literal.Form (fractionChars exponentChars)

/-- The parts of a shape hold the characters that the scanner takes into them. -/
structure DecimalShape.Proper (s : DecimalShape) : Prop where
  integer : ∀ c ∈ s.integer, isRunChar 10 c = true
  fraction : ∀ digits ∈ s.fraction, ∀ c ∈ digits, isRunChar 10 c = true
  mark : ∀ e ∈ s.exponent, e.mark = 'e' ∨ e.mark = 'E'
  sign : ∀ e ∈ s.exponent, ∀ c ∈ e.sign, c = '+' ∨ c = '-'
  exponent : ∀ e ∈ s.exponent, e.digits ≠ [] ∧ ∀ c ∈ e.digits, isRunChar 10 c = true

/-- The text goes on with no part of the shape. -/
structure DecimalShape.Ends (s : DecimalShape) (rest : List Char) : Prop where
  stopsRun : s.suffix = none → StopsRun 10 rest
  point : s.suffix = none → s.exponent = none → s.fraction = none → rest.head? ≠ some '.'

/-! ## The parts of a text -/

theorem Exponent.split_chars {e : Exponent} {rest : List Char}
    (hmark : e.mark = 'e' ∨ e.mark = 'E') (hsign : ∀ c ∈ e.sign, c = '+' ∨ c = '-')
    (hne : e.digits ≠ []) (hdigits : ∀ c ∈ e.digits, isRunChar 10 c = true)
    (hrest : StopsRun 10 rest) : Exponent.split (e.chars ++ rest) = (some e, rest) := by
  obtain ⟨mark, sign, digits⟩ := e
  have hfilter : ((sign.toList ++ digits ++ rest).head?.filter fun c => c == '+' || c == '-') =
      sign := by
    cases sign with
    | some c => rcases hsign c rfl with rfl | rfl <;> rfl
    | none =>
      obtain ⟨d, more, rfl⟩ := List.exists_cons_of_ne_nil hne
      have hd := hdigits d List.mem_cons_self
      have hplus : d ≠ '+' := by
        rintro rfl
        cases hd
      have hminus : d ≠ '-' := by
        rintro rfl
        cases hd
      simp [Option.filter, hplus, hminus]
  have hdrop : (sign.toList ++ digits ++ rest).drop sign.toList.length = digits ++ rest := by
    rw [List.append_assoc, List.drop_left]
  rw [Exponent.chars, List.cons_append, List.cons_append]
  unfold Exponent.split
  dsimp only
  rw [if_pos hmark, hfilter, hdrop, Literal.run_append hdigits hrest,
    Literal.afterRun_append hdigits hrest, if_neg hne]

theorem Exponent.split_of_head {rest : List Char} (h : ∀ c ∈ rest.head?, c ≠ 'e' ∧ c ≠ 'E') :
    Exponent.split rest = (none, rest) := by
  cases rest with
  | nil => rfl
  | cons c rest =>
    have hc := h c rfl
    simp [Exponent.split, hc.1, hc.2]

theorem Exponent.proper_split (cs : List Char) :
    ∀ e ∈ (Exponent.split cs).1, (e.mark = 'e' ∨ e.mark = 'E') ∧
      (∀ c ∈ e.sign, c = '+' ∨ c = '-') ∧ e.digits ≠ [] ∧
        (∀ c ∈ e.digits, isRunChar 10 c = true) ∧ StopsRun 10 (Exponent.split cs).2 := by
  unfold Exponent.split
  split
  · rintro e ⟨⟩
  · rename_i mark more
    split
    · rename_i hmark
      dsimp only
      split
      · rintro e ⟨⟩
      · rename_i hne
        rintro e ⟨⟩
        refine ⟨hmark, ?_, hne, fun c hc => Literal.isRunChar_of_mem_run hc,
          Literal.stopsRun_afterRun 10 _⟩
        intro c hc
        have hsign := Option.filter_eq_some_iff.1 hc
        simpa using hsign.2
    · rintro e ⟨⟩

theorem Exponent.split_eq_of_none {cs : List Char} (h : (Exponent.split cs).1 = none) :
    (Exponent.split cs).2 = cs := by
  unfold Exponent.split at h ⊢
  split
  · rfl
  · rename_i mark more
    dsimp only at h
    split
    · rename_i hmark
      rw [if_pos hmark] at h
      dsimp only at h ⊢
      split
      · rfl
      · rename_i hne
        rw [if_neg hne] at h
        cases h
    · rfl

theorem Suffix.split_append {s : Option Suffix} {rest : List Char}
    (h : s = none → ∀ c ∈ rest.head?, c ≠ 'n' ∧ c ≠ 'm') :
    Suffix.split ((s.map Suffix.char).toList ++ rest) = (s, rest) := by
  cases s with
  | some s => cases s <;> rfl
  | none => exact Suffix.split_of_bare (h rfl)

theorem Suffix.split_eq_of_none {cs : List Char} (h : (Suffix.split cs).1 = none) :
    (Suffix.split cs).2 = cs := by
  unfold Suffix.split at h ⊢
  split at h
  · cases h
  · cases h
  · rfl

namespace DecimalShape

theorem splitFraction_append {fraction : Option (List Char)} {rest : List Char}
    (hdigits : ∀ digits ∈ fraction, ∀ c ∈ digits, isRunChar 10 c = true)
    (hstops : fraction.isSome → StopsRun 10 rest)
    (hpoint : fraction = none → rest.head? ≠ some '.') :
    splitFraction (fractionChars fraction ++ rest) = (fraction, rest) := by
  cases fraction with
  | some digits =>
    have hchars := hdigits digits rfl
    simp [fractionChars, splitFraction, Literal.run_append hchars (hstops rfl),
      Literal.afterRun_append hchars (hstops rfl)]
  | none =>
    have hne := hpoint rfl
    simp only [fractionChars, Option.map_none, Option.getD_none, List.nil_append]
    unfold splitFraction
    split
    · exact absurd rfl hne
    · rfl

theorem isRunChar_of_mem_splitFraction {cs digits : List Char}
    (h : digits ∈ (splitFraction cs).1) : ∀ c ∈ digits, isRunChar 10 c = true := by
  unfold splitFraction at h
  split at h
  · cases h
    exact fun c hc => Literal.isRunChar_of_mem_run hc
  · cases h

theorem stopsRun_splitFraction {cs : List Char} (h : StopsRun 10 cs) :
    StopsRun 10 (splitFraction cs).2 := by
  unfold splitFraction
  split
  · exact Literal.stopsRun_afterRun 10 _
  · exact h

theorem splitFraction_eq_of_none {cs : List Char} (h : (splitFraction cs).1 = none) :
    (splitFraction cs).2 = cs ∧ cs.head? ≠ some '.' := by
  unfold splitFraction at h ⊢
  split
  · cases h
  · rename_i hne
    refine ⟨rfl, ?_⟩
    intro hpoint
    cases cs with
    | nil => cases hpoint
    | cons c rest =>
      cases hpoint
      exact hne rest rfl

theorem chars_eq (s : DecimalShape) :
    s.chars = s.integer ++ (fractionChars s.fraction ++
      (exponentChars s.exponent ++ (s.suffix.map Suffix.char).toList)) := by
  simp [chars, numeral, mantissa, fractionChars, exponentChars]

/-! ## Whole shapes -/

theorem proper_split (cs : List Char) : (split cs).1.Proper where
  integer := fun _ hc => Literal.isRunChar_of_mem_run hc
  fraction := fun _ hdigits => isRunChar_of_mem_splitFraction hdigits
  mark := fun e he => (Exponent.proper_split _ e he).1
  sign := fun e he => (Exponent.proper_split _ e he).2.1
  exponent := fun e he =>
    ⟨(Exponent.proper_split _ e he).2.2.1, (Exponent.proper_split _ e he).2.2.2.1⟩

theorem ends_split (cs : List Char) : (split cs).1.Ends (split cs).2 := by
  generalize hfraction : splitFraction (afterRun 10 cs) = fraction
  generalize hexponent : Exponent.split fraction.2 = exponent
  have hinteger : StopsRun 10 fraction.2 := by
    rw [← hfraction]
    exact stopsRun_splitFraction (Literal.stopsRun_afterRun 10 cs)
  have hstops : StopsRun 10 exponent.2 := by
    cases he : exponent.1 with
    | none =>
      rw [← hexponent] at he ⊢
      rw [Exponent.split_eq_of_none he]
      exact hinteger
    | some e =>
      rw [← hexponent] at he ⊢
      exact (Exponent.proper_split fraction.2 e he).2.2.2.2
  have hsplit : split cs = (⟨run 10 cs, fraction.1, exponent.1, (Suffix.split exponent.2).1⟩,
      (Suffix.split exponent.2).2) := by
    rw [← hexponent, ← hfraction]
    rfl
  rw [hsplit]
  constructor
  · intro hsuffix
    dsimp only at hsuffix ⊢
    rw [Suffix.split_eq_of_none hsuffix]
    exact hstops
  · intro hsuffix hnoExponent hnoFraction
    dsimp only at hsuffix hnoExponent hnoFraction ⊢
    rw [← hexponent] at hnoExponent
    rw [← hfraction] at hnoFraction
    rw [Suffix.split_eq_of_none hsuffix, ← hexponent, Exponent.split_eq_of_none hnoExponent,
      ← hfraction, (splitFraction_eq_of_none hnoFraction).1]
    exact (splitFraction_eq_of_none hnoFraction).2

/-! What is written after a run stops it: a suffix, an exponent mark or a point. -/

theorem stopsRun_suffix {suffix : Option Suffix} {rest : List Char}
    (h : suffix = none → StopsRun 10 rest) :
    StopsRun 10 ((suffix.map Suffix.char).toList ++ rest) := by
  cases suffix with
  | none => exact h rfl
  | some s =>
    rintro c ⟨⟩
    cases s <;> rfl

theorem stopsRun_exponent {exponent : Option Exponent} {rest : List Char}
    (hmark : ∀ e ∈ exponent, e.mark = 'e' ∨ e.mark = 'E') (h : StopsRun 10 rest) :
    StopsRun 10 (exponentChars exponent ++ rest) := by
  cases exponent with
  | none => exact h
  | some e =>
    rintro c ⟨⟩
    rcases hmark e rfl with hmark | hmark <;> rw [hmark] <;> rfl

theorem stopsRun_fraction (fraction : Option (List Char)) {rest : List Char}
    (h : StopsRun 10 rest) : StopsRun 10 (fractionChars fraction ++ rest) := by
  cases fraction with
  | none => exact h
  | some digits =>
    rintro c ⟨⟩
    rfl

/-- No point follows an integer without a fraction. -/
theorem head?_ne_point {s : DecimalShape} {rest : List Char} (hs : s.Proper)
    (hends : s.Ends rest) (hfraction : s.fraction = none) :
    (exponentChars s.exponent ++ ((s.suffix.map Suffix.char).toList ++ rest)).head? ≠
      some '.' := by
  cases hexponent : s.exponent with
  | none =>
    cases hsuffix : s.suffix with
    | none => exact hends.point hsuffix hexponent hfraction
    | some suffix => cases suffix <;> exact nofun
  | some e =>
    intro hhead
    rcases hs.mark e hexponent with hmark | hmark <;>
      simp [exponentChars, Exponent.chars, hmark] at hhead

theorem split_exponent {exponent : Option Exponent} {suffix : Option Suffix} {rest : List Char}
    (hmark : ∀ e ∈ exponent, e.mark = 'e' ∨ e.mark = 'E')
    (hsign : ∀ e ∈ exponent, ∀ c ∈ e.sign, c = '+' ∨ c = '-')
    (hdigits : ∀ e ∈ exponent, e.digits ≠ [] ∧ ∀ c ∈ e.digits, isRunChar 10 c = true)
    (hstops : StopsRun 10 ((suffix.map Suffix.char).toList ++ rest))
    (hletter : suffix = none → ∀ c ∈ rest.head?, c ≠ 'e' ∧ c ≠ 'E') :
    Exponent.split (exponentChars exponent ++ ((suffix.map Suffix.char).toList ++ rest)) =
      (exponent, (suffix.map Suffix.char).toList ++ rest) := by
  cases exponent with
  | some e =>
    exact Exponent.split_chars (hmark e rfl) (hsign e rfl) (hdigits e rfl).1 (hdigits e rfl).2
      hstops
  | none =>
    refine Exponent.split_of_head ?_
    cases suffix with
    | none => exact hletter rfl
    | some s =>
      rintro c ⟨⟩
      cases s <;> decide

/-- A shape is taken from a text that it starts, if the text after it does not go on with it. -/
theorem split_chars_append_of_ends {s : DecimalShape} {rest : List Char} (hs : s.Proper)
    (hends : s.Ends rest)
    (hletter : s.suffix = none →
      ∀ c ∈ rest.head?, (c ≠ 'n' ∧ c ≠ 'm') ∧ c ≠ 'e' ∧ c ≠ 'E') :
    split (s.chars ++ rest) = (s, rest) := by
  have hpoint := head?_ne_point hs hends
  obtain ⟨integer, fraction, exponent, suffix⟩ := s
  have hsuffixStops := stopsRun_suffix hends.stopsRun
  have hexponentStops := stopsRun_exponent hs.mark hsuffixStops
  have hfractionStops := stopsRun_fraction fraction hexponentStops
  have hsplitSuffix := Suffix.split_append fun h c hc => (hletter h c hc).1
  have hsplitExponent := split_exponent hs.mark hs.sign hs.exponent hsuffixStops
    fun h c hc => (hletter h c hc).2
  have hsplitFraction := splitFraction_append hs.fraction (fun _ => hexponentStops) hpoint
  dsimp only at hsplitSuffix hsplitExponent hsplitFraction
  rw [chars_eq, List.append_assoc, List.append_assoc, List.append_assoc, split,
    Literal.run_append hs.integer hfractionStops, Literal.afterRun_append hs.integer hfractionStops]
  simp only [hsplitFraction, hsplitExponent, hsplitSuffix]

end DecimalShape

end IntervalRules
