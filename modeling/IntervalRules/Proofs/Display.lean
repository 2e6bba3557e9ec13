import IntervalRules.Proofs.Acceptance
import IntervalRules.Proofs.PlainText
import IntervalRules.Proofs.Spelling

/-!
The canonical text of an expression is read as the same expression. An interval is displayed as a
clause whose bounds have a minus sign exactly if they are negative and are left out if they are
infinite; the text of the interval is spelled out of the tokens of this clause.
-/

namespace IntervalRules

theorem Binary64.lt_cases {x y : Binary64} (h : x.lt y = true) :
    (x = .negInfinity ∨ ∃ negative units hgrid, x = .finite negative units hgrid) ∧
      (y = .posInfinity ∨ ∃ negative units hgrid, y = .finite negative units hgrid) := by
  have hbound {units : Nat} (hgrid : OnGrid units) : units < overflow := hgrid.1
  cases x with
  | nan => cases h
  | infinite s =>
    cases y with
    | nan => cases s <;> cases h
    | infinite t =>
      cases s <;> cases t
      · simp [lt, compares, position, magnitude, isNegative] at h
      · simp [lt, compares, position, magnitude, isNegative] at h
        omega
      · exact ⟨.inl rfl, .inl rfl⟩
      · simp [lt, compares, position, magnitude, isNegative] at h
    | finite t units hgrid =>
      cases s with
      | true => exact ⟨.inl rfl, .inr ⟨t, units, hgrid, rfl⟩⟩
      | false =>
        have hunits := hbound hgrid
        cases t <;> simp [lt, compares, position, magnitude, isNegative] at h <;> omega
  | finite s units hgrid =>
    refine ⟨.inr ⟨s, units, hgrid, rfl⟩, ?_⟩
    have hunits := hbound hgrid
    cases y with
    | nan => cases h
    | infinite t =>
      cases t with
      | false => exact .inl rfl
      | true => cases s <;> simp [lt, compares, position, magnitude, isNegative] at h <;> omega
    | finite t units' hgrid' => exact .inr ⟨t, units', hgrid', rfl⟩

namespace Grammar

open Token (Spells StopsNumber stopsNumber_punctuation)

/-- A number as it is displayed: with a minus sign exactly if it is negative. -/
def displayedBound (x : Binary64) : Bound :=
  if x.isNegative then ⟨some .minus, .number (-x)⟩ else ⟨none, .number x⟩

/-- An interval as it is displayed, with no bound on an unbounded side. -/
def displayed (i : Interval) : Clause where
  lowerInclusive := i.lowerInclusive
  lower := if i.isLowerUnbounded then none else some (displayedBound i.lower)
  upper := if i.isUpperUnbounded then none else some (displayedBound i.upper)
  upperInclusive := i.upperInclusive

theorem value_displayedBound (x : Binary64) : (displayedBound x).value = x := by
  unfold displayedBound
  split
  · exact Binary64.neg_neg x
  · rfl

theorem interval_displayed (i : Interval) : (displayed i).interval = i := by
  obtain ⟨lower, lowerInclusive, upper, upperInclusive⟩ := i
  simp only [displayed, Clause.interval, Interval.isLowerUnbounded, Interval.isUpperUnbounded,
    decide_eq_true_eq, Interval.mk.injEq, true_and, and_true]
  constructor
  · split
    · rename_i h
      exact h.symm
    · exact value_displayedBound lower
  · split
    · rename_i h
      exact h.symm
    · exact value_displayedBound upper

theorem spells_magnitude {units : Nat} (hgrid : Binary64.OnGrid units) {rest : List Char}
    {kinds : List TokenKind} (hstops : StopsNumber rest) (h : Spells rest kinds) :
    Spells (Layout.plain.writeMagnitude units ++ rest)
      (.number (.number (.finite false units hgrid)) :: kinds) := by
  obtain ⟨integer, fraction, hplain, htext, hliteral⟩ := Layout.exists_plainDecimal hgrid
  have hchars : (Literal.Form.decimal integer fraction none).chars =
      Layout.plain.writeMagnitude units := by
    rw [htext]
    exact List.append_nil _
  rw [← hchars]
  exact h.number hplain.wellFormed hliteral (hstops.endsBefore _)

theorem toList_text_finite (negative : Bool) {units : Nat} (hgrid : Binary64.OnGrid units) :
    (Binary64.finite negative units hgrid).text.toList =
      (if negative then ['-'] else []) ++ Layout.plain.writeMagnitude units := by
  rw [Binary64.text, String.toList_ofList, Layout.write]
  cases negative with
  | false => rw [if_neg Bool.false_ne_true, if_neg Bool.false_ne_true, List.nil_append]
  | true => rw [if_pos rfl, if_pos rfl, List.singleton_append]

theorem kinds_displayedBound (negative : Bool) {units : Nat} (hgrid : Binary64.OnGrid units) :
    (displayedBound (.finite negative units hgrid)).kinds =
      (if negative then [.minus] else []) ++ [.number (.number (.finite false units hgrid))] := by
  cases negative <;> rfl

theorem spells_number {x : Binary64} (hx : ∃ negative units hgrid, x = .finite negative units hgrid)
    {rest : List Char} {kinds : List TokenKind} (hstops : StopsNumber rest)
    (h : Spells rest kinds) :
    Spells (x.text.toList ++ rest) ((displayedBound x).kinds ++ kinds) := by
  obtain ⟨negative, units, hgrid, rfl⟩ := hx
  have hmagnitude := spells_magnitude hgrid hstops h
  rw [toList_text_finite, kinds_displayedBound]
  cases negative with
  | false => exact hmagnitude
  | true => exact hmagnitude.minus

/-- An infinite bound on its own side is spelled as nothing. -/
theorem spells_side {x infinity : Binary64}
    (hx : x = infinity ∨ ∃ negative units hgrid, x = .finite negative units hgrid)
    {rest : List Char} {kinds : List TokenKind} (hstops : StopsNumber rest)
    (h : Spells rest kinds) :
    Spells ((if x = infinity then "" else x.text).toList ++ rest)
      (sideKinds (if x = infinity then none else some (displayedBound x)) ++ kinds) := by
  by_cases hinfinity : x = infinity
  · rw [if_pos hinfinity, if_pos hinfinity]
    exact h
  · rw [if_neg hinfinity, if_neg hinfinity]
    exact spells_number (hx.resolve_left hinfinity) hstops h

theorem toList_opener (inclusive : Bool) :
    (if inclusive then "[" else "(").toList = [(openerOf inclusive).char] := by
  cases inclusive <;> rfl

theorem toList_closer (inclusive : Bool) :
    (if inclusive then "]" else ")").toList = [(closerOf inclusive).char] := by
  cases inclusive <;> rfl

theorem toList_text (i : Interval) :
    i.text.toList = (openerOf i.lowerInclusive).char ::
      ((if i.lower = .negInfinity then "" else i.lower.text).toList ++
        Punctuation.comma.char :: ' ' ::
          ((if i.upper = .posInfinity then "" else i.upper.text).toList ++
            [(closerOf i.upperInclusive).char])) := by
  simp only [Interval.text, Interval.isLowerUnbounded, Interval.isUpperUnbounded,
    decide_eq_true_eq, String.toList_append, toList_opener, toList_closer]
  have hcomma : ", ".toList = [Punctuation.comma.char, ' '] := rfl
  rw [hcomma]
  simp only [List.append_assoc, List.cons_append, List.nil_append]

/-- The text of an interval in order is spelled out of the tokens of its clause. -/
theorem spells_interval {i : Interval} (hordered : i.lower.lt i.upper = true) {rest : List Char}
    {kinds : List TokenKind} (h : Spells rest kinds) :
    Spells (i.text.toList ++ rest) ((displayed i).kinds ++ kinds) := by
  obtain ⟨hlower, hupper⟩ := Binary64.lt_cases hordered
  have hcloser := h.punctuation (closerOf i.upperInclusive)
  have hupperSide := spells_side hupper (stopsNumber_punctuation _ rest) hcloser
  have hcomma := hupperSide.space.punctuation .comma
  have hlowerSide := spells_side hlower (stopsNumber_punctuation .comma _) hcomma
  have hopener := hlowerSide.punctuation (openerOf i.lowerInclusive)
  rw [toList_text]
  simp only [displayed, Clause.kinds, Interval.isLowerUnbounded, Interval.isUpperUnbounded,
    decide_eq_true_eq, List.append_assoc, List.cons_append, List.nil_append]
  exact hopener

/-- So is the text of intervals joined by `&`. -/
theorem spells_intervals {first : Interval} {rest : List Interval}
    (hordered : ∀ i ∈ first :: rest, i.lower.lt i.upper = true) :
    Spells (" & ".intercalate ((first :: rest).map Interval.text)).toList
      ((Union.mk (displayed first) (rest.map displayed)).kinds ++ [.endOfInput]) := by
  induction rest generalizing first with
  | nil =>
    have hfirst := spells_interval (hordered first List.mem_cons_self) Spells.nil
    simpa [Union.kinds] using hfirst
  | cons second rest ih =>
    have htail := ih fun i hi => hordered i (List.mem_cons_of_mem first hi)
    have hjoin := (htail.space.punctuation .union).space
    have hfirst := spells_interval (hordered first List.mem_cons_self) hjoin
    have hseparator : " & ".toList = [' ', Punctuation.union.char, ' '] := rfl
    rw [List.map_cons, List.map_cons, String.intercalate_cons_cons, String.toList_append,
      String.toList_append, hseparator, List.append_assoc, List.map_cons, Union.kinds_cons,
      List.append_assoc]
    exact hfirst

/-- An expression whose intervals are in order is read back from its text. -/
theorem parse_text_of_ordered {e : Expression} (hne : e.intervals ≠ [])
    (hordered : ∀ i ∈ e.intervals, i.lower.lt i.upper = true) :
    Expression.parse e.text = .ok e := by
  obtain ⟨intervals⟩ := e
  obtain ⟨first, rest, rfl⟩ := List.exists_cons_of_ne_nil hne
  obtain ⟨tokens, hitems, hkinds⟩ := spells_intervals hordered 0
  have hordered' : ∀ c ∈ (Union.mk (displayed first) (rest.map displayed)).clauses,
      c.Ordered := by
    intro c hc
    obtain ⟨i, hi, rfl⟩ := List.mem_map.1 (show c ∈ (first :: rest).map displayed from hc)
    rw [Clause.Ordered, interval_displayed]
    exact hordered i hi
  have hintervals : (rest.map displayed).map Clause.interval = rest := by
    simp [Function.comp_def, interval_displayed]
  refine (ofItems_eq_ok_iff (Token.items_terminated _) _).2
    ⟨tokens, ⟨displayed first, rest.map displayed⟩, hitems, hkinds, hordered', ?_⟩
  rw [Union.clauses, List.map_cons, interval_displayed, hintervals]

/-- Display is undone by reading: the canonical text of whatever was read is read as the same
clauses, with the same flags and the same bounds, the sign of a zero included. -/
theorem parse_text (text : String) (e : Expression) (h : Expression.parse text = .ok e) :
    Expression.parse e.text = .ok e := by
  obtain ⟨tokens, u, -, -, hordered, hintervals⟩ :=
    (ofItems_eq_ok_iff (Token.items_terminated text) e).1 h
  refine parse_text_of_ordered ?_ ?_
  · rw [hintervals]
    exact List.cons_ne_nil _ _
  · intro i hi
    rw [hintervals] at hi
    obtain ⟨c, hc, rfl⟩ := List.mem_map.1 hi
    exact hordered c hc

/-- Bounds beyond the finite numbers, and a negative zero. -/
theorem parse_text_overflow_and_zero :
    ∃ e, Expression.parse "[-1e999,5) & (-0,1e999]" = .ok e ∧ e.text = "[, 5) & (-0, ]" ∧
      Expression.parse e.text = .ok e := by
  have hoption : (Expression.parse "[-1e999,5) & (-0,1e999]").toOption =
      some ⟨[⟨.negInfinity, true, .ofNat 5, false⟩, ⟨-.zero, false, .posInfinity, true⟩]⟩ := by
    decide +kernel
  cases hparse : Expression.parse "[-1e999,5) & (-0,1e999]" with
  | error _ =>
    rw [hparse] at hoption
    cases hoption
  | ok e =>
    rw [hparse] at hoption
    refine ⟨e, rfl, ?_, parse_text _ e hparse⟩
    rw [Option.some.inj hoption]
    decide +kernel

end Grammar

end IntervalRules
