import IntervalRules.Proofs.Stops

/-!
The texts that are range expressions. A text is accepted exactly if it has all its tokens,
these are a sentence of the grammar, and the bounds of every clause are in order; it is then
read as the intervals that its clauses denote.
-/

namespace IntervalRules.Grammar

open Expression (Item ofItems)

theorem ofItems_eq_ok_iff {items : List Item} (hitems : Token.Terminated items) (e : Expression) :
    ofItems items = .ok e ↔
      ∃ (tokens : List Token) (u : Union), items = tokens.map .ok ∧
        tokens.map Token.kind = u.kinds ++ [.endOfInput] ∧ (∀ c ∈ u.clauses, c.Ordered) ∧
        e.intervals = u.clauses.map Clause.interval := by
  constructor
  · intro h
    rcases ofItems_cases hitems with ⟨t, rest, rfl, ht⟩ | ⟨u, tokens, rfl, hkinds, hordered⟩ |
      ⟨earlier, c, span, hmis⟩ | ⟨e', he', -⟩
    · rw [ofItems_of_end ht] at h
      cases h
    · rw [ofItems_of_sentence hordered hkinds] at h
      cases h
      exact ⟨tokens, u, rfl, hkinds, hordered, rfl⟩
    · rw [hmis.ofItems_eq] at h
      cases h
    · rw [he'] at h
      cases h
  · rintro ⟨tokens, u, rfl, hkinds, hordered, he⟩
    rw [ofItems_of_sentence hordered hkinds, ← he]

/-- An expression is empty exactly if the end of the input is all there is to read. -/
theorem ofItems_eq_empty_iff {items : List Item} (hitems : Token.Terminated items) :
    ofItems items = .error .empty ↔ ∃ t : Token, items = [.ok t] ∧ t.kind = .endOfInput := by
  constructor
  · intro h
    rcases ofItems_cases hitems with ⟨t, rest, rfl, ht⟩ | ⟨u, tokens, rfl, hkinds, hordered⟩ |
      ⟨earlier, c, span, hmis⟩ | ⟨e, he, hstops⟩
    · exact ⟨t, by rw [hitems.eq_nil_of_end ht], ht⟩
    · rw [ofItems_of_sentence hordered hkinds] at h
      cases h
    · rw [hmis.ofItems_eq] at h
      cases h
    · rw [he] at h
      cases h
      exact absurd rfl (hstops.ne_empty hitems)
  · rintro ⟨t, rfl, ht⟩
    exact ofItems_of_end ht []

/-- A text is a range expression exactly if its tokens are a sentence of the grammar in which
every clause has its lower bound below its upper one. Its intervals are those of the clauses,
in the order in which they are written. -/
theorem parse_eq_ok_iff (text : String) (e : Expression) :
    Expression.parse text = .ok e ↔
      ∃ (tokens : List Token) (u : Union), Token.tokenize text = .ok tokens ∧
        tokens.map Token.kind = u.kinds ++ [.endOfInput] ∧
        (∀ c ∈ u.clauses, c.interval.lower.lt c.interval.upper = true) ∧
        e.intervals = u.clauses.map Clause.interval := by
  simp only [Token.tokenize_eq_ok_iff]
  exact ofItems_eq_ok_iff (Token.items_terminated text) e

end IntervalRules.Grammar
