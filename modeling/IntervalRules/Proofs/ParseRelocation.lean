import IntervalRules.Proofs.Relocation

/-!
Parsing and places. The parser looks at the kinds of tokens and hands on their spans, so it reads
items that are placed elsewhere as the same intervals, and gives the same error, placed as the
items are. For the span of a clause, from its opener to its closer, the placing has to fit
(`Fits`).
-/

namespace IntervalRules

/-- The same error where its span is placed, in an expression with `count` further clauses at its
front. -/
def ExpressionError.relocate (place : Span → Span) (count : Nat) :
    ExpressionError → ExpressionError
  | .token e => .token (e.relocate place)
  | .empty => .empty
  | .unexpected expected found span => .unexpected expected found (place span)
  | .order index interval span => .order (index + count) interval (place span)

namespace Expression

open Token (relocateItem)

/-- From a token to a later one, a span is placed where the two tokens are. -/
def Fits (place : Span → Span) (items : List Item) : Prop :=
  items.Pairwise fun first last => ∀ o c, first = .ok o → last = .ok c → c.kind ≠ .endOfInput →
    place ⟨o.span.start, c.span.stop⟩ = ⟨(place o.span).start, (place c.span).stop⟩

theorem Fits.suffix {place : Span → Span} {items rest : List Item} (h : Fits place items)
    (hrest : rest <:+ items) : Fits place rest :=
  List.Pairwise.sublist hrest.sublist h

section

variable (place : Span → Span) (count : Nat) (items : List Item)

theorem head_map :
    head (items.map (relocateItem place)) =
      mapBoth (.relocate place count) (Token.relocate place) (head items) := by
  rcases items with _ | ⟨_ | _, _⟩ <;> rfl

theorem magnitude_map :
    magnitude (items.map (relocateItem place)) =
      mapBoth (.relocate place count) (fun r => (r.1, r.2.map (relocateItem place)))
        (magnitude items) := by
  unfold magnitude
  rw [head_map place count]
  refine mapBoth_bind fun token _ => ?_
  obtain ⟨kind, span⟩ := token
  cases kind <;> simp only [Token.relocate, List.map_tail, mapBoth_pure, mapBoth_throw,
    ExpressionError.relocate]

theorem bound_map :
    bound (items.map (relocateItem place)) =
      mapBoth (.relocate place count) (fun r => (r.1, r.2.map (relocateItem place)))
        (bound items) := by
  unfold bound
  rw [head_map place count]
  refine mapBoth_bind fun token _ => ?_
  obtain ⟨kind, span⟩ := token
  cases kind with
  | minus =>
    simp only [Token.relocate, ← List.map_tail]
    rw [magnitude_map place count]
    exact mapBoth_bind fun _ _ => rfl
  | plus =>
    simp only [Token.relocate, ← List.map_tail]
    exact magnitude_map place count items.tail
  | _ => exact magnitude_map place count items

theorem opener_map :
    opener (items.map (relocateItem place)) =
      mapBoth (.relocate place count)
        (fun r => (r.1, r.2.1.relocate place, r.2.2.map (relocateItem place))) (opener items) := by
  unfold opener
  rw [head_map place count]
  refine mapBoth_bind fun token _ => ?_
  obtain ⟨kind, span⟩ := token
  cases kind with
  | punctuation p =>
    cases p <;> simp only [Token.relocate, List.map_tail, mapBoth_pure, mapBoth_throw,
      ExpressionError.relocate]
  | _ => simp only [Token.relocate, mapBoth_throw, ExpressionError.relocate]

theorem closer_map :
    closer (items.map (relocateItem place)) =
      mapBoth (.relocate place count)
        (fun r => (r.1, r.2.1.relocate place, r.2.2.map (relocateItem place))) (closer items) := by
  unfold closer
  rw [head_map place count]
  refine mapBoth_bind fun token _ => ?_
  obtain ⟨kind, span⟩ := token
  cases kind with
  | punctuation p =>
    cases p <;> simp only [Token.relocate, List.map_tail, mapBoth_pure, mapBoth_throw,
      ExpressionError.relocate]
  | _ => simp only [Token.relocate, mapBoth_throw, ExpressionError.relocate]

theorem lowerSide_map :
    lowerSide (items.map (relocateItem place)) =
      mapBoth (.relocate place count) (fun r => (r.1, r.2.map (relocateItem place)))
        (lowerSide items) := by
  unfold lowerSide
  rw [head_map place count]
  refine mapBoth_bind fun token _ => ?_
  by_cases hcomma : token.kind = .punctuation .comma
  · simp only [Token.relocate, hcomma, if_true, List.map_tail, mapBoth_pure]
  · simp only [Token.relocate, hcomma, if_false]
    rw [bound_map place count]
    refine mapBoth_bind fun r _ => ?_
    dsimp only
    rw [head_map place count]
    refine mapBoth_bind fun next _ => ?_
    by_cases hnext : next.kind = .punctuation .comma
    · simp only [Token.relocate, hnext, if_true, List.map_tail, mapBoth_pure]
    · simp only [Token.relocate, hnext, if_false, mapBoth_throw, ExpressionError.relocate]

theorem upperSide_map :
    upperSide (items.map (relocateItem place)) =
      mapBoth (.relocate place count) (fun r => (r.1, r.2.map (relocateItem place)))
        (upperSide items) := by
  unfold upperSide
  rw [head_map place count]
  refine mapBoth_bind fun token _ => ?_
  by_cases hcloser : token.kind = .punctuation .closeParen ∨ token.kind = .punctuation .closeBracket
  · simp only [Token.relocate, hcloser, if_true, mapBoth_pure]
  · simp only [Token.relocate, hcloser, if_false]
    exact bound_map place count items

end

theorem kind_ne_end_of_closer {items : List Item} {r : Bool × Token × List Item}
    (h : closer items = .ok r) : r.2.1.kind ≠ .endOfInput := by
  intro hkind
  rw [eq_cons_of_closer h] at h
  simp [closer, head, hkind, bind, Except.bind, throw, throwThe, MonadExceptOf.throw] at h

variable {place : Span → Span} {items : List Item}

theorem clause_map (hfits : Fits place items) (count index : Nat) :
    clause (index + count) (items.map (relocateItem place)) =
      mapBoth (.relocate place count) (fun r => (r.1, r.2.map (relocateItem place)))
        (clause index items) := by
  unfold clause
  rw [opener_map place count]
  refine mapBoth_bind fun opened hopened => ?_
  obtain ⟨lowerInclusive, opening, afterOpener⟩ := opened
  obtain rfl := eq_cons_of_opener hopened
  dsimp only
  rw [lowerSide_map place count]
  refine mapBoth_bind fun lower hlower => ?_
  dsimp only
  rw [upperSide_map place count]
  refine mapBoth_bind fun upper hupper => ?_
  dsimp only
  rw [closer_map place count]
  refine mapBoth_bind fun closed hclosed => ?_
  obtain ⟨upperInclusive, closing, afterCloser⟩ := closed
  dsimp only
  rw [head_map place count]
  refine mapBoth_bind fun next _ => ?_
  -- the closer stands after the opener, so the clause's span is placed as these two are
  have hmem : .ok closing ∈ afterOpener := by
    refine ((upperSide_suffix hupper).trans (lowerSide_suffix hlower)).subset ?_
    rw [eq_cons_of_closer hclosed]
    exact List.mem_cons_self
  have hspan := List.rel_of_pairwise_cons hfits hmem opening closing rfl rfl
    (kind_ne_end_of_closer hclosed)
  by_cases hordered : lower.1.lt upper.1 = true
  · simp only [hordered, if_true, mapBoth_pure]
  · simp only [hordered, if_false, Bool.false_eq_true, mapBoth_throw, ExpressionError.relocate,
      hspan, Token.relocate]

theorem clauses_map {items : List Item} (hfits : Fits place items) (count index : Nat) :
    clauses (index + count) (items.map (relocateItem place)) =
      mapBoth (.relocate place count) (fun r => (r.1, r.2.map (relocateItem place)))
        (clauses index items) := by
  rw [clauses_eq, clauses_eq, clause_map hfits]
  refine mapBoth_bind fun r hr => ?_
  have hshorter := clause_length_lt hr
  obtain ⟨opening, rest, rfl, hrest⟩ := exists_suffix_of_clause hr
  have htail : r.2.tail <:+ .ok opening :: rest :=
    (List.tail_suffix r.2).trans (hrest.trans (List.suffix_cons _ rest))
  dsimp only
  rw [head_map place count]
  refine mapBoth_bind fun token _ => ?_
  by_cases hunion : token.kind = .punctuation .union
  · simp only [Token.relocate, hunion, if_true, ← List.map_tail]
    rw [Nat.add_right_comm, clauses_map (hfits.suffix htail)]
    exact mapBoth_bind fun _ _ => rfl
  · simp only [Token.relocate, hunion, if_false, mapBoth_pure]
termination_by items.length
decreasing_by
  rw [List.length_tail]
  omega

theorem ofItems_map (hfits : Fits place items) :
    ofItems (items.map (relocateItem place)) = (ofItems items).mapError (.relocate place 0) := by
  have hclauses : clauses 0 (items.map (relocateItem place)) = _ := clauses_map hfits 0 0
  rw [← mapBoth_id]
  unfold ofItems
  rw [head_map place 0]
  refine mapBoth_bind fun first _ => ?_
  by_cases hfirst : first.kind = .endOfInput
  · simp only [Token.relocate, hfirst, if_true, mapBoth_throw, ExpressionError.relocate]
  · simp only [Token.relocate, hfirst, if_false]
    rw [hclauses]
    refine mapBoth_bind fun r _ => ?_
    dsimp only
    rw [head_map place 0]
    refine mapBoth_bind fun token _ => ?_
    by_cases htoken : token.kind = .endOfInput
    · simp only [Token.relocate, htoken, if_true, mapBoth_pure, id_eq]
    · simp only [Token.relocate, htoken, if_false, mapBoth_throw, ExpressionError.relocate]

end Expression

open Expression (bound_map head_map)

/-- A text whose items are those of another one, placed elsewhere, is the same number. -/
theorem parseNumber?_of_items {text text' : String} {place : Span → Span}
    (h : Token.items text' = (Token.items text).map (Token.relocateItem place)) :
    parseNumber? text' = parseNumber? text := by
  unfold parseNumber?
  rw [h, bound_map place 0]
  cases Expression.bound (Token.items text) with
  | error e => rfl
  | ok r =>
    simp only [mapBoth_ok]
    rw [head_map place 0]
    cases Expression.head r.2 with
    | error e => rfl
    | ok token => rfl

end IntervalRules
