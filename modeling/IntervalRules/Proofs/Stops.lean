import IntervalRules.Proofs.Phrases
import IntervalRules.Proofs.ViablePrefix
import IntervalRules.Proofs.Items

/-!
Where reading stops. Each part of the parser either reads the tokens of a phrase, or gives
the error of the first item that the machine for viable prefixes does not take (`Stops`).
The clauses of an expression are read until one is out of order or reading stops
(`clauses_cases`).
-/

namespace IntervalRules.Grammar

open Expression (Item head magnitude bound opener lowerSide upperSide closer clause clauses
  ofItems)

/-- What the parser says it expected instead of a token that a state refuses. -/
def State.expected : State → Expected
  | .start => .opener
  | .side _ => .number
  | .signed _ => .number
  | .bounded .lower => .comma
  | .bounded .upper => .closer
  | .closed => .unionOrEnd
  | .done => .unionOrEnd

/-- Read from a state, the items stop at an error, at a refused token or for want of an item. -/
inductive Stops : State → List Item → ExpressionError → Prop
  | failed (s : State) (e : TokenError) (rest : List Item) : Stops s (.error e :: rest) (.token e)
  | refused {s : State} {t : Token} (h : s.step t.kind = none) (rest : List Item) :
      Stops s (.ok t :: rest) (.unexpected s.expected t.kind t.span)
  | ended {s : State} (h : s ≠ .done) : Stops s [] .empty
  | later {s s' : State} {t : Token} {rest : List Item} {e : ExpressionError}
      (h : s.step t.kind = some s') (hrest : Stops s' rest e) : Stops s (.ok t :: rest) e

theorem Stops.of_run {s s' : State} {tokens : List Token} {rest : List Item}
    {e : ExpressionError} (hrun : s.run (tokens.map Token.kind) = some s')
    (h : Stops s' rest e) : Stops s (tokens.map .ok ++ rest) e := by
  induction tokens generalizing s with
  | nil =>
    cases hrun
    exact h
  | cons t tokens ih =>
    obtain ⟨s₁, hstep, hrun⟩ := Option.bind_eq_some_iff.mp hrun
    exact .later hstep (ih hrun)

/-- Items that end as those of a text do never run out. -/
theorem Stops.ne_empty {s : State} {items : List Item} {e : ExpressionError}
    (h : Stops s items e) (hitems : Token.Terminated items) : e ≠ .empty := by
  induction h with
  | failed => exact nofun
  | refused => exact nofun
  | ended => cases hitems
  | later hstep hrest ih =>
    cases hitems with
    | token _ _ _ hitems => exact ih hitems
    | ended t ht =>
      -- after the end of the input only `done` is left, where nothing is asked for
      rw [ht] at hstep
      cases hrest with
      | ended hdone =>
        refine absurd ?_ hdone
        unfold State.step at hstep
        split at hstep <;> simp_all [Side.exit]

/-! ## The parts of a clause -/

theorem head_cases {s : State} (hs : s ≠ .done) (items : List Item) :
    (∃ t rest, items = .ok t :: rest) ∨ ∃ e, head items = .error e ∧ Stops s items e := by
  rcases items with _ | ⟨e | t, rest⟩
  · exact .inr ⟨_, rfl, .ended hs⟩
  · exact .inr ⟨_, rfl, .failed s e rest⟩
  · exact .inl ⟨t, rest, rfl⟩

theorem magnitude_cases (s : Side) (items : List Item) :
    (∃ x t rest, items = .ok t :: rest ∧ t.kind = .number x) ∨
      ∃ e, magnitude items = .error e ∧ Stops (.signed s) items e := by
  rcases head_cases (s := .signed s) nofun items with ⟨t, rest, rfl⟩ | ⟨e, he, hstops⟩
  · cases hk : t.kind with
    | number x => exact .inl ⟨x, t, rest, rfl, hk⟩
    | _ =>
      refine .inr ⟨_, ?_, .refused (by rw [hk]; rfl) rest⟩
      simp [magnitude, hk, bind, Except.bind, throw, throwThe, MonadExceptOf.throw, State.expected]
  · exact .inr ⟨e, by simp [magnitude, he, bind, Except.bind], hstops⟩

theorem bound_cases (s : Side) (items : List Item)
    (hexit : ∀ t rest, items = .ok t :: rest → s.exit t.kind = none) :
    (∃ (b : Bound) (tokens : List Token) (rest : List Item),
        items = tokens.map .ok ++ rest ∧ tokens.map Token.kind = b.kinds) ∨
      ∃ e, bound items = .error e ∧ Stops (.side s) items e := by
  rcases head_cases (s := .side s) nofun items with ⟨t, rest, rfl⟩ | ⟨e, he, hstops⟩
  · have hnone := hexit t rest rfl
    cases hk : t.kind with
    | number x => exact .inl ⟨⟨none, x⟩, [t], rest, rfl, by simp [Bound.kinds, hk]⟩
    | minus =>
      rcases magnitude_cases s rest with ⟨x, u, rest, rfl, hu⟩ | ⟨e, he, hstops⟩
      · exact .inl ⟨⟨some .minus, x⟩, [t, u], rest, rfl, by simp [Bound.kinds, Sign.kind, hk, hu]⟩
      · exact .inr ⟨e, by simp [bound, hk, he, bind, Except.bind], .later (by rw [hk]; rfl) hstops⟩
    | plus =>
      rcases magnitude_cases s rest with ⟨x, u, rest, rfl, hu⟩ | ⟨e, he, hstops⟩
      · exact .inl ⟨⟨some .plus, x⟩, [t, u], rest, rfl, by simp [Bound.kinds, Sign.kind, hk, hu]⟩
      · exact .inr ⟨e, by simp [bound, hk, he, bind, Except.bind], .later (by rw [hk]; rfl) hstops⟩
    | _ =>
      rw [hk] at hnone
      refine .inr ⟨_, ?_, .refused (by rw [hk]; exact hnone) rest⟩
      simp [bound, magnitude, hk, bind, Except.bind, throw, throwThe, MonadExceptOf.throw,
        State.expected]
  · exact .inr ⟨e, by simp [bound, he, bind, Except.bind], hstops⟩

theorem lowerSide_cases (items : List Item) :
    (∃ (b : Option Bound) (tokens : List Token) (comma : Token) (rest : List Item),
        items = tokens.map .ok ++ .ok comma :: rest ∧ tokens.map Token.kind = sideKinds b ∧
        comma.kind = .punctuation .comma) ∨
      ∃ e, lowerSide items = .error e ∧ Stops (.side .lower) items e := by
  rcases head_cases (s := .side .lower) nofun items with ⟨t, rest, rfl⟩ | ⟨e, he, hstops⟩
  · by_cases hcomma : t.kind = .punctuation .comma
    · exact .inl ⟨none, [], t, rest, rfl, rfl, hcomma⟩
    · have hexit : ∀ u more, Except.ok t :: rest = .ok u :: more →
          Side.lower.exit u.kind = none := by
        intro u more h
        cases h
        exact Side.exit_lower_eq_none hcomma
      rcases bound_cases .lower (.ok t :: rest) hexit with
        ⟨b, tokens, more, hitems, hkinds⟩ | ⟨e, he, hstops⟩
      · have hbound := bound_of_kinds hkinds more
        have hrun : (State.side .lower).run (tokens.map Token.kind) = some (.bounded .lower) := by
          rw [hkinds]
          exact State.run_bound .lower b
        rw [← hitems] at hbound
        rcases head_cases (s := .bounded .lower) nofun more with ⟨u, more, rfl⟩ | ⟨e, he, hstops⟩
        · by_cases hu : u.kind = .punctuation .comma
          · exact .inl ⟨some b, tokens, u, more, hitems, hkinds, hu⟩
          · have hstep : (State.bounded .lower).step u.kind = none := Side.exit_lower_eq_none hu
            have hstops := Stops.of_run hrun (.refused hstep more)
            rw [← hitems] at hstops
            refine .inr ⟨_, ?_, hstops⟩
            simp [lowerSide, hcomma, hbound, hu, bind, Except.bind, throw, throwThe,
              MonadExceptOf.throw, State.expected]
        · refine .inr ⟨e, ?_, hitems ▸ Stops.of_run hrun hstops⟩
          simp [lowerSide, hcomma, hbound, he, bind, Except.bind]
      · exact .inr ⟨e, by simp [lowerSide, hcomma, he, bind, Except.bind], hstops⟩
  · exact .inr ⟨e, by simp [lowerSide, he, bind, Except.bind], hstops⟩

theorem closer_cases (items : List Item) :
    (∃ j t rest, items = .ok t :: rest ∧ t.kind = .punctuation (closerOf j)) ∨
      ∃ e, closer items = .error e ∧ Stops (.bounded .upper) items e := by
  rcases head_cases (s := .bounded .upper) nofun items with ⟨t, rest, rfl⟩ | ⟨e, he, hstops⟩
  · by_cases hj : ∃ j, t.kind = .punctuation (closerOf j)
    · obtain ⟨j, hj⟩ := hj
      exact .inl ⟨j, t, rest, rfl, hj⟩
    · have hstep : (State.bounded .upper).step t.kind = none :=
        Side.exit_upper_eq_none fun j h => hj ⟨j, h⟩
      refine .inr ⟨_, ?_, .refused hstep rest⟩
      have hparen : t.kind ≠ .punctuation .closeParen := fun h => hj ⟨false, h⟩
      have hbracket : t.kind ≠ .punctuation .closeBracket := fun h => hj ⟨true, h⟩
      simp [closer, bind, Except.bind, throw, throwThe, MonadExceptOf.throw, State.expected]
  · exact .inr ⟨e, by simp [closer, he, bind, Except.bind], hstops⟩

/-- The upper side together with the closing bracket after it. -/
theorem upperSide_cases (items : List Item) :
    (∃ (b : Option Bound) (j : Bool) (tokens : List Token) (closing : Token) (rest : List Item),
        items = tokens.map .ok ++ .ok closing :: rest ∧ tokens.map Token.kind = sideKinds b ∧
        closing.kind = .punctuation (closerOf j)) ∨
      ∃ e, (upperSide items >>= fun r => closer r.2) = .error e ∧
        Stops (.side .upper) items e := by
  rcases head_cases (s := .side .upper) nofun items with ⟨t, rest, rfl⟩ | ⟨e, he, hstops⟩
  · by_cases hj : ∃ j, t.kind = .punctuation (closerOf j)
    · obtain ⟨j, hj⟩ := hj
      exact .inl ⟨none, j, [], t, rest, rfl, rfl, hj⟩
    · have hparen : t.kind ≠ .punctuation .closeParen := fun h => hj ⟨false, h⟩
      have hbracket : t.kind ≠ .punctuation .closeBracket := fun h => hj ⟨true, h⟩
      have hexit : ∀ u more, Except.ok t :: rest = .ok u :: more →
          Side.upper.exit u.kind = none := by
        intro u more h
        cases h
        exact Side.exit_upper_eq_none fun j h => hj ⟨j, h⟩
      have hupper : upperSide (.ok t :: rest) = bound (.ok t :: rest) := by
        simp [upperSide, hparen, hbracket, bind, Except.bind]
      rw [hupper]
      rcases bound_cases .upper (.ok t :: rest) hexit with
        ⟨b, tokens, more, hitems, hkinds⟩ | ⟨e, he, hstops⟩
      · have hbound := bound_of_kinds hkinds more
        have hrun : (State.side .upper).run (tokens.map Token.kind) = some (.bounded .upper) := by
          rw [hkinds]
          exact State.run_bound .upper b
        rw [← hitems] at hbound
        rcases closer_cases more with ⟨j, u, more, rfl, hu⟩ | ⟨e, he, hstops⟩
        · exact .inl ⟨some b, j, tokens, u, more, hitems, hkinds, hu⟩
        · refine .inr ⟨e, ?_, hitems ▸ Stops.of_run hrun hstops⟩
          simp [hbound, he, bind, Except.bind]
      · exact .inr ⟨e, by simp [he, bind, Except.bind], hstops⟩
  · exact .inr ⟨e, by simp [upperSide, he, bind, Except.bind], hstops⟩

theorem opener_cases (items : List Item) :
    (∃ i t rest, items = .ok t :: rest ∧ t.kind = .punctuation (openerOf i)) ∨
      ∃ e, opener items = .error e ∧ Stops .start items e := by
  rcases head_cases (s := .start) nofun items with ⟨t, rest, rfl⟩ | ⟨e, he, hstops⟩
  · by_cases hi : ∃ i, t.kind = .punctuation (openerOf i)
    · obtain ⟨i, hi⟩ := hi
      exact .inl ⟨i, t, rest, rfl, hi⟩
    · have hparen : t.kind ≠ .punctuation .openParen := fun h => hi ⟨false, h⟩
      have hbracket : t.kind ≠ .punctuation .openBracket := fun h => hi ⟨true, h⟩
      have hstep : State.start.step t.kind = none := by
        unfold State.step
        split <;> simp_all
      refine .inr ⟨_, ?_, .refused hstep rest⟩
      simp [opener, bind, Except.bind, throw, throwThe, MonadExceptOf.throw, State.expected]
  · exact .inr ⟨e, by simp [opener, he, bind, Except.bind], hstops⟩

theorem clause_cases (index : Nat) (items : List Item) :
    (∃ (c : Clause) (span : Span) (tokens : List Token) (next : Token) (rest : List Item),
        items = tokens.map .ok ++ .ok next :: rest ∧ IsClause tokens c span) ∨
      ∃ e, clause index items = .error e ∧ Stops .start items e := by
  rcases opener_cases items with ⟨i, opening, items, rfl, hopening⟩ | ⟨e, he, hstops⟩
  · have hopen : State.start.step opening.kind = some (.side .lower) := by
      rw [hopening]
      cases i <;> rfl
    rcases lowerSide_cases items with
      ⟨lower, ltokens, comma, items, rfl, hlower, hcomma⟩ | ⟨e, he, hstops⟩
    · have hlowerRun : (State.side .lower).run ((ltokens ++ [comma]).map Token.kind) =
          some (.side .upper) := by
        rw [List.map_append, hlower, List.map_singleton, hcomma, State.run_sideKinds]
        rfl
      rcases upperSide_cases items with
        ⟨upper, j, utokens, closing, items, rfl, hupper, hclosing⟩ | ⟨e, he, hstops⟩
      · have hclause := IsClause.of_parts (c := ⟨i, lower, upper, j⟩) hopening hlower hcomma hupper
          hclosing
        rcases head_cases (s := .closed) nofun items with ⟨next, rest, rfl⟩ | ⟨e, he, hstops⟩
        · exact .inl ⟨_, _, _, next, rest, by simp, hclause⟩
        · have hread := clause_of_kinds hclause index items
          have hrun := State.run_clause ⟨i, lower, upper, j⟩ []
          rw [List.append_nil, ← hclause.kinds] at hrun
          have hall := Stops.of_run hrun hstops
          simp only [List.map_cons, List.map_append, List.cons_append, List.append_assoc,
            List.map_nil, List.nil_append] at hread hall
          exact .inr ⟨e, by rw [hread, he]; rfl, hall⟩
      · have hread := lowerSide_of_kinds hlower hcomma items
        refine .inr ⟨e, ?_, .later hopen ?_⟩
        · simp only [clause, opener_of_kind hopening, hread, bind, Except.bind] at he ⊢
          cases hupper : upperSide items with
          | error e' => simpa [hupper] using he
          | ok r =>
            simp only [hupper] at he ⊢
            rw [he]
        · have := Stops.of_run hlowerRun hstops
          simpa using this
    · refine .inr ⟨e, ?_, .later hopen hstops⟩
      simp [clause, opener_of_kind hopening, he, bind, Except.bind]
  · exact .inr ⟨e, by simp [clause, he, bind, Except.bind], hstops⟩

/-- The clauses of an expression are all in order, or one is not, or reading stops. -/
theorem clauses_cases (index : Nat) (items : List Item) :
    (∃ (u : Union) (tokens : List Token) (next : Token) (rest : List Item),
        items = tokens.map .ok ++ .ok next :: rest ∧ tokens.map Token.kind = u.kinds ∧
        (∀ c ∈ u.clauses, c.Ordered) ∧ next.kind ≠ .punctuation .union) ∨
      (∃ earlier c span, Misordered items earlier c span) ∨
      ∃ e, clauses index items = .error e ∧ Stops .start items e := by
  rcases clause_cases index items with
    ⟨c, span, tokens, next, rest, hitems, hclause⟩ | ⟨e, he, hstops⟩
  · by_cases hc : c.Ordered
    · by_cases hnext : next.kind = .punctuation .union
      · have : rest.length < items.length := by simp [hitems]; omega
        rcases clauses_cases (index + 1) rest with
          ⟨⟨d, more⟩, tokens', next', rest', rfl, hkinds, hordered, hnext'⟩ |
            ⟨earlier, d, dspan, hmis⟩ | ⟨e, he, hstops⟩
        · refine .inl ⟨⟨c, d :: more⟩, tokens ++ next :: tokens', next', rest', ?_, ?_, ?_, hnext'⟩
          · simp [hitems]
          · rw [Union.kinds_cons, List.map_append, List.map_cons, hclause.kinds, hnext, hkinds]
          · intro x hx
            rcases List.mem_cons.mp hx with rfl | hx
            · exact hc
            · exact hordered x hx
        · obtain ⟨⟨front, body, next', rest', rfl, hfront, hbody⟩, hearlier, hd⟩ := hmis
          refine .inr (.inl ⟨c :: earlier, d, dspan, ⟨tokens ++ next :: front, body, next', rest',
            ?_, ?_, hbody⟩, ?_, hd⟩)
          · simp [hitems]
          · have := ahead_cons c earlier []
            simp only [List.append_nil] at this
            rw [this, List.map_append, List.map_cons, hclause.kinds, hnext, hfront]
          · intro x hx
            rcases List.mem_cons.mp hx with rfl | hx
            · exact hc
            · exact hearlier x hx
        · have hread := clauses_of_clause_union hclause hc index hnext rest
          have hrun : State.start.run ((tokens ++ [next]).map Token.kind) = some .start := by
            rw [List.map_append, hclause.kinds, State.run_clause, List.map_singleton, hnext]
            rfl
          have hall := Stops.of_run hrun hstops
          refine .inr (.inr ⟨e, ?_, ?_⟩)
          · rw [hitems, hread, he]
            rfl
          · rw [hitems]
            simpa using hall
      · refine .inl ⟨⟨c, []⟩, tokens, next, rest, hitems, ?_, ?_, hnext⟩
        · simpa [Union.kinds] using hclause.kinds
        · simpa [Union.clauses] using hc
    · refine .inr (.inl ⟨[], c, span, ⟨[], tokens, next, rest, hitems, rfl, hclause⟩, ?_, hc⟩)
      simp
  · refine .inr (.inr ⟨e, ?_, hstops⟩)
    rw [clauses]
    split
    · simp_all
    · simp_all
termination_by items.length

/-- Items that end as those of a text are empty, a sentence, out of order or stop the reading. -/
theorem ofItems_cases {items : List Item} (hitems : Token.Terminated items) :
    (∃ t rest, items = .ok t :: rest ∧ t.kind = .endOfInput) ∨
      (∃ (u : Union) (tokens : List Token), items = tokens.map .ok ∧
        tokens.map Token.kind = u.kinds ++ [.endOfInput] ∧ ∀ c ∈ u.clauses, c.Ordered) ∨
      (∃ earlier c span, Misordered items earlier c span) ∨
      ∃ e, ofItems items = .error e ∧ Stops .start items e := by
  rcases head_cases (s := .start) nofun items with ⟨t, more, rfl⟩ | ⟨e, he, hstops⟩
  · by_cases ht : t.kind = .endOfInput
    · exact .inl ⟨t, more, rfl, ht⟩
    · rcases clauses_cases 0 (.ok t :: more) with
        ⟨u, tokens, next, rest, heq, hkinds, hordered, hnext⟩ | hmis | ⟨e, he, hstops⟩
      · rw [heq] at hitems
        have hend := hitems.of_append (List.cons_ne_nil _ _)
        by_cases hlast : next.kind = .endOfInput
        · obtain rfl := hend.eq_nil_of_end hlast
          refine .inr (.inl ⟨u, tokens ++ [next], ?_, ?_, hordered⟩)
          · rw [heq, List.map_append, List.map_singleton]
          · rw [List.map_append, hkinds, List.map_singleton, hlast]
        · have hread := clauses_of_union hordered hkinds 0 hnext rest
          have hrun := State.run_union u []
          rw [List.append_nil, ← hkinds] at hrun
          have hstep : State.closed.step next.kind = none := by
            unfold State.step
            split <;> simp_all
          refine .inr (.inr (.inr ⟨.unexpected .unionOrEnd next.kind next.span, ?_, ?_⟩))
          · rw [ofItems_of_ne_end ht, heq, hread]
            simp only [Except.bind, head_ok, hlast, if_false]
          · rw [heq]
            exact .of_run hrun (.refused hstep rest)
      · exact .inr (.inr (.inl hmis))
      · exact .inr (.inr (.inr ⟨e, by rw [ofItems_of_ne_end ht, he]; rfl, hstops⟩))
  · exact .inr (.inr (.inr ⟨e, by simp [ofItems, he, bind, Except.bind], hstops⟩))

end IntervalRules.Grammar
