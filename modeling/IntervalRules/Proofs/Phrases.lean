import IntervalRules.Proofs.Grammar

/-!
Reading what the grammar writes. Items that hold the tokens of a phrase are read as the
value of its syntax tree, whatever follows; of an expression with clauses out of order, the
first such clause is reported.
-/

namespace IntervalRules.Grammar

open Expression (Item head magnitude bound opener lowerSide upperSide closer clause clauses
  ofItems)

@[simp] theorem head_ok (t : Token) (rest : List Item) : head (.ok t :: rest) = .ok t := rfl

@[simp] theorem head_error (e : TokenError) (rest : List Item) :
    head (.error e :: rest) = .error (.token e) := rfl

@[simp] theorem head_nil : head [] = .error .empty := rfl

/-- The tokens of a clause, which take up the span from the opener's start to the closer's
end. -/
structure IsClause (tokens : List Token) (c : Clause) (span : Span) : Prop where
  kinds : tokens.map Token.kind = c.kinds
  span : ∃ opening closing, tokens.head? = some opening ∧ tokens.getLast? = some closing ∧
    span = ⟨opening.span.start, closing.span.stop⟩

theorem bound_of_kinds {b : Bound} {tokens : List Token}
    (h : tokens.map Token.kind = b.kinds) (rest : List Item) :
    bound (tokens.map .ok ++ rest) = .ok (b.value, rest) := by
  obtain ⟨_ | _ | _, x⟩ := b
  · obtain ⟨t, rfl, ht⟩ := List.map_eq_singleton_iff.mp h
    simp [bound, magnitude, ht, Bound.value, bind, Except.bind, pure, Except.pure]
  all_goals
    obtain ⟨s, _, rfl, hs, hmore⟩ := List.map_eq_cons_iff.mp h
    obtain ⟨t, rfl, ht⟩ := List.map_eq_singleton_iff.mp hmore
    simp [bound, magnitude, hs, ht, Sign.kind, Bound.value, bind, Except.bind, pure, Except.pure]

/-- The first token of a bound is no punctuation mark. -/
theorem exists_head_of_bound {b : Bound} {tokens : List Token}
    (h : tokens.map Token.kind = b.kinds) :
    ∃ t more, tokens = t :: more ∧ ∀ p, t.kind ≠ .punctuation p := by
  obtain ⟨_ | _ | _, x⟩ := b
  all_goals
    obtain ⟨t, more, rfl, ht, -⟩ := List.map_eq_cons_iff.mp h
    refine ⟨t, more, rfl, fun p hp => ?_⟩
    rw [hp] at ht
    cases ht

theorem lowerSide_of_kinds {b : Option Bound} {tokens : List Token} {comma : Token}
    (h : tokens.map Token.kind = sideKinds b) (hcomma : comma.kind = .punctuation .comma)
    (rest : List Item) :
    lowerSide (tokens.map .ok ++ .ok comma :: rest) =
      .ok ((b.map Bound.value).getD .negInfinity, rest) := by
  cases b with
  | none =>
    obtain rfl := List.map_eq_nil_iff.mp h
    simp [lowerSide, hcomma, bind, Except.bind, pure, Except.pure]
  | some b =>
    have hbound := bound_of_kinds h (.ok comma :: rest)
    obtain ⟨t, more, rfl, hno⟩ := exists_head_of_bound h
    simp only [List.map_cons, List.cons_append] at hbound
    simp [lowerSide, hbound, hno, hcomma, bind, Except.bind, pure, Except.pure]

theorem upperSide_of_kinds {b : Option Bound} {tokens : List Token} {closing : Token} {j : Bool}
    (h : tokens.map Token.kind = sideKinds b)
    (hclosing : closing.kind = .punctuation (closerOf j)) (rest : List Item) :
    upperSide (tokens.map .ok ++ .ok closing :: rest) =
      .ok ((b.map Bound.value).getD .posInfinity, .ok closing :: rest) := by
  cases b with
  | none =>
    obtain rfl := List.map_eq_nil_iff.mp h
    cases j <;> simp [upperSide, hclosing, closerOf, bind, Except.bind, pure, Except.pure]
  | some b =>
    have hbound := bound_of_kinds h (.ok closing :: rest)
    obtain ⟨t, more, rfl, hno⟩ := exists_head_of_bound h
    simp only [List.map_cons, List.cons_append] at hbound
    simp [upperSide, hbound, hno, bind, Except.bind]

theorem opener_of_kind {t : Token} {i : Bool} (h : t.kind = .punctuation (openerOf i))
    (rest : List Item) : opener (.ok t :: rest) = .ok (i, t, rest) := by
  cases i <;> simp [opener, h, openerOf, bind, Except.bind, pure, Except.pure]

theorem closer_of_kind {t : Token} {j : Bool} (h : t.kind = .punctuation (closerOf j))
    (rest : List Item) : closer (.ok t :: rest) = .ok (j, t, rest) := by
  cases j <;> simp [closer, h, closerOf, bind, Except.bind, pure, Except.pure]

theorem getLast?_parts (opening comma closing : Token) (lower upper : List Token) :
    (opening :: (lower ++ comma :: (upper ++ [closing]))).getLast? = some closing := by
  rw [show opening :: (lower ++ comma :: (upper ++ [closing])) =
    (opening :: lower ++ comma :: upper) ++ [closing] by simp, List.getLast?_concat]

/-- The tokens of a clause by its parts. -/
theorem IsClause.exists_parts {tokens : List Token} {c : Clause} {span : Span}
    (h : IsClause tokens c span) :
    ∃ opening lower comma upper closing,
      tokens = opening :: (lower ++ comma :: (upper ++ [closing])) ∧
      opening.kind = .punctuation (openerOf c.lowerInclusive) ∧
      lower.map Token.kind = sideKinds c.lower ∧ comma.kind = .punctuation .comma ∧
      upper.map Token.kind = sideKinds c.upper ∧
      closing.kind = .punctuation (closerOf c.upperInclusive) ∧
      span = ⟨opening.span.start, closing.span.stop⟩ := by
  obtain ⟨opening, more, rfl, hopening, hmore⟩ := List.map_eq_cons_iff.mp h.kinds
  obtain ⟨lower, more, rfl, hlower, hmore⟩ := List.map_eq_append_iff.mp hmore
  obtain ⟨comma, more, rfl, hcomma, hmore⟩ := List.map_eq_cons_iff.mp hmore
  obtain ⟨upper, more, rfl, hupper, hmore⟩ := List.map_eq_append_iff.mp hmore
  obtain ⟨closing, rfl, hclosing⟩ := List.map_eq_singleton_iff.mp hmore
  refine ⟨opening, lower, comma, upper, closing, rfl, hopening, hlower, hcomma, hupper,
    hclosing, ?_⟩
  obtain ⟨first, last, hfirst, hlast, hspan⟩ := h.span
  obtain rfl : opening = first := Option.some.inj hfirst
  obtain rfl : closing = last := by
    rw [getLast?_parts] at hlast
    exact Option.some.inj hlast
  exact hspan

theorem IsClause.of_parts {c : Clause} {opening comma closing : Token} {lower upper : List Token}
    (hopening : opening.kind = .punctuation (openerOf c.lowerInclusive))
    (hlower : lower.map Token.kind = sideKinds c.lower) (hcomma : comma.kind = .punctuation .comma)
    (hupper : upper.map Token.kind = sideKinds c.upper)
    (hclosing : closing.kind = .punctuation (closerOf c.upperInclusive)) :
    IsClause (opening :: (lower ++ comma :: (upper ++ [closing]))) c
      ⟨opening.span.start, closing.span.stop⟩ where
  kinds := by simp [Clause.kinds, hopening, hlower, hcomma, hupper, hclosing]
  span := ⟨opening, closing, rfl, getLast?_parts .., rfl⟩

theorem exists_isClause {tokens : List Token} {c : Clause}
    (h : tokens.map Token.kind = c.kinds) : ∃ span, IsClause tokens c span := by
  have hne : tokens ≠ [] := by
    rintro rfl
    cases h
  exact ⟨_, h, _, _, List.head?_eq_some_head hne, List.getLast?_eq_some_getLast hne, rfl⟩

/-- The token after a clause is read before its bounds are compared. -/
theorem clause_of_kinds {tokens : List Token} {c : Clause} {span : Span}
    (h : IsClause tokens c span) (index : Nat) (rest : List Item) :
    clause index (tokens.map .ok ++ rest) = (head rest).bind fun _ =>
      if c.Ordered then .ok (c.interval, rest) else .error (.order index c.interval span) := by
  obtain ⟨opening, lower, comma, upper, closing, rfl, hopening, hlower, hcomma, hupper, hclosing,
    rfl⟩ := h.exists_parts
  have h₁ := lowerSide_of_kinds hlower hcomma (upper.map .ok ++ .ok closing :: rest)
  have h₂ := upperSide_of_kinds hupper hclosing rest
  simp only [clause, List.map_cons, List.map_append, List.cons_append, List.append_assoc,
    List.map_nil, List.nil_append, opener_of_kind hopening, h₁, h₂, closer_of_kind hclosing,
    bind, Except.bind]
  cases head rest <;> rfl

theorem clauses_of_clause {tokens : List Token} {c : Clause} {span : Span}
    (h : IsClause tokens c span) (hc : c.Ordered) (index : Nat) {next : Token}
    (hnext : next.kind ≠ .punctuation .union) (rest : List Item) :
    clauses index (tokens.map .ok ++ .ok next :: rest) = .ok ([c.interval], .ok next :: rest) := by
  have hclause := clause_of_kinds h index (.ok next :: rest)
  rw [head_ok, Except.bind, if_pos hc] at hclause
  rw [clauses]
  split
  · simp_all
  · rename_i r hr
    rw [hclause] at hr
    cases hr
    simp [hnext, bind, Except.bind, pure, Except.pure]

/-- The clauses after a clause in order and its `&` are read on their own. -/
theorem clauses_of_clause_union {tokens : List Token} {c : Clause} {span : Span}
    (h : IsClause tokens c span) (hc : c.Ordered) (index : Nat) {ampersand : Token}
    (hampersand : ampersand.kind = .punctuation .union) (rest : List Item) :
    clauses index (tokens.map .ok ++ .ok ampersand :: rest) =
      (clauses (index + 1) rest).map fun r => (c.interval :: r.1, r.2) := by
  have hclause := clause_of_kinds h index (.ok ampersand :: rest)
  rw [head_ok, Except.bind, if_pos hc] at hclause
  rw [clauses]
  split
  · simp_all
  · rename_i r hr
    rw [hclause] at hr
    cases hr
    simp only [head_ok, hampersand, bind, Except.bind, if_true, List.tail_cons]
    cases clauses (index + 1) rest <;> rfl

theorem clauses_of_misordered {tokens : List Token} {c : Clause} {span : Span}
    (h : IsClause tokens c span) (hc : ¬ c.Ordered) (index : Nat) (next : Token)
    (rest : List Item) :
    clauses index (tokens.map .ok ++ .ok next :: rest) =
      .error (.order index c.interval span) := by
  have hclause := clause_of_kinds h index (.ok next :: rest)
  rw [head_ok, Except.bind, if_neg hc] at hclause
  rw [clauses]
  split
  · rename_i e he
    rw [hclause] at he
    cases he
    rfl
  · simp_all

/-! ## Several clauses -/

theorem clauses_of_union {u : Union} (hordered : ∀ c ∈ u.clauses, c.Ordered)
    {tokens : List Token} (h : tokens.map Token.kind = u.kinds) (index : Nat) {next : Token}
    (hnext : next.kind ≠ .punctuation .union) (rest : List Item) :
    clauses index (tokens.map .ok ++ .ok next :: rest) =
      .ok (u.clauses.map Clause.interval, .ok next :: rest) := by
  obtain ⟨first, more⟩ := u
  induction more generalizing first tokens index with
  | nil =>
    obtain ⟨span, hfirst⟩ := exists_isClause (c := first) (by simpa [Union.kinds] using h)
    exact clauses_of_clause hfirst (hordered first (by simp [Union.clauses])) index hnext rest
  | cons c more ih =>
    rw [Union.kinds_cons] at h
    obtain ⟨front, back, rfl, hfront, hback⟩ := List.map_eq_append_iff.mp h
    obtain ⟨ampersand, back, rfl, hampersand, hback⟩ := List.map_eq_cons_iff.mp hback
    obtain ⟨span, hfirst⟩ := exists_isClause hfront
    have htail := ih (index + 1) c (fun d hd => hordered d (List.mem_cons_of_mem _ hd)) hback
    rw [List.map_append, List.append_assoc, List.map_cons, List.cons_append,
      clauses_of_clause_union hfirst (hordered first (by simp [Union.clauses])) index hampersand,
      htail]
    rfl

/-- The clauses after some in order and a further `&` are read on their own. -/
theorem clauses_of_union_union {u : Union} (hordered : ∀ c ∈ u.clauses, c.Ordered)
    {tokens : List Token} (h : tokens.map Token.kind = u.kinds) (index : Nat) {ampersand : Token}
    (hampersand : ampersand.kind = .punctuation .union) (rest : List Item) :
    clauses index (tokens.map .ok ++ .ok ampersand :: rest) =
      (clauses (index + u.clauses.length) rest).map fun r =>
        (u.clauses.map Clause.interval ++ r.1, r.2) := by
  obtain ⟨first, more⟩ := u
  induction more generalizing first tokens index with
  | nil =>
    obtain ⟨span, hfirst⟩ := exists_isClause (c := first) (by simpa [Union.kinds] using h)
    exact clauses_of_clause_union hfirst (hordered first (by simp [Union.clauses])) index
      hampersand rest
  | cons c more ih =>
    rw [Union.kinds_cons] at h
    obtain ⟨front, back, rfl, hfront, hback⟩ := List.map_eq_append_iff.mp h
    obtain ⟨between, back, rfl, hbetween, hback⟩ := List.map_eq_cons_iff.mp hback
    obtain ⟨span, hfirst⟩ := exists_isClause hfront
    have htail := ih (index + 1) c (fun d hd => hordered d (List.mem_cons_of_mem _ hd)) hback
    have hcount : index + 1 + (Union.mk c more).clauses.length =
        index + (Union.mk first (c :: more)).clauses.length := by
      simp only [Union.clauses, List.length_cons]
      omega
    rw [List.map_append, List.append_assoc, List.map_cons, List.cons_append,
      clauses_of_clause_union hfirst (hordered first (by simp [Union.clauses])) index hbetween,
      htail, hcount]
    cases clauses (index + (Union.mk first (c :: more)).clauses.length) rest <;> rfl

/-- The items start with clauses in order, each with its `&`, and with a clause out of order
after which there is a token. -/
structure Misordered (items : List Item) (earlier : List Clause) (c : Clause) (span : Span) :
    Prop where
  items : ∃ (front body : List Token) (next : Token) (rest : List Item),
    items = front.map .ok ++ (body.map .ok ++ .ok next :: rest) ∧
    front.map Token.kind = ahead earlier ∧ IsClause body c span
  earlier : ∀ d ∈ earlier, d.Ordered
  order : ¬ c.Ordered

/-- The first clause out of order is reported. -/
theorem Misordered.clauses_eq {items : List Item} {earlier : List Clause} {c : Clause}
    {span : Span} (h : Misordered items earlier c span) (index : Nat) :
    clauses index items = .error (.order (index + earlier.length) c.interval span) := by
  obtain ⟨⟨front, body, next, rest, rfl, hfront, hbody⟩, hearlier, hc⟩ := h
  induction earlier generalizing front index with
  | nil =>
    obtain rfl := List.map_eq_nil_iff.mp hfront
    exact clauses_of_misordered hbody hc index next rest
  | cons d earlier ih =>
    obtain ⟨dtokens, more, rfl, hd, hmore⟩ :=
      List.map_eq_append_iff.mp (hfront.trans (by simpa using ahead_cons d earlier []))
    obtain ⟨ampersand, front, rfl, hampersand, hfront⟩ := List.map_eq_cons_iff.mp hmore
    obtain ⟨dspan, hd⟩ := exists_isClause hd
    have htail :=
      ih (index + 1) (fun x hx => hearlier x (List.mem_cons_of_mem _ hx)) front hfront
    rw [List.map_append, List.append_assoc, List.map_cons, List.cons_append,
      clauses_of_clause_union hd (hearlier d List.mem_cons_self) index hampersand, htail,
      List.length_cons, Nat.add_right_comm, Nat.add_assoc]
    rfl

/-! ## Whole expressions -/

theorem ofItems_of_end {t : Token} (ht : t.kind = .endOfInput) (rest : List Item) :
    ofItems (.ok t :: rest) = .error .empty := by
  simp [ofItems, ht, bind, Except.bind, throw, throwThe, MonadExceptOf.throw]

theorem ofItems_of_ne_end {t : Token} (ht : t.kind ≠ .endOfInput) (rest : List Item) :
    ofItems (.ok t :: rest) = (clauses 0 (.ok t :: rest)).bind fun r => (head r.2).bind fun u =>
      if u.kind = .endOfInput then .ok ⟨r.1⟩
      else .error (.unexpected .unionOrEnd u.kind u.span) := by
  simp only [ofItems, head_ok, ht, bind, Except.bind, if_false]
  rfl

/-- The first token of a clause is no end of the input. -/
theorem exists_opening {tokens : List Token} {c : Clause} {more : List TokenKind}
    (h : tokens.map Token.kind = c.kinds ++ more) :
    ∃ t rest, tokens = t :: rest ∧ t.kind ≠ .endOfInput := by
  obtain ⟨t, rest, rfl, ht, -⟩ := List.map_eq_cons_iff.mp h
  exact ⟨t, rest, rfl, by simp [ht]⟩

theorem ofItems_of_sentence {u : Union} (hordered : ∀ c ∈ u.clauses, c.Ordered)
    {tokens : List Token} (h : tokens.map Token.kind = u.kinds ++ [.endOfInput]) :
    ofItems (tokens.map .ok) = .ok ⟨u.clauses.map Clause.interval⟩ := by
  obtain ⟨front, back, rfl, hfront, hback⟩ := List.map_eq_append_iff.mp h
  obtain ⟨last, rfl, hlast⟩ := List.map_eq_singleton_iff.mp hback
  have hnext : last.kind ≠ .punctuation .union := by simp [hlast]
  have hread := clauses_of_union hordered hfront 0 hnext []
  obtain ⟨t, rest, rfl, ht⟩ := exists_opening hfront
  simp only [List.cons_append, List.map_cons, List.map_append, List.map_nil] at hread ⊢
  rw [ofItems_of_ne_end ht, hread]
  simp [Except.bind, hlast]

theorem Misordered.ofItems_eq {items : List Item} {earlier : List Clause} {c : Clause}
    {span : Span} (h : Misordered items earlier c span) :
    ofItems items = .error (.order earlier.length c.interval span) := by
  have hread := h.clauses_eq 0
  obtain ⟨front, body, next, rest, hitems, hfront, hbody⟩ := h.items
  have hkinds : ∃ (d : Clause) (more : List TokenKind),
      (front ++ body).map Token.kind = d.kinds ++ more := by
    rw [List.map_append, hfront, hbody.kinds]
    cases earlier with
    | nil => exact ⟨c, [], by simp [ahead]⟩
    | cons d earlier => exact ⟨d, _, ahead_cons d earlier c.kinds⟩
  obtain ⟨d, more, hkinds⟩ := hkinds
  obtain ⟨t, tokens, htokens, ht⟩ := exists_opening hkinds
  rw [← List.append_assoc, ← List.map_append, htokens, List.map_cons, List.cons_append] at hitems
  rw [hitems] at hread ⊢
  rw [ofItems_of_ne_end ht, hread, Nat.zero_add]
  rfl

end IntervalRules.Grammar
