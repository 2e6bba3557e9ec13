import IntervalRules.Proofs.Acceptance
import IntervalRules.Command.Report

/-!
Which error a text is reported with. The first faulty item is an error of the text, or a
token with which the items up to it no longer begin a sentence. A clause that closes before
it is reported if its bounds are the first that are out of order and the item after it is no
error; otherwise the first faulty item is reported.
-/

namespace IntervalRules.Grammar

open Expression (Item ofItems)

/-- The kinds of the tokens among the items. -/
def kindsOf (items : List Item) : List TokenKind :=
  items.filterMap fun item => item.toOption.map Token.kind

/-- Item `k` is an error, or a token that ends every beginning of a sentence. -/
def Fault (items : List Item) (k : Nat) : Prop :=
  (∃ e, items[k]? = some (.error e)) ∨
    ∃ t, items[k]? = some (.ok t) ∧ ¬ Viable (kindsOf (items.take (k + 1)))

def FirstFault (items : List Item) (k : Nat) : Prop := Fault items k ∧ ∀ m < k, ¬ Fault items m

/-- The items up to number `stop` are the tokens of the clauses `earlier`, with `&` after each,
and then those of the clause `c`, which takes up `span`. -/
def ClosesAt (items : List Item) (stop : Nat) (earlier : List Clause) (c : Clause)
    (span : Span) : Prop :=
  ∃ front body : List Token, items.take (stop + 1) = (front ++ body).map .ok ∧
    (front ++ body).length = stop + 1 ∧ front.map Token.kind = ahead earlier ∧
    IsClause body c span

/-- What makes a clause that closes at item `stop` the one that is reported. -/
structure Reported (items : List Item) (stop : Nat) (earlier : List Clause) (c : Clause) :
    Prop where
  before_fault : ∀ k, FirstFault items k → stop < k
  lookahead : ∀ e, items[stop + 1]? ≠ some (.error e)
  order : ¬ c.Ordered
  earlier : ∀ d ∈ earlier, d.Ordered

theorem kindsOf_map_ok (tokens : List Token) :
    kindsOf (tokens.map .ok) = tokens.map Token.kind := by
  induction tokens with
  | nil => rfl
  | cons t tokens ih =>
    simp only [kindsOf, List.map_cons] at ih ⊢
    exact congrArg (t.kind :: ·) ih

theorem FirstFault.unique {items : List Item} {k m : Nat} (hk : FirstFault items k)
    (hm : FirstFault items m) : k = m := by
  rcases Nat.lt_trichotomy k m with h | h | h
  · exact absurd hk.1 (hm.2 k h)
  · exact h
  · exact absurd hm.1 (hk.2 m h)

/-- Tokens at the front that begin a sentence are no faults. -/
theorem not_fault_of_viable {tokens : List Token} (hviable : Viable (tokens.map Token.kind))
    (rest : List Item) {k : Nat} (hk : k < tokens.length) :
    ¬ Fault (tokens.map .ok ++ rest) k := by
  have hget : (tokens.map .ok ++ rest)[k]? = some (.ok tokens[k]) := by
    rw [List.getElem?_append_left (by simpa using hk)]
    simp [List.getElem?_eq_getElem hk]
  have htake : (tokens.map Except.ok ++ rest).take (k + 1) = (tokens.take (k + 1)).map .ok := by
    rw [List.take_append_of_le_length (by simpa using Nat.succ_le_of_lt hk), List.map_take]
  rintro (⟨e, he⟩ | ⟨t, -, ht⟩)
  · rw [hget] at he
    cases he
  · rw [htake, kindsOf_map_ok] at ht
    rw [← List.take_append_drop (k + 1) tokens, List.map_append] at hviable
    exact ht hviable.of_append

/-! ## Reading stops at the first fault -/

theorem Stops.exists_item {s : State} {items : List Item} {e : ExpressionError}
    (h : Stops s items e) (he : e ≠ .empty) :
    ∃ (tokens : List Token) (s' : State) (item : Item) (rest : List Item),
      items = tokens.map .ok ++ item :: rest ∧ s.run (tokens.map Token.kind) = some s' ∧
      ((∃ e', item = .error e' ∧ e = .token e') ∨
        ∃ t, item = .ok t ∧ s'.step t.kind = none ∧
          e = .unexpected s'.expected t.kind t.span) := by
  induction h with
  | failed s e' rest => exact ⟨[], s, .error e', rest, rfl, rfl, .inl ⟨e', rfl, rfl⟩⟩
  | @refused s t hstep rest => exact ⟨[], s, .ok t, rest, rfl, rfl, .inr ⟨t, rfl, hstep, rfl⟩⟩
  | ended => exact absurd rfl he
  | @later s s₁ t rest e hstep _ ih =>
    obtain ⟨tokens, s', item, more, rfl, hrun, hitem⟩ := ih he
    refine ⟨t :: tokens, s', item, more, rfl, ?_, hitem⟩
    rw [List.map_cons, State.run, hstep, Option.bind_some, hrun]

theorem Stops.exists_firstFault {items : List Item} {e : ExpressionError}
    (h : Stops .start items e) (he : e ≠ .empty) :
    ∃ k, FirstFault items k ∧
      ((∃ e', items[k]? = some (.error e') ∧ e = .token e') ∨
        ∃ t s, items[k]? = some (.ok t) ∧ State.start.run (kindsOf (items.take k)) = some s ∧
          e = .unexpected s.expected t.kind t.span) := by
  obtain ⟨tokens, s, item, rest, rfl, hrun, hitem⟩ := h.exists_item he
  have hviable : Viable (tokens.map Token.kind) := (viable_iff _).mpr ⟨s, hrun⟩
  have hget : (tokens.map .ok ++ item :: rest)[tokens.length]? = some item := by
    rw [List.getElem?_append_right (by simp)]
    simp
  have htake : (tokens.map Except.ok ++ item :: rest).take tokens.length = tokens.map .ok := by
    rw [List.take_append_of_le_length (by simp), List.take_of_length_le (by simp)]
  have hbefore : ∀ m < tokens.length, ¬ Fault (tokens.map .ok ++ item :: rest) m :=
    fun m hm => not_fault_of_viable hviable (item :: rest) hm
  refine ⟨tokens.length, ⟨?_, hbefore⟩, ?_⟩
  · rcases hitem with ⟨e', rfl, -⟩ | ⟨t, rfl, hstep, -⟩
    · exact .inl ⟨e', hget⟩
    · refine .inr ⟨t, hget, ?_⟩
      rw [List.take_add_one, htake, hget, Option.toList_some, ← List.map_singleton,
        ← List.map_append, kindsOf_map_ok, viable_iff, List.map_append,
        State.run_append_of_eq hrun, List.map_singleton, State.run, hstep]
      rintro ⟨s', hs'⟩
      cases hs'
  · rcases hitem with ⟨e', rfl, he'⟩ | ⟨t, rfl, -, he'⟩
    · exact .inl ⟨e', hget, he'⟩
    · exact .inr ⟨t, s, hget, by rw [htake, kindsOf_map_ok, hrun], he'⟩

theorem not_fault_of_sentence {u : Union} {tokens : List Token}
    (h : tokens.map Token.kind = u.kinds ++ [.endOfInput]) (k : Nat) :
    ¬ Fault (tokens.map .ok) k := by
  by_cases hk : k < tokens.length
  · have hviable : Viable (tokens.map Token.kind) := ⟨[], u, by rw [List.append_nil, h]⟩
    simpa using not_fault_of_viable hviable [] hk
  · have hnone : (tokens.map Except.ok : List Item)[k]? = none := by simpa using hk
    rintro (⟨e, he⟩ | ⟨t, ht, -⟩)
    · rw [hnone] at he
      cases he
    · rw [hnone] at ht
      cases ht

/-! ## The first clause out of order -/

theorem viable_of_isClause {earlier : List Clause} {c : Clause} {span : Span}
    {front body : List Token} (hfront : front.map Token.kind = ahead earlier)
    (hbody : IsClause body c span) : Viable ((front ++ body).map Token.kind) := by
  refine (viable_iff _).mpr ⟨.closed, ?_⟩
  have hrun := State.run_clause c []
  rw [List.append_nil] at hrun
  rw [List.map_append, hfront, hbody.kinds, State.run_ahead, hrun]
  rfl

private theorem ClosesAt.unique_of_le {items : List Item} {stop stop' : Nat}
    {earlier earlier' : List Clause}
    {c c' : Clause} {span span' : Span} (h : ClosesAt items stop earlier c span)
    (h' : ClosesAt items stop' earlier' c' span') (hlength : earlier.length = earlier'.length)
    (hle : stop ≤ stop') : stop = stop' ∧ earlier = earlier' ∧ c = c' := by
  obtain ⟨front, body, htake, hlen, hfront, hbody⟩ := h
  obtain ⟨front', body', htake', hlen', hfront', hbody'⟩ := h'
  have hpre : front ++ body = (front' ++ body').take (stop + 1) := by
    have hmap : (front ++ body).map (Except.ok : Token → Item) =
        ((front' ++ body').take (stop + 1)).map .ok := by
      rw [← htake, List.map_take, ← htake', List.take_take, Nat.min_eq_left (by omega)]
    exact (List.map_inj_right fun _ _ => Except.ok.inj).mp hmap
  have hkinds := congrArg (List.map Token.kind)
    (List.take_append_drop (stop + 1) (front' ++ body')).symm
  rw [← hpre, List.map_append, List.map_append, List.map_append, hfront, hfront', hbody.kinds,
    hbody'.kinds, List.append_assoc] at hkinds
  rw [← List.append_nil c'.kinds] at hkinds
  obtain ⟨rfl, rfl, hnil⟩ := ahead_append_inj hlength.symm hkinds
  have hdrop := congrArg List.length (List.map_eq_nil_iff.mp hnil.symm)
  rw [List.length_drop, hlen', List.length_nil] at hdrop
  exact ⟨by omega, rfl, rfl⟩

/-- The clause with a given number closes in one place only. -/
theorem ClosesAt.unique {items : List Item} {stop stop' : Nat} {earlier earlier' : List Clause}
    {c c' : Clause} {span span' : Span} (h : ClosesAt items stop earlier c span)
    (h' : ClosesAt items stop' earlier' c' span') (hlength : earlier.length = earlier'.length) :
    stop = stop' ∧ earlier = earlier' ∧ c = c' := by
  rcases Nat.le_total stop stop' with hle | hle
  · exact h.unique_of_le h' hlength hle
  · obtain ⟨rfl, rfl, rfl⟩ := h'.unique_of_le h hlength.symm hle
    exact ⟨rfl, rfl, rfl⟩

theorem Misordered.exists_closesAt {items : List Item} {earlier : List Clause} {c : Clause}
    {span : Span} (h : Misordered items earlier c span) :
    ∃ stop, ClosesAt items stop earlier c span ∧ Reported items stop earlier c := by
  obtain ⟨⟨front, body, next, rest, rfl, hfront, hbody⟩, hearlier, hc⟩ := h
  have hlen : 0 < body.length := by
    obtain ⟨opening, lower, comma, upper, closing, rfl, -⟩ := hbody.exists_parts
    simp
  have hstop : (front ++ body).length = (front ++ body).length - 1 + 1 := by
    rw [List.length_append]
    omega
  refine ⟨(front ++ body).length - 1, ⟨front, body, ?_, hstop, hfront, hbody⟩, ?_, ?_, hc,
    hearlier⟩
  · rw [← hstop, ← List.append_assoc, ← List.map_append, List.take_append_of_le_length (by simp),
      List.take_of_length_le (by simp)]
  · intro k hk
    refine Nat.lt_of_not_le fun hle => ?_
    have hlt : k < (front ++ body).length := by omega
    rw [← List.append_assoc, ← List.map_append] at hk
    exact not_fault_of_viable (viable_of_isClause hfront hbody) (.ok next :: rest) hlt hk.1
  · intro e he
    rw [← hstop, ← List.append_assoc, ← List.map_append, List.getElem?_append_right (by simp)] at he
    simp at he

theorem Reported.misordered {items : List Item} (hitems : Token.Terminated items) {stop : Nat}
    {earlier : List Clause} {c : Clause} {span : Span} (h : ClosesAt items stop earlier c span)
    (hr : Reported items stop earlier c) : Misordered items earlier c span := by
  refine ⟨?_, hr.earlier, hr.order⟩
  obtain ⟨front, body, htake, hlen, hfront, hbody⟩ := h
  have hsplit := (List.take_append_drop (stop + 1) items).symm
  rw [htake] at hsplit
  cases hdrop : items.drop (stop + 1) with
  | nil =>
    -- the last token would be a closing bracket, but the items end otherwise
    rw [hdrop, List.append_nil] at hsplit
    rw [hsplit] at hitems
    obtain ⟨t, hlast, ht⟩ := hitems.exists_last
    obtain ⟨opening, lower, comma, upper, closing, rfl, -, -, -, -, hclosing, -⟩ :=
      hbody.exists_parts
    rw [List.getLast?_append, getLast?_parts, Option.some_or] at hlast
    cases hlast
    rw [hclosing] at ht
    cases ht
  | cons item rest =>
    rw [hdrop] at hsplit
    cases item with
    | ok next => exact ⟨front, body, next, rest, by rw [hsplit]; simp, hfront, hbody⟩
    | error e =>
      refine absurd ?_ (hr.lookahead e)
      rw [← List.head?_drop, hdrop]
      rfl

/-! ## The reported error -/

theorem Stops.ne_order {s : State} {items : List Item} {e : ExpressionError}
    (h : Stops s items e) (i : Nat) (interval : Interval) (span : Span) :
    e ≠ .order i interval span := by
  induction h with
  | later _ _ ih => exact ih
  | _ => exact nofun

theorem ofItems_eq_order_iff {items : List Item} (hitems : Token.Terminated items) {stop : Nat}
    {earlier : List Clause} {c : Clause} {span : Span} (h : ClosesAt items stop earlier c span) :
    ofItems items = .error (.order earlier.length c.interval span) ↔
      Reported items stop earlier c := by
  constructor
  · intro hread
    rcases ofItems_cases hitems with ⟨t, rest, rfl, ht⟩ | ⟨u, tokens, rfl, hkinds, hordered⟩ |
      ⟨earlier', c', span', hmis⟩ | ⟨e, he, hstops⟩
    · rw [ofItems_of_end ht] at hread
      cases hread
    · rw [ofItems_of_sentence hordered hkinds] at hread
      cases hread
    · rw [hmis.ofItems_eq] at hread
      obtain ⟨hlength, -, -⟩ := ExpressionError.order.inj (Except.error.inj hread)
      obtain ⟨stop', hcloses, hreported⟩ := hmis.exists_closesAt
      obtain ⟨rfl, rfl, rfl⟩ := hcloses.unique h hlength
      exact hreported
    · rw [he] at hread
      exact absurd (Except.error.inj hread) (hstops.ne_order _ _ _)
  · intro hreported
    exact (Reported.misordered hitems h hreported).ofItems_eq

/-- Without a clause to report, the first fault is the error, and without a fault there is none. -/
theorem ofItems_of_not_reported {items : List Item} (hitems : Token.Terminated items)
    (hstart : ∀ t, items[0]? = some (.ok t) → t.kind ≠ .endOfInput)
    (hnone : ∀ stop earlier c span, ClosesAt items stop earlier c span →
      ¬ Reported items stop earlier c) :
    (∃ e, ofItems items = .ok e ∧ ∀ k, ¬ Fault items k) ∨
      ∃ k, FirstFault items k ∧
        ((∃ e, items[k]? = some (.error e) ∧ ofItems items = .error (.token e)) ∨
          ∃ t s, items[k]? = some (.ok t) ∧
            State.start.run (kindsOf (items.take k)) = some s ∧
            ofItems items = .error (.unexpected s.expected t.kind t.span)) := by
  rcases ofItems_cases hitems with ⟨t, rest, rfl, ht⟩ | ⟨u, tokens, rfl, hkinds, hordered⟩ |
    ⟨earlier, c, span, hmis⟩ | ⟨e, he, hstops⟩
  · exact absurd ht (hstart t rfl)
  · exact .inl ⟨_, ofItems_of_sentence hordered hkinds, not_fault_of_sentence hkinds⟩
  · obtain ⟨stop, hcloses, hreported⟩ := hmis.exists_closesAt
    exact absurd hreported (hnone stop earlier c span hcloses)
  · obtain ⟨k, hk, hitem⟩ := hstops.exists_firstFault (hstops.ne_empty hitems)
    refine .inr ⟨k, hk, ?_⟩
    rcases hitem with ⟨e', hget, rfl⟩ | ⟨t, s, hget, hs, rfl⟩
    · exact .inl ⟨e', hget, he⟩
    · exact .inr ⟨t, s, hget, hs, he⟩

theorem tokenize_of_parse_eq_token {text : String} {e : TokenError}
    (h : Expression.parse text = .error (.token e)) : Token.tokenize text = .error e := by
  have hitems := Token.items_terminated text
  rw [Expression.parse] at h
  rcases ofItems_cases hitems with ⟨t, rest, hcons, ht⟩ | ⟨u, tokens, hmap, hkinds, hordered⟩ |
    ⟨earlier, c, span, hmis⟩ | ⟨e', he', hstops⟩
  · rw [hcons, ofItems_of_end ht] at h
    cases h
  · rw [hmap, ofItems_of_sentence hordered hkinds] at h
    cases h
  · rw [hmis.ofItems_eq] at h
    cases h
  · rw [he'] at h
    cases h
    obtain ⟨tokens, s, item, rest, hsplit, -, hitem⟩ := hstops.exists_item nofun
    rcases hitem with ⟨e', rfl, he'⟩ | ⟨t, -, -, ht⟩
    · cases he'
      exact Token.tokenize_of_error text tokens e rest hsplit
    · cases ht

/-- Explaining a text fails exactly as reading it does, whether or not its tokens are asked for:
a text that is read has all its tokens. -/
theorem explain_eq_error_iff (text : String) (tokens : Bool) (input : ByteArray)
    (e : CommandError) :
    Command.perform (.explain text tokens) input = .error e ↔
      ∃ e', Expression.parse text = .error e' ∧ e = .expression text e' := by
  cases hparse : Expression.parse text with
  | error e' =>
    have hread : Command.parseExpression text = .error (.expression text e') := by
      rw [Command.parseExpression, hparse]
      rfl
    simp [Command.perform, hread, bind, Except.bind, eq_comm]
  | ok x =>
    have hread : Command.parseExpression text = .ok x := by
      rw [Command.parseExpression, hparse]
      rfl
    obtain ⟨ts, u, hitems, -⟩ := (ofItems_eq_ok_iff (Token.items_terminated text) x).mp hparse
    have htokens : (Token.tokenize text).mapError
        (fun e => CommandError.expression text (.token e)) = .ok ts := by
      rw [(Token.tokenize_eq_ok_iff text ts).mpr hitems]
      rfl
    cases tokens <;>
      simp [Command.perform, hread, htokens, bind, Except.bind, pure, Except.pure]

/-- The error of a text by its items. An empty text is reported as such. Otherwise a clause is
reported with its number, its interval and its span exactly if it closes before the first
fault, the item after it is no error, and it is the first that is out of order. If no clause
is reported, the first fault is: as the error that it is, or as a token where `expected` was.
An error of the text is therefore one of its tokens, and explaining a text fails exactly where
reading it does. -/
theorem parse_error_determined (text : String) :
    let items := Token.items text
    ((∃ t, items[0]? = some (.ok t) ∧ t.kind = .endOfInput) →
      Expression.parse text = .error .empty) ∧
    ((∀ t, items[0]? = some (.ok t) → t.kind ≠ .endOfInput) →
      (∀ stop earlier c span, ClosesAt items stop earlier c span →
        (Expression.parse text = .error (.order earlier.length c.interval span) ↔
          Reported items stop earlier c)) ∧
      ((∀ stop earlier c span, ClosesAt items stop earlier c span →
          ¬ Reported items stop earlier c) →
        (∀ k, FirstFault items k →
          (∀ e, items[k]? = some (.error e) → Expression.parse text = .error (.token e)) ∧
          ∀ t, items[k]? = some (.ok t) →
            ∃ s, State.start.run (kindsOf (items.take k)) = some s ∧
              Expression.parse text = .error (.unexpected s.expected t.kind t.span)) ∧
        ((∀ k, ¬ Fault items k) → ∃ e, Expression.parse text = .ok e))) ∧
    (∀ e, Expression.parse text = .error (.token e) → Token.tokenize text = .error e) ∧
    ∀ tokens input e, Command.perform (.explain text tokens) input = .error e ↔
      ∃ e', Expression.parse text = .error e' ∧ e = .expression text e' := by
  intro items
  have hitems : Token.Terminated items := Token.items_terminated text
  have hparse : Expression.parse text = ofItems items := rfl
  rw [hparse]
  refine ⟨?_, fun hstart => ⟨?_, fun hnone => ?_⟩, ?_, explain_eq_error_iff text⟩
  · rintro ⟨t, hget, ht⟩
    cases hcons : items with
    | nil => exact absurd hcons hitems.ne_nil
    | cons item rest =>
      rw [hcons] at hget
      cases hget
      exact ofItems_of_end ht rest
  · intro stop earlier c span hcloses
    exact ofItems_eq_order_iff hitems hcloses
  · rcases ofItems_of_not_reported hitems hstart hnone with ⟨e, he, hno⟩ | ⟨m, hm, hitem⟩
    · exact ⟨fun k hk => absurd hk.1 (hno k), fun _ => ⟨e, he⟩⟩
    · refine ⟨fun k hk => ?_, fun hno => absurd hm.1 (hno m)⟩
      obtain rfl := hk.unique hm
      rcases hitem with ⟨e, hget, he⟩ | ⟨t, s, hget, hs, he⟩
      · refine ⟨fun e' he' => ?_, fun t' ht' => ?_⟩
        · rw [hget] at he'
          cases he'
          exact he
        · rw [hget] at ht'
          cases ht'
      · refine ⟨fun e' he' => ?_, fun t' ht' => ?_⟩
        · rw [hget] at he'
          cases he'
        · rw [hget] at ht'
          cases ht'
          exact ⟨s, hs, he⟩
  · intro e he
    exact tokenize_of_parse_eq_token he

end IntervalRules.Grammar
