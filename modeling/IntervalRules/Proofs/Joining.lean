import IntervalRules.Proofs.Acceptance
import IntervalRules.Proofs.ParseRelocation
import IntervalRules.Proofs.Reading

/-!
Texts joined by a line end and `&`. The line end closes whatever comment the first text ends in, so
the tokens of the two are read as they are apart, those of the second one further on; the clauses
of the second one are read after those of the first.
-/

namespace IntervalRules

open Text (byteLength byteLength_append)

namespace Token

theorem endTrivia_of_itemsFrom {pos : Nat} {cs : List Char} {t : Token}
    (h : itemsFrom pos cs = [.ok t]) (ht : t.kind = .endOfInput) :
    EndTrivia cs ∧ t.span = ⟨pos + byteLength cs, pos + byteLength cs⟩ := by
  cases hscan : scan pos cs with
  | error e =>
    rw [itemsFrom_of_scan_error hscan] at h
    cases h
  | ok r =>
    by_cases hkind : r.1.kind = .endOfInput
    · rw [itemsFrom_of_scan_end hscan hkind] at h
      obtain rfl := Except.ok.inj (List.cons.inj h).1
      obtain ⟨htrivia, -, hspan⟩ := (scan_eq_end_iff hkind).1 hscan
      exact ⟨htrivia, hspan⟩
    · rw [itemsFrom_of_scan hscan hkind] at h
      obtain rfl := Except.ok.inj (List.cons.inj h).1
      exact absurd ht hkind

/-- The tokens of a text, the `&`, and the items of the other text further on. -/
theorem items_join {a : String} {tokens : List Token} {last : Token}
    (h : items a = tokens.map .ok ++ [.ok last]) (hlast : last.kind = .endOfInput) (b : String) :
    ∃ ampersand : Token, ampersand.kind = .punctuation .union ∧
      items (a ++ "\n&" ++ b) = tokens.map .ok ++ .ok ampersand ::
        (items b).map (relocateItem (Span.shift (byteLength a.toList + 2))) := by
  obtain ⟨pos, tail, hreads, htail⟩ := exists_reads h (List.cons_ne_nil _ _)
  -- a line comment at the end of the first text is trivia only with the line end after it
  have hgap : Trivia (tail ++ ['\n']) :=
    (endTrivia_of_itemsFrom htail hlast).1.append_newline (by decide)
  obtain ⟨front, ha, hpos, hreads'⟩ := hreads.replace (keepsEnds_newline
    (show CharClass.isNewline '\n' = true by decide) tail ('&' :: b.toList))
  obtain ⟨ampersand, hkind, hstop, hscan⟩ : ∃ ampersand : Token,
      ampersand.kind = .punctuation .union ∧
        ampersand.span.stop = 0 + (byteLength a.toList + 2) ∧
          scan pos (tail ++ '\n' :: '&' :: b.toList) = .ok (ampersand, b.toList) := by
    have hread := scan_of_lexeme (.punctuation .union)
      (show Delimited _ _ b.toList from nofun) (pos + byteLength (tail ++ ['\n']))
    rw [← scan_append_trivia hgap, List.append_assoc] at hread
    refine ⟨_, rfl, ?_, hread⟩
    dsimp only
    rw [hpos, ha, byteLength_append, byteLength_append, show byteLength ['\n'] = 1 from rfl,
      show byteLength [Punctuation.union.char] = 1 from rfl]
    omega
  refine ⟨ampersand, hkind, ?_⟩
  have hmore : ampersand.kind ≠ .endOfInput := by
    rw [hkind]
    exact nofun
  have htext : (a ++ "\n&" ++ b).toList = front ++ (tail ++ '\n' :: '&' :: b.toList) := by
    simp [ha]
  rw [items, htext, hreads'.itemsFrom_eq, itemsFrom_of_scan hscan hmore, items,
    ← itemsFrom_shift, ← hstop]

end Token

namespace Grammar

open Expression (Item head clauses ofItems Fits clauses_map head_map)
open Token (relocateItem)

theorem fits_shift (d : Nat) (items : List Item) : Fits (Span.shift d) items :=
  List.pairwise_of_forall fun _ _ _ _ _ _ _ => rfl

/-- Unless there is nothing to read, the items are read as clauses and then the end. -/
theorem ofItems_of_ne_empty {items : List Item} (h : ofItems items ≠ .error .empty) :
    ofItems items = (clauses 0 items).bind fun r => (head r.2).bind fun u =>
      if u.kind = .endOfInput then .ok ⟨r.1⟩
      else .error (.unexpected .unionOrEnd u.kind u.span) := by
  rcases items with _ | ⟨e | t, rest⟩
  · exact absurd rfl h
  · rw [Expression.clauses_eq]
    rfl
  · exact ofItems_of_ne_end (fun ht => h (ofItems_of_end ht rest)) rest

section

variable {u : Union} (hordered : ∀ c ∈ u.clauses, c.Ordered) {tokens : List Token}
  (hkinds : tokens.map Token.kind = u.kinds) {ampersand : Token}
  (hampersand : ampersand.kind = .punctuation .union)

include hordered hkinds hampersand

theorem ofItems_of_union_union (items : List Item) :
    ofItems (tokens.map .ok ++ .ok ampersand :: items) =
      (clauses u.clauses.length items).bind fun r => (head r.2).bind fun last =>
        if last.kind = .endOfInput then .ok ⟨u.clauses.map Clause.interval ++ r.1⟩
        else .error (.unexpected .unionOrEnd last.kind last.span) := by
  have hread := clauses_of_union_union hordered hkinds 0 hampersand items
  obtain ⟨t, rest, rfl, ht⟩ := exists_opening hkinds
  rw [Nat.zero_add] at hread
  rw [List.map_cons, List.cons_append] at hread ⊢
  rw [ofItems_of_ne_end ht, hread]
  cases clauses u.clauses.length items <;> rfl

/-- Items that are an expression, or fail to be one, after clauses in order and `&`. -/
theorem ofItems_join (d : Nat) {items : List Item} (hne : ofItems items ≠ .error .empty) :
    ofItems (tokens.map .ok ++ .ok ampersand :: items.map (relocateItem (Span.shift d))) =
      mapBoth (.relocate (Span.shift d) u.clauses.length)
        (fun e => ⟨u.clauses.map Clause.interval ++ e.intervals⟩) (ofItems items) := by
  have hclauses := clauses_map (fits_shift d items) u.clauses.length 0
  rw [Nat.zero_add] at hclauses
  rw [ofItems_of_union_union hordered hkinds hampersand, hclauses, ofItems_of_ne_empty hne]
  cases clauses 0 items with
  | error e => rfl
  | ok r =>
    simp only [mapBoth_ok, Except.bind]
    rw [head_map (Span.shift d) u.clauses.length]
    cases head r.2 with
    | error e => rfl
    | ok t =>
      by_cases ht : t.kind = .endOfInput
      · simp only [mapBoth_ok, Token.relocate, ht, if_true]
      · simp only [mapBoth_ok, Token.relocate, ht, if_false, mapBoth_error,
          ExpressionError.relocate]

/-- At the end of the input after `&` another clause is expected. -/
theorem ofItems_join_end {t : Token} (ht : t.kind = .endOfInput) :
    ofItems (tokens.map .ok ++ [.ok ampersand, .ok t]) =
      .error (.unexpected .opener .endOfInput t.span) := by
  rw [ofItems_of_union_union hordered hkinds hampersand, Expression.clauses_eq]
  simp [Expression.clause, Expression.opener, ht, bind, Except.bind, throw, throwThe,
    MonadExceptOf.throw]

end

/-- What the two texts are read as together. -/
theorem parse_join_eq {a : String} {xs : Expression} (ha : Expression.parse a = .ok xs)
    (b : String) :
    (Expression.parse b ≠ .error .empty → Expression.parse (a ++ "\n&" ++ b) =
      mapBoth (.relocate (Span.shift (byteLength a.toList + 2)) xs.intervals.length)
        (fun ys => ⟨xs.intervals ++ ys.intervals⟩) (Expression.parse b)) ∧
    (Expression.parse b = .error .empty → Expression.parse (a ++ "\n&" ++ b) =
      .error (.unexpected .opener .endOfInput
        ⟨byteLength (a ++ "\n&" ++ b).toList, byteLength (a ++ "\n&" ++ b).toList⟩)) := by
  obtain ⟨tokens, u, hitems, hkinds, hordered, hintervals⟩ :=
    (ofItems_eq_ok_iff (Token.items_terminated a) xs).1 ha
  obtain ⟨front, back, rfl, hfront, hback⟩ := List.map_eq_append_iff.mp hkinds
  obtain ⟨last, rfl, hlast⟩ := List.map_eq_singleton_iff.mp hback
  rw [List.map_append, List.map_singleton] at hitems
  obtain ⟨ampersand, hampersand, hjoin⟩ := Token.items_join hitems hlast b
  have hcount : xs.intervals.length = u.clauses.length := by rw [hintervals, List.length_map]
  constructor
  · intro hb
    rw [Expression.parse, hjoin, hcount, hintervals]
    exact ofItems_join hordered hfront hampersand _ hb
  · intro hb
    obtain ⟨t, ht, hkind⟩ := (ofItems_eq_empty_iff (Token.items_terminated b)).1 hb
    have hlength : byteLength (a ++ "\n&" ++ b).toList =
        0 + byteLength b.toList + (byteLength a.toList + 2) := by
      rw [String.toList_append, String.toList_append, byteLength_append, byteLength_append,
        show byteLength "\n&".toList = 2 from rfl]
      omega
    have hspan : (t.relocate (Span.shift (byteLength a.toList + 2))).span =
        ⟨byteLength (a ++ "\n&" ++ b).toList, byteLength (a ++ "\n&" ++ b).toList⟩ := by
      rw [Token.relocate, (Token.endTrivia_of_itemsFrom ht hkind).2, hlength, Span.shift]
    rw [Expression.parse, hjoin, ht, ← hspan]
    exact ofItems_join_end hordered hfront hampersand hkind

/-- Joining two texts joins their clauses and so their intervals, whatever trivia the first one
ends in. A text that is no expression fails after another one with the same error, moved on by
the length of what is in front of it, with the clauses counted on; if it is empty, the clause
after `&` is what is missing. -/
theorem parse_join (a b : String) (xs : Expression) (ha : Expression.parse a = .ok xs) :
    (∀ ys, Expression.parse b = .ok ys →
      Expression.parse (a ++ "\n&" ++ b) = .ok ⟨xs.intervals ++ ys.intervals⟩ ∧
      Expression.parse (b ++ "\n&" ++ a) = .ok ⟨ys.intervals ++ xs.intervals⟩ ∧
      ∀ v, ∃ p q, isInRange v a = .ok p ∧ isInRange v b = .ok q ∧
        isInRange v (a ++ "\n&" ++ b) = .ok (p || q) ∧
        isInRange v (b ++ "\n&" ++ a) = .ok (p || q)) ∧
    (∀ e, Expression.parse b = .error e → e ≠ .empty →
      Expression.parse (a ++ "\n&" ++ b) =
        .error (e.relocate (Span.shift (byteLength a.toList + 2)) xs.intervals.length)) ∧
    (Expression.parse b = .error .empty →
      Expression.parse (a ++ "\n&" ++ b) = .error (.unexpected .opener .endOfInput
        ⟨byteLength (a ++ "\n&" ++ b).toList, byteLength (a ++ "\n&" ++ b).toList⟩)) := by
  have join {a b : String} {xs ys : Expression} (ha : Expression.parse a = .ok xs)
      (hb : Expression.parse b = .ok ys) :
      Expression.parse (a ++ "\n&" ++ b) = .ok ⟨xs.intervals ++ ys.intervals⟩ := by
    rw [(parse_join_eq ha b).1 (by rw [hb]; exact nofun), hb, mapBoth_ok]
  refine ⟨fun ys hb => ⟨join ha hb, join hb ha, fun v => ⟨xs.contains v, ys.contains v, ?_⟩⟩,
    fun e hb he => ?_, (parse_join_eq ha b).2⟩
  · simp only [isInRange, ha, hb, join ha hb, join hb ha, Except.map, Expression.contains,
      List.any_append, Bool.or_comm, and_self]
  · have hne : Expression.parse b ≠ .error .empty := by
      rw [hb]
      exact fun h => he (Except.error.inj h)
    rw [(parse_join_eq ha b).1 hne, hb, mapBoth_error]

/-- After a text that ends in a line comment, a text whose one clause is out of order. -/
theorem parse_join_after_comment :
    Expression.parse "[1,2) // one" = .ok ⟨[⟨.ofNat 1, true, .ofNat 2, false⟩]⟩ ∧
      Expression.parse ("[1,2) // one" ++ "\n&" ++ "(5,3]") =
        .error (.order 1 ⟨.ofNat 5, false, .ofNat 3, true⟩ ⟨14, 19⟩) := by
  have ha : Expression.parse "[1,2) // one" = .ok ⟨[⟨.ofNat 1, true, .ofNat 2, false⟩]⟩ := by
    decide +kernel
  have hb : Expression.parse "(5,3]" =
      .error (.order 0 ⟨.ofNat 5, false, .ofNat 3, true⟩ ⟨0, 5⟩) := by
    decide +kernel
  exact ⟨ha, ((parse_join _ _ _ ha).2.1 _ hb nofun).trans (by decide +kernel)⟩

end Grammar

end IntervalRules
