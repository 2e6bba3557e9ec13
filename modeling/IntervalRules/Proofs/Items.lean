import IntervalRules.Expression.Parse

/-!
What a text has to read: tokens, and at the end the end of the input or the first error.
All tokens are there exactly if no item is an error.
-/

namespace IntervalRules.Token

open Expression (Item)

theorem itemsFrom_of_scan {pos : Nat} {cs : List Char} {r : Token × List Char}
    (h : scan pos cs = .ok r) (hkind : r.1.kind ≠ .endOfInput) :
    itemsFrom pos cs = .ok r.1 :: itemsFrom r.1.span.stop r.2 := by
  rw [itemsFrom.eq_def]
  split
  · rename_i e he
    rw [h] at he
    cases he
  · rename_i r' hr
    rw [h] at hr
    cases hr
    rw [dif_neg hkind]

theorem itemsFrom_of_scan_end {pos : Nat} {cs : List Char} {r : Token × List Char}
    (h : scan pos cs = .ok r) (hkind : r.1.kind = .endOfInput) :
    itemsFrom pos cs = [.ok r.1] := by
  rw [itemsFrom.eq_def]
  split
  · rename_i e he
    rw [h] at he
    cases he
  · rename_i r' hr
    rw [h] at hr
    cases hr
    rw [dif_pos hkind]

theorem itemsFrom_of_scan_error {pos : Nat} {cs : List Char} {e : TokenError}
    (h : scan pos cs = .error e) : itemsFrom pos cs = [.error e] := by
  rw [itemsFrom.eq_def]
  split
  · rename_i e' he
    rw [h] at he
    cases he
    rfl
  · rename_i r hr
    rw [h] at hr
    cases hr

/-- The items of a text are determined by its first token. -/
theorem itemsFrom_congr {pos pos' : Nat} {cs cs' : List Char} (h : scan pos cs = scan pos' cs') :
    itemsFrom pos cs = itemsFrom pos' cs' := by
  cases hscan : scan pos' cs' with
  | error e => rw [itemsFrom_of_scan_error hscan, itemsFrom_of_scan_error (h.trans hscan)]
  | ok r =>
    by_cases hkind : r.1.kind = .endOfInput
    · rw [itemsFrom_of_scan_end hscan hkind, itemsFrom_of_scan_end (h.trans hscan) hkind]
    · rw [itemsFrom_of_scan hscan hkind, itemsFrom_of_scan (h.trans hscan) hkind]

/-- The last item is the end of the input or an error, and it is the only such item. -/
inductive Terminated : List Item → Prop
  | failed (e : TokenError) : Terminated [.error e]
  | ended (t : Token) (h : t.kind = .endOfInput) : Terminated [.ok t]
  | token (t : Token) (rest : List Item) (h : t.kind ≠ .endOfInput) :
      Terminated rest → Terminated (.ok t :: rest)

theorem itemsFrom_terminated (pos : Nat) (cs : List Char) : Terminated (itemsFrom pos cs) := by
  fun_induction itemsFrom pos cs with
  | case1 pos cs e _ => exact .failed e
  | case2 pos cs r _ ended => exact .ended r.1 ended
  | case3 pos cs r _ more ih => exact .token r.1 _ more ih

theorem items_terminated (text : String) : Terminated (items text) :=
  itemsFrom_terminated 0 text.toList

theorem Terminated.ne_nil {items : List Item} (h : Terminated items) : items ≠ [] := by
  cases h <;> exact nofun

theorem Terminated.of_append {tokens : List Token} {rest : List Item} (hrest : rest ≠ [])
    (h : Terminated (tokens.map .ok ++ rest)) : Terminated rest := by
  induction tokens with
  | nil => exact h
  | cons t tokens ih =>
    generalize hmore : tokens.map .ok ++ rest = more at h ih
    rw [List.map_cons, List.cons_append, hmore] at h
    cases h with
    | ended => simp_all
    | token _ _ _ h => exact ih h

theorem Terminated.exists_last {tokens : List Token} (h : Terminated (tokens.map .ok)) :
    ∃ t, tokens.getLast? = some t ∧ t.kind = .endOfInput := by
  have hne : tokens ≠ [] := by
    rintro rfl
    cases h
  refine ⟨tokens.getLast hne, List.getLast?_eq_some_getLast hne, ?_⟩
  rw [← List.dropLast_concat_getLast hne, List.map_append, List.map_singleton] at h
  cases h.of_append (List.cons_ne_nil _ _) with
  | ended _ ht => exact ht
  | token _ _ _ hnil => cases hnil

/-- Nothing follows the end of the input. -/
theorem Terminated.eq_nil_of_end {t : Token} {rest : List Item} (h : Terminated (.ok t :: rest))
    (ht : t.kind = .endOfInput) : rest = [] := by
  cases h with
  | ended => rfl
  | token _ _ hne => exact absurd ht hne

theorem mapM_id_eq_ok_iff (items : List Item) (tokens : List Token) :
    items.mapM id = .ok tokens ↔ items = tokens.map .ok := by
  induction items generalizing tokens with
  | nil => cases tokens <;> simp [pure, Except.pure]
  | cons item rest ih =>
    cases item with
    | error e => cases tokens <;> simp [bind, Except.bind]
    | ok t =>
      cases hrest : rest.mapM id with
      | error e => cases tokens <;> simp [bind, Except.bind, hrest, ← ih]
      | ok ts => cases tokens <;> simp [bind, Except.bind, pure, Except.pure, hrest, ← ih]

/-- A text has all its tokens exactly if each of its items is a token. -/
theorem tokenize_eq_ok_iff (text : String) (tokens : List Token) :
    tokenize text = .ok tokens ↔ items text = tokens.map .ok :=
  mapM_id_eq_ok_iff (items text) tokens

theorem mapM_id_of_error (tokens : List Token) (e : TokenError) (rest : List Item) :
    (tokens.map Except.ok ++ Except.error e :: rest).mapM id =
      (.error e : Except TokenError (List Token)) := by
  induction tokens with
  | nil => rfl
  | cons t tokens ih => simp [bind, Except.bind, ih]

/-- The first error among the items is the error of the whole text. -/
theorem tokenize_of_error (text : String) (tokens : List Token) (e : TokenError)
    (rest : List Item) (h : items text = tokens.map .ok ++ .error e :: rest) :
    tokenize text = .error e := by
  rw [tokenize, h]
  exact mapM_id_of_error tokens e rest

end IntervalRules.Token
