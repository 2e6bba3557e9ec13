import IntervalRules.Expression.Basic

/-!
Reading of range expressions from tokens. A clause is an opening bracket, two bounds with
a comma between them, each of which may be missing, and a closing bracket; clauses are
joined by `&`. A bound is a number literal with an optional sign.
-/

namespace IntervalRules

namespace Expression

abbrev Item := Except TokenError Token

/-- The next token. It is read before it is looked at, so an error in it comes first. -/
def head : List Item → Except ExpressionError Token
  | .ok token :: _ => .ok token
  | .error e :: _ => .error (.token e)
  | [] => .error .empty

/-- A number literal without a sign. -/
def magnitude (items : List Item) : Except ExpressionError (Binary64 × List Item) := do
  let token ← head items
  match token.kind with
  | .number literal => pure (literal.value, items.tail)
  | kind => throw (.unexpected .number kind token.span)

/-- A number literal with an optional sign. -/
def bound (items : List Item) : Except ExpressionError (Binary64 × List Item) := do
  let token ← head items
  match token.kind with
  | .minus =>
    let (value, rest) ← magnitude items.tail
    pure (-value, rest)
  | .plus => magnitude items.tail
  | _ => magnitude items

/-- The opening bracket of a clause, and whether it includes the lower bound. -/
def opener (items : List Item) : Except ExpressionError (Bool × Token × List Item) := do
  let token ← head items
  match token.kind with
  | .punctuation .openBracket => pure (true, token, items.tail)
  | .punctuation .openParen => pure (false, token, items.tail)
  | kind => throw (.unexpected .opener kind token.span)

/-- The lower bound with the comma after it; a missing one is negative infinity. -/
def lowerSide (items : List Item) : Except ExpressionError (Binary64 × List Item) := do
  let token ← head items
  if token.kind = .punctuation .comma then pure (.negInfinity, items.tail)
  else
    let (value, rest) ← bound items
    let token ← head rest
    if token.kind = .punctuation .comma then pure (value, rest.tail)
    else throw (.unexpected .comma token.kind token.span)

/-- The upper bound; a missing one is infinity. -/
def upperSide (items : List Item) : Except ExpressionError (Binary64 × List Item) := do
  let token ← head items
  if token.kind = .punctuation .closeParen ∨ token.kind = .punctuation .closeBracket then
    pure (.posInfinity, items)
  else bound items

/-- The closing bracket of a clause, and whether it includes the upper bound. -/
def closer (items : List Item) : Except ExpressionError (Bool × Token × List Item) := do
  let token ← head items
  match token.kind with
  | .punctuation .closeBracket => pure (true, token, items.tail)
  | .punctuation .closeParen => pure (false, token, items.tail)
  | kind => throw (.unexpected .closer kind token.span)

/-- One clause, number `index` of its expression. The token after it is read before its bounds
are compared, so an error in that token wins over bounds that are out of order. -/
def clause (index : Nat) (items : List Item) :
    Except ExpressionError (Interval × List Item) := do
  let (lowerInclusive, opening, rest) ← opener items
  let (lower, rest) ← lowerSide rest
  let (upper, rest) ← upperSide rest
  let (upperInclusive, closing, rest) ← closer rest
  let _ ← head rest
  let interval := ⟨lower, lowerInclusive, upper, upperInclusive⟩
  if lower.lt upper then pure (interval, rest)
  else throw (.order index interval ⟨opening.span.start, closing.span.stop⟩)

private theorem bind_eq_ok {α β ε : Type} {x : Except ε α} {f : α → Except ε β} {b : β}
    (h : x >>= f = .ok b) : ∃ a, x = .ok a ∧ f a = .ok b := by
  cases x with
  | error e => cases h
  | ok a => exact ⟨a, rfl, h⟩

theorem eq_cons_of_head {items : List Item} {token : Token} (h : head items = .ok token) :
    items = .ok token :: items.tail := by
  unfold head at h
  split at h
  · cases h
    rfl
  · cases h
  · cases h

theorem magnitude_suffix {items : List Item} {r : Binary64 × List Item}
    (h : magnitude items = .ok r) : r.2 <:+ items := by
  obtain ⟨token, -, h⟩ := bind_eq_ok h
  split at h
  · cases h
    exact List.tail_suffix items
  · cases h

theorem bound_suffix {items : List Item} {r : Binary64 × List Item} (h : bound items = .ok r) :
    r.2 <:+ items := by
  obtain ⟨token, -, h⟩ := bind_eq_ok h
  split at h
  · obtain ⟨m, hm, h⟩ := bind_eq_ok h
    cases h
    exact (magnitude_suffix hm).trans (List.tail_suffix items)
  · exact (magnitude_suffix h).trans (List.tail_suffix items)
  · exact magnitude_suffix h

theorem lowerSide_suffix {items : List Item} {r : Binary64 × List Item}
    (h : lowerSide items = .ok r) : r.2 <:+ items := by
  obtain ⟨token, -, h⟩ := bind_eq_ok h
  split at h
  · cases h
    exact List.tail_suffix items
  · obtain ⟨m, hm, h⟩ := bind_eq_ok h
    obtain ⟨token, -, h⟩ := bind_eq_ok h
    split at h
    · cases h
      exact (List.tail_suffix m.2).trans (bound_suffix hm)
    · cases h

theorem upperSide_suffix {items : List Item} {r : Binary64 × List Item}
    (h : upperSide items = .ok r) : r.2 <:+ items := by
  obtain ⟨token, -, h⟩ := bind_eq_ok h
  split at h
  · cases h
    exact List.suffix_rfl
  · exact bound_suffix h

theorem eq_cons_of_opener {items : List Item} {r : Bool × Token × List Item}
    (h : opener items = .ok r) : items = .ok r.2.1 :: r.2.2 := by
  obtain ⟨token, hhead, h⟩ := bind_eq_ok h
  split at h
  · cases h
    exact eq_cons_of_head hhead
  · cases h
    exact eq_cons_of_head hhead
  · cases h

theorem eq_cons_of_closer {items : List Item} {r : Bool × Token × List Item}
    (h : closer items = .ok r) : items = .ok r.2.1 :: r.2.2 := by
  obtain ⟨token, hhead, h⟩ := bind_eq_ok h
  split at h
  · cases h
    exact eq_cons_of_head hhead
  · cases h
    exact eq_cons_of_head hhead
  · cases h

/-- A clause takes its opening bracket and leaves a part of what follows it. -/
theorem exists_suffix_of_clause {index : Nat} {items : List Item} {r : Interval × List Item}
    (h : clause index items = .ok r) :
    ∃ opening rest, items = .ok opening :: rest ∧ r.2 <:+ rest := by
  obtain ⟨⟨_, opening, afterOpener⟩, ho, h⟩ := bind_eq_ok h
  obtain ⟨⟨_, afterLower⟩, hl, h⟩ := bind_eq_ok h
  obtain ⟨⟨_, afterUpper⟩, hu, h⟩ := bind_eq_ok h
  obtain ⟨⟨_, closing, afterCloser⟩, hc, h⟩ := bind_eq_ok h
  obtain ⟨token, -, h⟩ := bind_eq_ok h
  have closed : afterCloser <:+ afterUpper := ⟨[.ok closing], (eq_cons_of_closer hc).symm⟩
  refine ⟨opening, afterOpener, eq_cons_of_opener ho, ?_⟩
  dsimp only at *
  split at h
  · cases h
    exact closed.trans ((upperSide_suffix hu).trans (lowerSide_suffix hl))
  · cases h

theorem clause_length_lt {index : Nat} {items : List Item} {r : Interval × List Item}
    (h : clause index items = .ok r) : r.2.length < items.length := by
  obtain ⟨opening, rest, rfl, hrest⟩ := exists_suffix_of_clause h
  exact Nat.lt_succ_of_le hrest.length_le

/-- Clauses joined by `&`, the first of them number `index`. -/
def clauses (index : Nat) (items : List Item) :
    Except ExpressionError (List Interval × List Item) :=
  match _first : clause index items with
  | .error e => .error e
  | .ok r => do
    let token ← head r.2
    if token.kind = .punctuation .union then
      let (more, rest) ← clauses (index + 1) r.2.tail
      pure (r.1 :: more, rest)
    else pure ([r.1], r.2)
termination_by items.length
decreasing_by
  have := clause_length_lt _first
  simp only [List.length_tail]
  omega

theorem clauses_eq (index : Nat) (items : List Item) :
    clauses index items = (do
      let (interval, rest) ← clause index items
      let token ← head rest
      if token.kind = .punctuation .union then
        let (more, rest) ← clauses (index + 1) rest.tail
        pure (interval :: more, rest)
      else pure ([interval], rest)) := by
  rw [clauses.eq_def]
  split
  · rename_i first
    rw [first]
    rfl
  · rename_i first
    rw [first]
    rfl

/-- All clauses up to the end of the input. -/
def ofItems (items : List Item) : Except ExpressionError Expression := do
  let first ← head items
  if first.kind = .endOfInput then throw .empty
  else
    let (intervals, rest) ← clauses 0 items
    let token ← head rest
    if token.kind = .endOfInput then pure ⟨intervals⟩
    else throw (.unexpected .unionOrEnd token.kind token.span)

/-- Reads a range expression. -/
def parse (text : String) : Except ExpressionError Expression := ofItems (Token.items text)

end Expression

/-- Reads a text that holds one number literal with an optional sign and nothing else. -/
def parseNumber? (text : String) : Option Binary64 :=
  match Expression.bound (Token.items text) with
  | .error _ => none
  | .ok (value, rest) =>
    match Expression.head rest with
    | .error _ => none
    | .ok token => if token.kind = .endOfInput ∧ ¬ value.isNaN then some value else none

/-- Whether a number lies in a range expression given as text. -/
def isInRange (x : Binary64) (text : String) : Except ExpressionError Bool :=
  (Expression.parse text).map (·.contains x)

example :
    (Expression.parse "[ 0x0 , 0x10 ) & ( , -3 ]").toOption.map Expression.text =
      some "[0, 16) & (, -3]" := by decide +kernel

example : (parseNumber? "-1_000").map Binary64.text = some "-1000" := by decide +kernel

end IntervalRules
