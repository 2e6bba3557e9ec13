import IntervalRules.Proofs.Grammar

/-!
A finite machine for the beginnings of sentences. From `start` it gets to `done` exactly on
sentences (`run_eq_done_iff`), and it refuses a token exactly where no sentence goes on with
that token (`viable_iff`).
-/

namespace IntervalRules.Grammar

/-- The side of the comma on which a bound stands. -/
inductive Side where
  | lower
  | upper

/-- What has been read of a sentence. -/
inductive State where
  | start
  | side (s : Side)
  | signed (s : Side)
  | bounded (s : Side)
  | closed
  | done

/-- The state after the token that ends a side. -/
def Side.exit : Side → TokenKind → Option State
  | .lower, .punctuation .comma => some (.side .upper)
  | .upper, .punctuation .closeParen => some .closed
  | .upper, .punctuation .closeBracket => some .closed
  | _, _ => none

theorem Side.exit_cases {s : Side} {kind : TokenKind} {t : State}
    (h : s.exit kind = some t) :
    (s = .lower ∧ kind = .punctuation .comma ∧ t = .side .upper) ∨
      s = .upper ∧ (∃ j, kind = .punctuation (closerOf j)) ∧ t = .closed := by
  unfold Side.exit at h
  split at h
  · exact .inl ⟨rfl, rfl, (Option.some.inj h).symm⟩
  · exact .inr ⟨rfl, ⟨false, rfl⟩, (Option.some.inj h).symm⟩
  · exact .inr ⟨rfl, ⟨true, rfl⟩, (Option.some.inj h).symm⟩
  · cases h

theorem Side.exit_lower_eq_none {kind : TokenKind} (h : kind ≠ .punctuation .comma) :
    Side.lower.exit kind = none := by
  cases hexit : Side.lower.exit kind with
  | none => rfl
  | some t =>
    rcases Side.exit_cases hexit with ⟨-, rfl, -⟩ | ⟨hs, -⟩
    · exact absurd rfl h
    · cases hs

theorem Side.exit_upper_eq_none {kind : TokenKind} (h : ∀ j, kind ≠ .punctuation (closerOf j)) :
    Side.upper.exit kind = none := by
  cases hexit : Side.upper.exit kind with
  | none => rfl
  | some t =>
    rcases Side.exit_cases hexit with ⟨hs, -⟩ | ⟨-, ⟨j, rfl⟩, -⟩
    · cases hs
    · exact absurd rfl (h j)

namespace State

def step : State → TokenKind → Option State
  | .start, .punctuation .openParen => some (.side .lower)
  | .start, .punctuation .openBracket => some (.side .lower)
  | .side s, .minus => some (.signed s)
  | .side s, .plus => some (.signed s)
  | .side s, .number _ => some (.bounded s)
  | .side s, kind => s.exit kind
  | .signed s, .number _ => some (.bounded s)
  | .bounded s, kind => s.exit kind
  | .closed, .punctuation .union => some .start
  | .closed, .endOfInput => some .done
  | _, _ => none

def run (s : State) : List TokenKind → Option State
  | [] => some s
  | kind :: rest => (s.step kind).bind fun t => run t rest

theorem run_append (s : State) (front back : List TokenKind) :
    s.run (front ++ back) = (s.run front).bind fun t => t.run back := by
  induction front generalizing s with
  | nil => rfl
  | cons kind front ih =>
    simp only [List.cons_append, run]
    cases s.step kind <;> simp [ih]

/-- Running on from where a front has led. -/
theorem run_append_of_eq {s t : State} {front : List TokenKind} (h : s.run front = some t)
    (back : List TokenKind) : s.run (front ++ back) = t.run back := by
  rw [run_append, h, Option.bind_some]

/-! ## Phrases lead through the machine -/

theorem run_bound (s : Side) (b : Bound) : (side s).run b.kinds = some (bounded s) := by
  obtain ⟨_ | _ | _, _⟩ := b <;> rfl

theorem run_sideKinds (s : Side) (b : Option Bound) (p : Punctuation)
    (rest : List TokenKind) :
    (side s).run (sideKinds b ++ .punctuation p :: rest) =
      (s.exit (.punctuation p)).bind fun t => t.run rest := by
  rcases b with _ | ⟨_ | _ | _, _⟩ <;> rfl

theorem run_clause (c : Clause) (rest : List TokenKind) :
    start.run (c.kinds ++ rest) = closed.run rest := by
  obtain ⟨i, l, u, j⟩ := c
  simp only [Clause.kinds, List.cons_append, List.append_assoc, List.nil_append]
  have hopener : start.step (.punctuation (openerOf i)) = some (side .lower) := by
    cases i <;> rfl
  have hcloser : Side.upper.exit (.punctuation (closerOf j)) = some closed := by
    cases j <;> rfl
  rw [run, hopener, Option.bind_some, run_sideKinds]
  change (side .upper).run _ = _
  rw [run_sideKinds, hcloser, Option.bind_some]

theorem run_union (u : Union) (rest : List TokenKind) :
    start.run (u.kinds ++ rest) = closed.run rest := by
  obtain ⟨first, more⟩ := u
  induction more generalizing first with
  | nil => simpa [Union.kinds] using run_clause first rest
  | cons c more ih =>
    rw [Union.kinds_cons, List.append_assoc, run_clause]
    exact ih c

theorem run_ahead (earlier : List Clause) (rest : List TokenKind) :
    start.run (ahead earlier ++ rest) = start.run rest := by
  induction earlier with
  | nil => rfl
  | cons c earlier ih =>
    rw [ahead_cons, run_clause]
    exact ih

/-! ## Accepting runs are sentences -/

/-- Between a side and the end stand a bound or nothing, and the token that ends the side. -/
theorem exists_side_of_run {s : Side} {kinds : List TokenKind}
    (h : (side s).run kinds = some done) :
    ∃ b kind rest t, kinds = sideKinds b ++ kind :: rest ∧ s.exit kind = some t ∧
      t.run rest = some done := by
  have bounded_run (l : List TokenKind) (hl : (bounded s).run l = some done) :
      ∃ kind rest t, l = kind :: rest ∧ s.exit kind = some t ∧ t.run rest = some done := by
    cases l with
    | nil => cases hl
    | cons kind rest =>
      obtain ⟨t, hstep, hrest⟩ := Option.bind_eq_some_iff.mp hl
      exact ⟨kind, rest, t, rfl, hstep, hrest⟩
  have signed_run (l : List TokenKind) (hl : (signed s).run l = some done) :
      ∃ x kind rest t, l = .number x :: kind :: rest ∧ s.exit kind = some t ∧
        t.run rest = some done := by
    cases l with
    | nil => cases hl
    | cons k l =>
      cases k with
      | number x =>
        obtain ⟨kind, rest, t, rfl, hexit⟩ := bounded_run l hl
        exact ⟨x, kind, rest, t, rfl, hexit⟩
      | _ => cases hl
  cases kinds with
  | nil => cases h
  | cons k l =>
    cases k with
    | minus =>
      obtain ⟨x, kind, rest, t, rfl, hexit⟩ := signed_run l h
      exact ⟨some ⟨some .minus, x⟩, kind, rest, t, rfl, hexit⟩
    | plus =>
      obtain ⟨x, kind, rest, t, rfl, hexit⟩ := signed_run l h
      exact ⟨some ⟨some .plus, x⟩, kind, rest, t, rfl, hexit⟩
    | number x =>
      obtain ⟨kind, rest, t, rfl, hexit⟩ := bounded_run l h
      exact ⟨some ⟨none, x⟩, kind, rest, t, rfl, hexit⟩
    | punctuation p =>
      obtain ⟨t, hstep, hrest⟩ := Option.bind_eq_some_iff.mp h
      exact ⟨none, .punctuation p, l, t, rfl, hstep, hrest⟩
    | endOfInput =>
      obtain ⟨t, hstep, hrest⟩ := Option.bind_eq_some_iff.mp h
      exact ⟨none, .endOfInput, l, t, rfl, hstep, hrest⟩

theorem exists_clause_of_run {kinds : List TokenKind} (h : start.run kinds = some done) :
    ∃ (c : Clause) (rest : List TokenKind),
      kinds = c.kinds ++ rest ∧ closed.run rest = some done := by
  have opened (l : List TokenKind) (i : Bool) (hl : (side .lower).run l = some done) :
      ∃ (c : Clause) (rest : List TokenKind),
        .punctuation (openerOf i) :: l = c.kinds ++ rest ∧ closed.run rest = some done := by
    obtain ⟨lower, _, l', _, rfl, hexit, hl'⟩ := exists_side_of_run hl
    rcases Side.exit_cases hexit with ⟨-, rfl, rfl⟩ | ⟨hs, -⟩
    · obtain ⟨upper, _, rest, _, rfl, hexit, hrest⟩ := exists_side_of_run hl'
      rcases Side.exit_cases hexit with ⟨hs, -⟩ | ⟨-, ⟨j, rfl⟩, rfl⟩
      · cases hs
      · exact ⟨⟨i, lower, upper, j⟩, rest, by simp [Clause.kinds], hrest⟩
    · cases hs
  cases kinds with
  | nil => cases h
  | cons k l =>
    cases k with
    | punctuation p =>
      cases p with
      | openParen => exact opened l false h
      | openBracket => exact opened l true h
      | _ => cases h
    | _ => cases h

theorem sentence_of_run (kinds : List TokenKind) (h : start.run kinds = some done) :
    Sentence kinds := by
  obtain ⟨c, rest, hkinds, hrest⟩ := exists_clause_of_run h
  cases rest with
  | nil => cases hrest
  | cons k l =>
    cases k with
    | punctuation p =>
      cases p with
      | union =>
        have : l.length < kinds.length := by simp [hkinds]; omega
        obtain ⟨⟨d, more⟩, hl⟩ := sentence_of_run l hrest
        refine ⟨⟨c, d :: more⟩, ?_⟩
        rw [Union.kinds_cons, List.append_assoc, List.cons_append, ← hl, hkinds]
      | _ => cases hrest
    | endOfInput =>
      cases l with
      | nil => exact ⟨⟨c, []⟩, by simpa [Union.kinds] using hkinds⟩
      | cons k l => cases hrest
    | _ => cases hrest
termination_by kinds.length

/-- The machine accepts exactly the sentences. -/
theorem run_eq_done_iff (kinds : List TokenKind) :
    start.run kinds = some done ↔ Sentence kinds := by
  constructor
  · exact sentence_of_run kinds
  · rintro ⟨u, rfl⟩
    rw [run_union]
    rfl

/-! ## The machine runs exactly on viable prefixes -/

/-- A shortest way to the end from each state, with the number zero where one is needed. -/
def completion : State → List TokenKind
  | .start => [.punctuation .openParen, .punctuation .comma, .punctuation .closeParen, .endOfInput]
  | .side .lower => [.punctuation .comma, .punctuation .closeParen, .endOfInput]
  | .side .upper => [.punctuation .closeParen, .endOfInput]
  | .signed .lower =>
    [.number (.number .zero), .punctuation .comma, .punctuation .closeParen, .endOfInput]
  | .signed .upper => [.number (.number .zero), .punctuation .closeParen, .endOfInput]
  | .bounded .lower => [.punctuation .comma, .punctuation .closeParen, .endOfInput]
  | .bounded .upper => [.punctuation .closeParen, .endOfInput]
  | .closed => [.endOfInput]
  | .done => []

theorem run_completion (s : State) : s.run s.completion = some done := by
  rcases s with _ | s | s | s | _ | _ <;> first | rfl | cases s <;> rfl

end State

/-- Tokens begin a sentence exactly if the machine does not refuse one of them. -/
theorem viable_iff (kinds : List TokenKind) :
    Viable kinds ↔ ∃ s, State.start.run kinds = some s := by
  constructor
  · rintro ⟨rest, hrest⟩
    rw [← State.run_eq_done_iff, State.run_append] at hrest
    obtain ⟨s, hs, -⟩ := Option.bind_eq_some_iff.mp hrest
    exact ⟨s, hs⟩
  · rintro ⟨s, hs⟩
    refine ⟨s.completion, ?_⟩
    rw [← State.run_eq_done_iff, State.run_append_of_eq hs]
    exact s.run_completion

end IntervalRules.Grammar
