import IntervalRules.Expression.Parse

/-!
The grammar of range expressions over kinds of tokens:

* an expression is `clause ("&" clause)*`, and a sentence has the end of the input after it;
* a clause is `("(" | "[") bound? "," bound? (")" | "]")`;
* a bound is `("-" | "+")? NUMBER`.

A phrase is given as its syntax tree. `kinds` writes the tree out, and `value` and `interval`
are what it denotes. No two trees are written alike (`Clause.kinds_append_inj`,
`ahead_append_inj`), so the clause with a given number is the same in every reading.
-/

namespace IntervalRules.Grammar

inductive Sign where
  | minus
  | plus

def Sign.kind : Sign → TokenKind
  | .minus => .minus
  | .plus => .plus

/-- A number with an optional sign. -/
structure Bound where
  sign : Option Sign
  literal : Literal

def Bound.kinds (b : Bound) : List TokenKind :=
  (b.sign.map Sign.kind).toList ++ [.number b.literal]

/-- The literal's number, negated exactly if a minus sign precedes it. -/
def Bound.value (b : Bound) : Binary64 :=
  match b.sign with
  | some .minus => -b.literal.value
  | some .plus | none => b.literal.value

/-- A bound or nothing. -/
def sideKinds : Option Bound → List TokenKind
  | none => []
  | some b => b.kinds

def openerOf (inclusive : Bool) : Punctuation := if inclusive then .openBracket else .openParen

def closerOf (inclusive : Bool) : Punctuation := if inclusive then .closeBracket else .closeParen

structure Clause where
  lowerInclusive : Bool
  lower : Option Bound
  upper : Option Bound
  upperInclusive : Bool

namespace Clause

def kinds (c : Clause) : List TokenKind :=
  .punctuation (openerOf c.lowerInclusive) ::
    (sideKinds c.lower ++ .punctuation .comma ::
      (sideKinds c.upper ++ [.punctuation (closerOf c.upperInclusive)]))

/-- The interval that a clause denotes; a side without a bound is infinite. -/
def interval (c : Clause) : Interval where
  lower := (c.lower.map Bound.value).getD .negInfinity
  lowerInclusive := c.lowerInclusive
  upper := (c.upper.map Bound.value).getD .posInfinity
  upperInclusive := c.upperInclusive

/-- Whether the lower bound is less than the upper one. -/
def Ordered (c : Clause) : Prop := c.interval.lower.lt c.interval.upper = true

instance (c : Clause) : Decidable c.Ordered := inferInstanceAs (Decidable (_ = true))

end Clause

/-- One clause, and any number of further clauses with `&` before each. -/
structure Union where
  first : Clause
  rest : List Clause

namespace Union

def clauses (u : Union) : List Clause := u.first :: u.rest

def kinds (u : Union) : List TokenKind :=
  u.first.kinds ++ u.rest.flatMap fun c => .punctuation .union :: c.kinds

theorem kinds_cons (c d : Clause) (rest : List Clause) :
    (Union.mk c (d :: rest)).kinds = c.kinds ++ .punctuation .union :: (Union.mk d rest).kinds := by
  simp [kinds]

end Union

/-- A whole token sequence of the grammar. -/
def Sentence (kinds : List TokenKind) : Prop := ∃ u : Union, kinds = u.kinds ++ [.endOfInput]

/-- A beginning of a sentence. -/
def Viable (kinds : List TokenKind) : Prop := ∃ rest, Sentence (kinds ++ rest)

theorem Viable.of_append {front back : List TokenKind} (h : Viable (front ++ back)) :
    Viable front := by
  obtain ⟨rest, hrest⟩ := h
  exact ⟨back ++ rest, by rwa [List.append_assoc] at hrest⟩

/-- Clauses with `&` after each. -/
def ahead (earlier : List Clause) : List TokenKind :=
  earlier.flatMap fun c => c.kinds ++ [.punctuation .union]

theorem ahead_cons (c : Clause) (earlier : List Clause) (kinds : List TokenKind) :
    ahead (c :: earlier) ++ kinds = c.kinds ++ .punctuation .union :: (ahead earlier ++ kinds) := by
  simp [ahead]

theorem openerOf_inj {a b : Bool} (h : openerOf a = openerOf b) : a = b := by
  cases a <;> cases b <;> simp_all [openerOf]

theorem closerOf_inj {a b : Bool} (h : closerOf a = closerOf b) : a = b := by
  cases a <;> cases b <;> simp_all [closerOf]

/-- A side ends where a punctuation mark stands. -/
theorem sideKinds_append_inj {a b : Option Bound} {p q : Punctuation} {r s : List TokenKind}
    (h : sideKinds a ++ .punctuation p :: r = sideKinds b ++ .punctuation q :: s) :
    a = b ∧ p = q ∧ r = s := by
  rcases a with _ | ⟨_ | _ | _, _⟩ <;> rcases b with _ | ⟨_ | _ | _, _⟩ <;>
    simp_all [sideKinds, Bound.kinds, Sign.kind]

theorem Clause.kinds_append_inj {c d : Clause} {r s : List TokenKind}
    (h : c.kinds ++ r = d.kinds ++ s) : c = d ∧ r = s := by
  obtain ⟨ci, cl, cu, cj⟩ := c
  obtain ⟨di, dl, du, dj⟩ := d
  simp only [kinds, List.cons_append, List.append_assoc, List.nil_append, List.cons.injEq,
    TokenKind.punctuation.injEq] at h
  obtain ⟨hopener, h⟩ := h
  obtain ⟨rfl, -, h⟩ := sideKinds_append_inj h
  obtain ⟨rfl, hcloser, rfl⟩ := sideKinds_append_inj h
  rw [openerOf_inj hopener, closerOf_inj hcloser]
  exact ⟨rfl, rfl⟩

/-- The clause with a given number, and those before it, are determined by the tokens. -/
theorem ahead_append_inj {before before' : List Clause} {c c' : Clause} {r r' : List TokenKind}
    (hlength : before.length = before'.length)
    (h : ahead before ++ (c.kinds ++ r) = ahead before' ++ (c'.kinds ++ r')) :
    before = before' ∧ c = c' ∧ r = r' := by
  induction before generalizing before' with
  | nil =>
    obtain rfl : before' = [] := List.length_eq_zero_iff.mp hlength.symm
    exact ⟨rfl, Clause.kinds_append_inj h⟩
  | cons d before ih =>
    cases before' with
    | nil => simp at hlength
    | cons d' before' =>
      rw [ahead_cons, ahead_cons] at h
      obtain ⟨rfl, htail⟩ := Clause.kinds_append_inj h
      obtain ⟨rfl, hrest⟩ := ih (by simpa using hlength) (List.cons.inj htail).2
      exact ⟨rfl, hrest⟩

end IntervalRules.Grammar
