import IntervalRules.Proofs.Display
import IntervalRules.Proofs.NumberText

/-!
Clauses written around the texts of their bounds. A text that is read as a number is the same bound
in a clause, whatever it holds around the number, once a line end closes it; trivia alone is no
bound. So the clause is the interval of its two numbers, or is out of order exactly if they are.
-/

namespace IntervalRules

open Text (byteLength byteLength_append)

namespace Token

open Grammar (Bound sideKinds)

/-! ## Sides -/

/-- The characters are one side of a clause wherever they stand: up to the punctuation mark directly
after them, the tokens are those of the bound, or there are none. -/
def IsSide (b : Option Bound) (cs : List Char) : Prop :=
  ∀ (pos : Nat) (p : Punctuation) (rest : List Char), ∃ (tokens : List Token) (mark : Token),
    tokens.map kind = sideKinds b ∧ mark.kind = .punctuation p ∧
      Reads pos (cs ++ p.char :: rest) (tokens ++ [mark]) (pos + byteLength cs + 1) rest

theorem exists_reads_punctuation {gap : List Char} (hgap : Trivia gap) (pos : Nat)
    (p : Punctuation) (rest : List Char) :
    ∃ mark : Token, mark.kind = .punctuation p ∧ mark.span.start = pos + byteLength gap ∧
      Reads pos (gap ++ p.char :: rest) [mark] (pos + byteLength gap + 1) rest := by
  have hscan := scan_of_lexeme (.punctuation p) (show Delimited _ _ rest from nofun)
    (pos + byteLength gap)
  have hlength : byteLength [p.char] = 1 := by cases p <;> rfl
  rw [← scan_append_trivia hgap, hlength, List.singleton_append] at hscan
  exact ⟨_, rfl, rfl, .token hscan nofun (.nil _ rest)⟩

theorem isSide_nil : IsSide none [] := by
  intro pos p rest
  obtain ⟨mark, hkind, -, hreads⟩ := exists_reads_punctuation .nil pos p rest
  exact ⟨[], mark, rfl, hkind, hreads⟩

/-- The line end closes a comment that the text may end in. -/
theorem isSide_newline {b : Option Bound} {cs : List Char}
    (h : kinds cs = (sideKinds b ++ [TokenKind.endOfInput]).map some) :
    IsSide b (cs ++ ['\n']) := by
  intro pos p rest
  obtain ⟨tokens, pos', tail, hreads, htail⟩ := exists_reads_of_kinds (none_not_mem_kinds h) pos
  have htokens : tokens.map kind = sideKinds b := by
    have hkinds := hreads.kinds_eq
    rw [h, kinds_of_endTrivia htail, List.map_append, List.map_singleton] at hkinds
    have hmap : (sideKinds b).map some = (tokens.map kind).map some := by
      rw [List.map_map]
      exact List.append_cancel_right hkinds
    exact (List.map_injective_iff.2 (Option.some_injective _) hmap).symm
  have hnewline : CharClass.isNewline '\n' = true := by decide
  have hgap : Trivia (tail ++ ['\n']) := htail.append_newline hnewline
  obtain ⟨front, rfl, rfl, hreads'⟩ := hreads.replace (keepsEnds_newline hnewline tail
    (p.char :: rest))
  obtain ⟨mark, hkind, -, hmark⟩ := exists_reads_punctuation hgap (pos + byteLength front) p rest
  refine ⟨tokens, mark, htokens, hkind, ?_⟩
  rw [List.append_assoc, List.singleton_append] at hmark
  have hlength : pos + byteLength (front ++ tail ++ ['\n']) + 1 =
      pos + byteLength front + byteLength (tail ++ ['\n']) + 1 := by
    simp only [byteLength_append]
    omega
  rw [hlength]
  simpa using hreads'.append hmark

end Token

/-! ## Clauses -/

/-- The text of a clause with its sides as they are written. -/
def clauseText (lowerInclusive : Bool) (lower upper : String) (upperInclusive : Bool) : String :=
  (if lowerInclusive then "[" else "(") ++ lower ++ "," ++ upper ++
    (if upperInclusive then "]" else ")")

namespace Grammar

open Token (IsSide)

variable {c : Clause} {lower upper : String}

/-- The tokens of a clause take up the whole of its text. -/
theorem exists_items_clauseText (hlower : IsSide c.lower lower.toList)
    (hupper : IsSide c.upper upper.toList) :
    ∃ (tokens : List Token) (last : Token),
      Token.items (clauseText c.lowerInclusive lower upper c.upperInclusive) =
        tokens.map .ok ++ [.ok last] ∧ last.kind = .endOfInput ∧
      IsClause tokens c
        ⟨0, byteLength (clauseText c.lowerInclusive lower upper c.upperInclusive).toList⟩ := by
  have htext : (clauseText c.lowerInclusive lower upper c.upperInclusive).toList =
      (openerOf c.lowerInclusive).char :: (lower.toList ++ Punctuation.comma.char ::
        (upper.toList ++ [(closerOf c.upperInclusive).char])) := by
    simp [clauseText, toList_opener, toList_closer, Punctuation.char]
  obtain ⟨opening, hopening, hstart, hopener⟩ :=
    Token.exists_reads_punctuation .nil 0 (openerOf c.lowerInclusive) (lower.toList ++
      Punctuation.comma.char :: (upper.toList ++ [(closerOf c.upperInclusive).char]))
  obtain ⟨before, comma, hbefore, hcomma, hlower⟩ := hlower _ .comma
    (upper.toList ++ [(closerOf c.upperInclusive).char])
  obtain ⟨after, closing, hafter, hclosing, hupper⟩ := hupper _ (closerOf c.upperInclusive) []
  have hreads := (hopener.append hlower).append hupper
  rw [List.nil_append, ← htext, ← List.append_assoc] at hreads
  have hstop := hreads.stop_eq
  obtain ⟨front, hfront, hlength⟩ := hreads.exists_front
  rw [List.append_nil] at hfront
  rw [← hfront] at hlength
  have hlength := hlength.trans (Nat.zero_add _)
  have hend := Token.scan_of_endTrivia (.inl .nil)
    (byteLength (clauseText c.lowerInclusive lower upper c.upperInclusive).toList)
  have hclause := IsClause.of_parts hopening hbefore hcomma hafter hclosing
  rw [hstart, hstop, hlength] at hclause
  have hitems := hreads.itemsFrom_eq
  rw [hlength, Token.itemsFrom_of_scan_end hend rfl, ← Token.items] at hitems
  refine ⟨_, _, hitems, rfl, ?_⟩
  simpa [byteLength] using hclause

/-- The clause is read as its interval, or is out of order. -/
theorem parse_clauseText (hlower : IsSide c.lower lower.toList)
    (hupper : IsSide c.upper upper.toList) :
    Expression.parse (clauseText c.lowerInclusive lower upper c.upperInclusive) =
      if c.Ordered then .ok ⟨[c.interval]⟩
      else .error (.order 0 c.interval
        ⟨0, byteLength (clauseText c.lowerInclusive lower upper c.upperInclusive).toList⟩) := by
  obtain ⟨tokens, last, hitems, hlast, hclause⟩ := exists_items_clauseText hlower hupper
  rw [Expression.parse, hitems]
  by_cases hordered : c.Ordered
  · have hkinds : (tokens ++ [last]).map Token.kind = (Union.mk c []).kinds ++ [.endOfInput] := by
      simp [Union.kinds, hclause.kinds, hlast]
    have hread := ofItems_of_sentence (u := ⟨c, []⟩) (List.forall_mem_singleton.2 hordered) hkinds
    rw [if_pos hordered]
    rwa [List.map_append] at hread
  · have hmisordered : Misordered (tokens.map .ok ++ [.ok last]) [] c
        ⟨0, byteLength (clauseText c.lowerInclusive lower upper c.upperInclusive).toList⟩ :=
      ⟨⟨[], tokens, last, [], rfl, rfl, hclause⟩, List.forall_mem_nil _, hordered⟩
    exact hmisordered.ofItems_eq.trans (if_neg hordered).symm

end Grammar

/-! ## Membership -/

theorem Binary64.le_iff (x y : Binary64) :
    x.le y = true ↔ x.lt y = true ∨ x.eq y = true := by
  unfold le lt eq compares
  split
  · simp only [decide_eq_true_eq, beq_iff_eq]
    exact Int.le_iff_lt_or_eq
  · simp

namespace Interval

variable (i : Interval) (v : Binary64)

theorem admitsBelow_iff :
    i.admitsBelow v = true ↔ i.lower = .negInfinity ∨ i.lower.lt v = true ∨
      i.lower.eq v = true ∧ i.lowerInclusive = true := by
  cases hinclusive : i.lowerInclusive <;>
    simp [admitsBelow, isLowerUnbounded, hinclusive, Binary64.le_iff]

theorem admitsAbove_iff :
    i.admitsAbove v = true ↔ i.upper = .posInfinity ∨ v.lt i.upper = true ∨
      v.eq i.upper = true ∧ i.upperInclusive = true := by
  cases hinclusive : i.upperInclusive <;>
    simp [admitsAbove, isUpperUnbounded, hinclusive, Binary64.le_iff]

theorem contains_nan : i.contains .nan = false := by
  simp [contains, Binary64.isNaN]

theorem contains_of_not_isNaN (h : v.isNaN = false) :
    i.contains v = (i.admitsBelow v && i.admitsAbove v) := by
  rw [contains, h, Bool.not_false, Bool.true_and]

end Interval

theorem Expression.contains_singleton (i : Interval) (v : Binary64) :
    Expression.contains ⟨[i]⟩ v = i.contains v := by
  rw [contains, List.any_cons, List.any_nil, Bool.or_false]

/-! ## Bound texts -/

/-- The text stands for a bound of a clause: it is read as the number, or it is trivia, such as
blanks, and leaves the side unbounded. -/
def IsBoundText (unbounded : Binary64) (text : String) (x : Binary64) : Prop :=
  parseNumber? text = some x ∨ Token.EndTrivia text.toList ∧ x = unbounded

/-- Blanks leave a side unbounded. -/
theorem IsBoundText.of_blanks {unbounded : Binary64} {text : String}
    (h : text.toList.all Token.isBlank = true) : IsBoundText unbounded text unbounded := by
  have htrivia {cs : List Char} (hcs : ∀ c ∈ cs, Token.isBlank c = true) : Token.Trivia cs := by
    induction cs with
    | nil => exact .nil
    | cons c cs ih => exact .blank (hcs c (by simp)) (ih fun d hd => hcs d (by simp [hd]))
  exact .inr ⟨.inl (htrivia (List.all_eq_true.1 h)), rfl⟩

theorem IsBoundText.exists_isSide {unbounded x : Binary64} {text : String}
    (h : IsBoundText unbounded text x) :
    ∃ b : Option Grammar.Bound, Token.IsSide b (text ++ "\n").toList ∧
      (b.map Grammar.Bound.value).getD unbounded = x := by
  rw [String.toList_append]
  rcases h with hnumber | ⟨htrivia, rfl⟩
  · obtain ⟨-, b, hvalue, hkinds⟩ := (parseNumber?_eq_some_iff text x).1 hnumber
    exact ⟨some b, Token.isSide_newline hkinds, hvalue⟩
  · exact ⟨none, Token.isSide_newline (Token.kinds_of_endTrivia htrivia), rfl⟩

/-- Texts that are read as numbers are the same bounds in a clause. The clause is the interval of
the two numbers if they are in order, and otherwise an error that shows the interval and spans the
whole text. -/
theorem parse_bound_texts {lower upper : String} {x y : Binary64}
    (hlower : IsBoundText .negInfinity lower x) (hupper : IsBoundText .posInfinity upper y)
    (lowerInclusive upperInclusive : Bool) :
    let text := clauseText lowerInclusive (lower ++ "\n") (upper ++ "\n") upperInclusive
    let interval : Interval := ⟨x, lowerInclusive, y, upperInclusive⟩
    (x.lt y = true → Expression.parse text = .ok ⟨[interval]⟩ ∧ isInRange .nan text = .ok false ∧
      ∀ v : Binary64, v.isNaN = false → ∃ inside, isInRange v text = .ok inside ∧
        (inside = true ↔
          (x = .negInfinity ∨ x.lt v = true ∨ x.eq v = true ∧ lowerInclusive = true) ∧
          (y = .posInfinity ∨ v.lt y = true ∨ v.eq y = true ∧ upperInclusive = true))) ∧
    (x.lt y = false → ∃ e, Expression.parse text = .error e ∧
      e = .order 0 interval ⟨0, byteLength text.toList⟩ ∧
      e.message = "Range Error at 0 for " ++ interval.text) := by
  intro text interval
  obtain ⟨l, hl, hx⟩ := hlower.exists_isSide
  obtain ⟨u, hu, hy⟩ := hupper.exists_isSide
  let c : Grammar.Clause := ⟨lowerInclusive, l, u, upperInclusive⟩
  have hinterval : c.interval = interval := by
    simp only [c, interval, Grammar.Clause.interval, hx, hy]
  have hparse := Grammar.parse_clauseText (c := c) hl hu
  have hiff : c.Ordered ↔ x.lt y = true := by
    rw [Grammar.Clause.Ordered, hinterval]
  rw [hinterval] at hparse
  constructor
  · intro hordered
    rw [if_pos (hiff.2 hordered)] at hparse
    have hrange (v : Binary64) : isInRange v text = .ok (interval.contains v) := by
      rw [isInRange, hparse, Except.map, Expression.contains_singleton]
    refine ⟨hparse, by rw [hrange, Interval.contains_nan], fun v hv => ⟨_, hrange v, ?_⟩⟩
    rw [Interval.contains_of_not_isNaN _ _ hv, Bool.and_eq_true, Interval.admitsBelow_iff,
      Interval.admitsAbove_iff]
  · intro hordered
    rw [if_neg (mt hiff.1 (Bool.eq_false_iff.1 hordered))] at hparse
    exact ⟨_, hparse, rfl, rfl⟩

/-- A negative lower bound with a comment after it and a wide blank for the upper one, and a lower
bound that overflows. -/
theorem parse_bound_texts_comment :
    Expression.parse "[- 0x10 // low\n,\u3000\n)" =
        .ok ⟨[⟨-.ofNat 16, true, .posInfinity, false⟩]⟩ ∧
      isInRange (-.ofNat 16) "[- 0x10 // low\n,\u3000\n)" = .ok true ∧
      ∃ e, Expression.parse "(1e999\n,- 0x10 // low\n]" = .error e ∧
        e = .order 0 ⟨.posInfinity, false, -.ofNat 16, true⟩ ⟨0, 23⟩ := by
  have hnumber : parseNumber? "- 0x10 // low" = some (-.ofNat 16) := by
    decide +kernel
  have hblank : IsBoundText .posInfinity "\u3000" .posInfinity := .of_blanks (by decide)
  have hordered : (-Binary64.ofNat 16).lt .posInfinity = true := by
    decide +kernel
  have hclosed : (-Binary64.ofNat 16).eq (-.ofNat 16) = true := by
    decide +kernel
  have hoverflow : parseNumber? "1e999" = some .posInfinity := by
    decide +kernel
  have hmisordered : Binary64.posInfinity.lt (-.ofNat 16) = false := by
    decide +kernel
  obtain ⟨hparse, -, hrange⟩ := (parse_bound_texts (.inl hnumber) hblank true false).1 hordered
  obtain ⟨inside, hinside, hiff⟩ := hrange (-.ofNat 16) (by decide +kernel)
  rw [hiff.2 ⟨.inr (.inr ⟨hclosed, rfl⟩), .inl rfl⟩] at hinside
  obtain ⟨e, herror, he, -⟩ :=
    (parse_bound_texts (.inl hoverflow) (.inl hnumber) false true).2 hmisordered
  exact ⟨hparse, hinside, e, herror, he⟩

end IntervalRules
