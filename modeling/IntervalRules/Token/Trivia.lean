import IntervalRules.Token.Basic

/-!
Trivia between tokens: blank characters, line ends, `/* ... */` comments, which do not
nest, and `//` comments, which leave the character that ends their line.
-/

namespace IntervalRules.Token

/-- What follows the first `*/`, with its offset. -/
def afterBlock? (pos : Nat) : List Char → Option (Nat × List Char)
  | [] => none
  | '*' :: '/' :: rest => some (pos + 2, rest)
  | c :: rest => afterBlock? (pos + c.utf8Size) rest

/-- The rest of the text from the end of the line on, with its offset. -/
def afterLine (pos : Nat) : List Char → Nat × List Char
  | [] => (pos, [])
  | c :: rest =>
    if CharClass.isNewline c then (pos, c :: rest) else afterLine (pos + c.utf8Size) rest

theorem afterBlock?_length_le {pos : Nat} {cs : List Char} {r : Nat × List Char}
    (h : afterBlock? pos cs = some r) : r.2.length ≤ cs.length := by
  fun_induction afterBlock? pos cs with
  | case1 => simp at h
  | case2 pos rest =>
    cases h
    simp
    omega
  | case3 pos c rest _ ih => exact Nat.le_trans (ih h) (by simp)

theorem afterLine_length_le (pos : Nat) (cs : List Char) :
    (afterLine pos cs).2.length ≤ cs.length := by
  fun_induction afterLine pos cs with
  | case1 => simp
  | case2 => simp
  | case3 pos c rest _ ih => exact Nat.le_trans ih (by simp)

/-- Skips the trivia at the front. The result starts with the next token, or is empty. -/
def skipTrivia (pos : Nat) (cs : List Char) : Except TokenError (Nat × List Char) :=
  match cs with
  | '/' :: '*' :: rest =>
    match _found : afterBlock? (pos + 2) rest with
    | some r => skipTrivia r.1 r.2
    | none => .error (.unterminatedComment pos)
  | '/' :: '/' :: rest => skipTrivia (afterLine (pos + 2) rest).1 (afterLine (pos + 2) rest).2
  | c :: rest =>
    if CharClass.isSpace c || CharClass.isNewline c then skipTrivia (pos + c.utf8Size) rest
    else .ok (pos, c :: rest)
  | [] => .ok (pos, [])
termination_by cs.length
decreasing_by
  · have := afterBlock?_length_le _found
    simp
    omega
  · have := afterLine_length_le (pos + 2) rest
    simp
    omega
  · simp

theorem skipTrivia_length_le {pos : Nat} {cs : List Char} {r : Nat × List Char}
    (h : skipTrivia pos cs = .ok r) : r.2.length ≤ cs.length := by
  fun_induction skipTrivia pos cs with
  | case1 pos rest r' hr ih =>
    have := afterBlock?_length_le hr
    have := ih h
    simp
    omega
  | case2 => simp at h
  | case3 pos rest ih =>
    have := afterLine_length_le (pos + 2) rest
    have := ih h
    simp
    omega
  | case4 pos c rest _ _ _ ih =>
    have := ih h
    simp
    omega
  | case5 =>
    cases h
    simp
  | case6 =>
    cases h
    simp

end IntervalRules.Token
