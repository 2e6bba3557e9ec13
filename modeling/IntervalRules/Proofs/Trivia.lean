import IntervalRules.Token.Trivia

/-!
What may be skipped between tokens: blank characters, line ends, block comments and line comments
with their line ends. Skipping passes over exactly such a text. At the end of the input it also
passes over a line comment whose line does not end, and a block comment that does not end is the
error.
-/

namespace IntervalRules.Token

open Text (byteLength byteLength_append)

/-- Whether a character is skipped on its own. -/
def isBlank (c : Char) : Bool := CharClass.isSpace c || CharClass.isNewline c

/-- The characters of a line after its `//`. -/
def InLine (body : List Char) : Prop := ∀ c ∈ body, CharClass.isNewline c = false

/-- The characters of a block comment after its `/*`, up to its end. -/
def InBlock (body : List Char) : Prop := ¬ ['*', '/'] <:+: body

/-- A text that stands between tokens and means nothing. -/
inductive Trivia : List Char → Prop
  | nil : Trivia []
  | blank {c : Char} {rest : List Char} (hc : isBlank c = true) :
      Trivia rest → Trivia (c :: rest)
  | block {body rest : List Char} (hbody : InBlock body) :
      Trivia rest → Trivia ('/' :: '*' :: (body ++ '*' :: '/' :: rest))
  | line {body rest : List Char} {newline : Char} (hbody : InLine body)
      (hnewline : CharClass.isNewline newline = true) :
      Trivia rest → Trivia ('/' :: '/' :: (body ++ newline :: rest))

/-- Trivia up to the end of the input, where the last line need not end. -/
def EndTrivia (cs : List Char) : Prop :=
  Trivia cs ∨ ∃ front body, Trivia front ∧ InLine body ∧ cs = front ++ '/' :: '/' :: body

theorem isBlank_slash : isBlank '/' = false := by decide

theorem isBlank_of_newline {c : Char} (h : CharClass.isNewline c = true) : isBlank c = true := by
  rw [isBlank, h, Bool.or_true]

theorem Trivia.append {front back : List Char} (hfront : Trivia front) (hback : Trivia back) :
    Trivia (front ++ back) := by
  induction hfront with
  | nil => exact hback
  | blank hc _ ih => exact .blank hc ih
  | block hbody _ ih =>
    rw [List.cons_append, List.cons_append, List.append_assoc]
    exact .block hbody ih
  | line hbody hnewline _ ih =>
    rw [List.cons_append, List.cons_append, List.append_assoc]
    exact .line hbody hnewline ih

/-- A line end closes the line that the end of the input left open. -/
theorem EndTrivia.append_newline {cs : List Char} (h : EndTrivia cs) {newline : Char}
    (hnewline : CharClass.isNewline newline = true) : Trivia (cs ++ [newline]) := by
  rcases h with h | ⟨front, body, hfront, hbody, rfl⟩
  · exact h.append (.blank (isBlank_of_newline hnewline) .nil)
  · rw [List.append_assoc]
    exact hfront.append (.line hbody hnewline .nil)

/-! ## Comments -/

theorem InBlock.tail {c : Char} {body : List Char} (h : InBlock (c :: body)) : InBlock body :=
  fun hinside => h (hinside.trans (List.suffix_cons c body).isInfix)

theorem afterBlock?_cons {c : Char} {rest : List Char}
    (h : c = '*' → rest.head? ≠ some '/') (pos : Nat) :
    afterBlock? pos (c :: rest) = afterBlock? (pos + c.utf8Size) rest := by
  rw [afterBlock?.eq_def]
  split
  · rename_i heq
    cases heq
  · rename_i heq
    cases heq
    exact absurd rfl (h rfl)
  · rename_i heq
    cases heq
    rfl

theorem InBlock.head?_ne {body rest : List Char} (h : InBlock ('*' :: body)) :
    (body ++ '*' :: '/' :: rest).head? ≠ some '/' := by
  intro hhead
  cases body with
  | nil => cases hhead
  | cons d body =>
    cases hhead
    exact h ⟨[], body, rfl⟩

/-- A block comment goes to its first `*/`. -/
theorem afterBlock?_append {body : List Char} (h : InBlock body) (pos : Nat) (rest : List Char) :
    afterBlock? pos (body ++ '*' :: '/' :: rest) = some (pos + byteLength body + 2, rest) := by
  induction body generalizing pos with
  | nil => rfl
  | cons c body ih =>
    rw [List.cons_append, afterBlock?_cons _ pos, ih h.tail, byteLength, Nat.add_assoc pos]
    rintro rfl
    exact h.head?_ne

theorem afterBlock?_eq_some {pos : Nat} {cs : List Char} {r : Nat × List Char}
    (h : afterBlock? pos cs = some r) :
    ∃ body, InBlock body ∧ cs = body ++ '*' :: '/' :: r.2 := by
  fun_induction afterBlock? pos cs with
  | case1 => cases h
  | case2 pos rest =>
    cases h
    exact ⟨[], by simp [InBlock], rfl⟩
  | case3 pos c rest hclose ih =>
    obtain ⟨body, hbody, rfl⟩ := ih h
    refine ⟨c :: body, ?_, rfl⟩
    rw [InBlock, List.infix_cons_iff]
    rintro (hhead | hinside)
    · obtain ⟨more, hmore⟩ := hhead
      cases body with
      | nil => cases hmore
      | cons d body =>
        cases hmore
        exact hclose _ rfl rfl
    · exact hbody hinside

theorem afterBlock?_eq_none {pos : Nat} {cs : List Char} (h : afterBlock? pos cs = none) :
    InBlock cs := by
  fun_induction afterBlock? pos cs with
  | case1 => simp [InBlock]
  | case2 => cases h
  | case3 pos c rest hclose ih =>
    rw [InBlock, List.infix_cons_iff]
    rintro (⟨more, hmore⟩ | hinside)
    · cases hmore
      exact hclose _ rfl rfl
    · exact ih h hinside

/-- A line comment goes up to the character that ends its line. -/
theorem afterLine_append {body : List Char} (h : InLine body) {newline : Char}
    (hnewline : CharClass.isNewline newline = true) (pos : Nat) (rest : List Char) :
    afterLine pos (body ++ newline :: rest) = (pos + byteLength body, newline :: rest) := by
  induction body generalizing pos with
  | nil => simp [afterLine, hnewline, byteLength]
  | cons c body ih =>
    have hc := h c List.mem_cons_self
    rw [List.cons_append, afterLine, hc, if_neg Bool.false_ne_true,
      ih fun d hd => h d (List.mem_cons_of_mem c hd), byteLength, Nat.add_assoc]

theorem afterLine_end {body : List Char} (h : InLine body) (pos : Nat) :
    afterLine pos body = (pos + byteLength body, []) := by
  induction body generalizing pos with
  | nil => rfl
  | cons c body ih =>
    have hc := h c List.mem_cons_self
    rw [afterLine, hc, if_neg Bool.false_ne_true, ih fun d hd => h d (List.mem_cons_of_mem c hd),
      byteLength, Nat.add_assoc]

theorem inLine_or_newline (cs : List Char) :
    InLine cs ∨ ∃ body newline rest, InLine body ∧ CharClass.isNewline newline = true ∧
      cs = body ++ newline :: rest := by
  induction cs with
  | nil => exact .inl nofun
  | cons c cs ih =>
    cases hc : CharClass.isNewline c with
    | true => exact .inr ⟨[], c, cs, nofun, hc, rfl⟩
    | false =>
      have hcons {body : List Char} (hbody : InLine body) : InLine (c :: body) := by
        intro d hd
        rcases List.mem_cons.1 hd with rfl | hd
        · exact hc
        · exact hbody d hd
      rcases ih with hline | ⟨body, newline, rest, hbody, hnewline, rfl⟩
      · exact .inl (hcons hline)
      · exact .inr ⟨c :: body, newline, rest, hcons hbody, hnewline, rfl⟩

/-! ## One step of skipping -/

theorem skipTrivia_nil (pos : Nat) : skipTrivia pos [] = .ok (pos, []) := by
  rw [skipTrivia.eq_def]

theorem skipTrivia_blank {c : Char} (h : isBlank c = true) (pos : Nat) (rest : List Char) :
    skipTrivia pos (c :: rest) = skipTrivia (pos + c.utf8Size) rest := by
  have hslash : c ≠ '/' := by
    rintro rfl
    rw [isBlank_slash] at h
    cases h
  rw [skipTrivia.eq_def]
  split
  · rename_i heq
    exact absurd (List.cons.inj heq).1 hslash
  · rename_i heq
    exact absurd (List.cons.inj heq).1 hslash
  · rename_i heq
    cases heq
    exact if_pos h
  · rename_i heq
    cases heq

theorem skipTrivia_block {body : List Char} (h : InBlock body) (pos : Nat) (rest : List Char) :
    skipTrivia pos ('/' :: '*' :: (body ++ '*' :: '/' :: rest)) =
      skipTrivia (pos + 2 + byteLength body + 2) rest := by
  have hclose := afterBlock?_append h (pos + 2) rest
  rw [skipTrivia.eq_def]
  simp only
  split
  · rename_i r hr
    rw [hclose] at hr
    cases hr
    rfl
  · rename_i hnone
    rw [hclose] at hnone
    cases hnone

theorem skipTrivia_open {body : List Char} (h : InBlock body) (pos : Nat) :
    skipTrivia pos ('/' :: '*' :: body) = .error (.unterminatedComment pos) := by
  rw [skipTrivia.eq_def]
  simp only
  split
  · rename_i r hr
    obtain ⟨front, -, rfl⟩ := afterBlock?_eq_some hr
    exact absurd ⟨front, r.2, by simp⟩ h
  · rfl

theorem skipTrivia_line (pos : Nat) (rest : List Char) :
    skipTrivia pos ('/' :: '/' :: rest) =
      skipTrivia (afterLine (pos + 2) rest).1 (afterLine (pos + 2) rest).2 := by
  rw [skipTrivia.eq_def]
  simp

/-- No trivia stands at the front. -/
def NoTrivia (cs : List Char) : Prop :=
  ∀ c ∈ cs.head?, isBlank c = false ∧
    (c = '/' → cs.tail.head? ≠ some '*' ∧ cs.tail.head? ≠ some '/')

theorem noTrivia_cons {c : Char} (hblank : isBlank c = false) (hslash : c ≠ '/')
    (rest : List Char) : NoTrivia (c :: rest) := by
  rintro d ⟨⟩
  exact ⟨hblank, fun h => absurd h hslash⟩

theorem skipTrivia_of_noTrivia {cs : List Char} (h : NoTrivia cs) (pos : Nat) :
    skipTrivia pos cs = .ok (pos, cs) := by
  rw [skipTrivia.eq_def]
  split
  · exact absurd rfl ((h '/' rfl).2 rfl).1
  · exact absurd rfl ((h '/' rfl).2 rfl).2
  · rename_i c rest _ _
    have hc := (h c rfl).1
    rw [isBlank] at hc
    rw [hc, if_neg Bool.false_ne_true]
  · rfl

/-! ## Skipping -/

/-- Trivia at the front is skipped. -/
theorem skipTrivia_append {gap : List Char} (h : Trivia gap) (pos : Nat) (cs : List Char) :
    skipTrivia pos (gap ++ cs) = skipTrivia (pos + byteLength gap) cs := by
  induction h generalizing pos with
  | nil => rfl
  | @blank c rest hc _ ih =>
    rw [List.cons_append, skipTrivia_blank hc, ih, byteLength, Nat.add_assoc]
  | @block body rest hbody _ ih =>
    have hlength : pos + 2 + byteLength body + 2 + byteLength rest =
        pos + byteLength ('/' :: '*' :: (body ++ '*' :: '/' :: rest)) := by
      simp only [byteLength, byteLength_append, show '/'.utf8Size = 1 from rfl,
        show '*'.utf8Size = 1 from rfl]
      omega
    rw [List.cons_append, List.cons_append, List.append_assoc, List.cons_append, List.cons_append,
      skipTrivia_block hbody, ih, hlength]
  | @line body rest newline hbody hnewline _ ih =>
    have hlength : pos + 2 + byteLength body + newline.utf8Size + byteLength rest =
        pos + byteLength ('/' :: '/' :: (body ++ newline :: rest)) := by
      simp only [byteLength, byteLength_append, show '/'.utf8Size = 1 from rfl]
      omega
    rw [List.cons_append, List.cons_append, List.append_assoc, List.cons_append,
      skipTrivia_line, afterLine_append hbody hnewline,
      skipTrivia_blank (isBlank_of_newline hnewline), ih, hlength]

theorem skipTrivia_endTrivia {cs : List Char} (h : EndTrivia cs) (pos : Nat) :
    skipTrivia pos cs = .ok (pos + byteLength cs, []) := by
  rcases h with h | ⟨front, body, hfront, hbody, rfl⟩
  · have hskip := skipTrivia_append h pos []
    rwa [List.append_nil, skipTrivia_nil] at hskip
  · have hlength : pos + byteLength front + 2 + byteLength body =
        pos + byteLength (front ++ '/' :: '/' :: body) := by
      simp only [byteLength, byteLength_append, show '/'.utf8Size = 1 from rfl]
      omega
    rw [skipTrivia_append hfront, skipTrivia_line, afterLine_end hbody, skipTrivia_nil, hlength]

/-- What stands at the front of a text: trivia with something else or the end after it, or a
comment that goes on to the end of the input. -/
inductive Fronted : List Char → Prop
  | gap {gap rest : List Char} (hgap : Trivia gap) (hrest : NoTrivia rest) : Fronted (gap ++ rest)
  | line {gap body : List Char} (hgap : Trivia gap) (hbody : InLine body) :
      Fronted (gap ++ '/' :: '/' :: body)
  | block {gap body : List Char} (hgap : Trivia gap) (hbody : InBlock body) :
      Fronted (gap ++ '/' :: '*' :: body)

theorem Fronted.prepend {gap cs : List Char} (hgap : Trivia gap) (h : Fronted cs) :
    Fronted (gap ++ cs) := by
  cases h with
  | gap hgap' hrest =>
    rw [← List.append_assoc]
    exact .gap (hgap.append hgap') hrest
  | line hgap' hbody =>
    rw [← List.append_assoc]
    exact .line (hgap.append hgap') hbody
  | block hgap' hbody =>
    rw [← List.append_assoc]
    exact .block (hgap.append hgap') hbody

theorem fronted (cs : List Char) : Fronted cs := by
  -- by length: a comment takes many characters off the front at once
  induction hlength : cs.length using Nat.strongRecOn generalizing cs with
  | ind n ih =>
    subst hlength
    have shorter (rest : List Char) (h : rest.length < cs.length) : Fronted rest := ih _ h rest rfl
    by_cases hblock : ∃ rest, cs = '/' :: '*' :: rest
    · obtain ⟨rest, rfl⟩ := hblock
      cases hclose : afterBlock? 0 rest with
      | none => exact .block .nil (afterBlock?_eq_none hclose)
      | some r =>
        obtain ⟨body, hbody, rfl⟩ := afterBlock?_eq_some hclose
        have htail := Fronted.prepend (.block hbody .nil) (shorter r.2 (by simp; omega))
        simpa using htail
    by_cases hline : ∃ rest, cs = '/' :: '/' :: rest
    · obtain ⟨rest, rfl⟩ := hline
      rcases inLine_or_newline rest with hend | ⟨body, newline, more, hbody, hnewline, rfl⟩
      · exact .line .nil hend
      · have htail := Fronted.prepend (.line hbody hnewline .nil) (shorter more (by simp; omega))
        simpa using htail
    cases cs with
    | nil => exact .gap .nil nofun
    | cons c rest =>
      cases hc : isBlank c with
      | true => exact Fronted.prepend (.blank hc .nil) (shorter rest (by simp))
      | false =>
        refine .gap .nil ?_
        rintro d ⟨⟩
        refine ⟨hc, ?_⟩
        rintro rfl
        refine ⟨fun hstar => ?_, fun hslash => ?_⟩
        · obtain ⟨more, rfl⟩ := List.head?_eq_some_iff.1 hstar
          exact hblock ⟨more, rfl⟩
        · obtain ⟨more, rfl⟩ := List.head?_eq_some_iff.1 hslash
          exact hline ⟨more, rfl⟩

/-- What skipping has passed over, and what is left. -/
theorem skipTrivia_eq_ok {pos : Nat} {cs : List Char} {r : Nat × List Char}
    (h : skipTrivia pos cs = .ok r) :
    (∃ gap, Trivia gap ∧ NoTrivia r.2 ∧ cs = gap ++ r.2 ∧ r.1 = pos + byteLength gap) ∨
      EndTrivia cs ∧ r = (pos + byteLength cs, []) := by
  cases fronted cs with
  | @gap gap rest hgap hrest =>
    rw [skipTrivia_append hgap, skipTrivia_of_noTrivia hrest] at h
    cases h
    exact .inl ⟨gap, hgap, hrest, rfl, rfl⟩
  | @line gap body hgap hbody =>
    have hend : EndTrivia (gap ++ '/' :: '/' :: body) := .inr ⟨gap, body, hgap, hbody, rfl⟩
    rw [skipTrivia_endTrivia hend] at h
    cases h
    exact .inr ⟨hend, rfl⟩
  | @block gap body hgap hbody =>
    rw [skipTrivia_append hgap, skipTrivia_open hbody] at h
    cases h

end IntervalRules.Token
