import IntervalRules.Proofs.Lexemes

/-!
Scanning by byte offsets. The scanner here holds the whole text and an offset into it, cuts the
text at offsets that it works out by itself, and fails where a cut is inside a character or past
the end. It never fails so: it reads what the scanner reads that is given the rest of the text
(`Cutting.next_eq`).
-/

namespace IntervalRules.Token.Cutting

open Text (byteLength byteLength_append suffixAt? codePointAt?)

/-- Why nothing is read: a cut that is not between two characters of the text, or an error of the
text. -/
inductive Failure where
  | cut (offset : Nat)
  | token (e : TokenError)

/-- The text from an offset on. -/
def cutFrom (text : String) (start : Nat) : Except Failure (List Char) :=
  match suffixAt? start text.toList with
  | some cs => .ok cs
  | none => .error (.cut start)

/-- The text between two offsets. -/
def cutBetween (text : String) (start stop : Nat) : Except Failure (List Char) :=
  match suffixAt? start text.toList, suffixAt? stop text.toList with
  | some cs, some _ =>
    if start ≤ stop then .ok (Text.takeBytes (stop - start) cs) else .error (.cut stop)
  | none, _ => .error (.cut start)
  | some _, none => .error (.cut stop)

/-- How many bytes stand before the first place from which on a text passes a test. -/
def find? (test : List Char → Bool) : List Char → Option Nat
  | [] => none
  | c :: cs => if test (c :: cs) then some 0 else (find? test cs).map (c.utf8Size + ·)

def atBlockEnd (cs : List Char) : Bool := ['*', '/'].isPrefixOf cs

def atLineEnd (cs : List Char) : Bool := cs.head?.any CharClass.isNewline

theorem codePointAt?_lt {text : String} {offset : Nat} {c : Char}
    (h : codePointAt? text offset = some c) : offset + c.utf8Size ≤ byteLength text.toList := by
  obtain ⟨cs, hsuffix, hhead⟩ := Option.bind_eq_some_iff.1 h
  obtain ⟨front, htext, hoffset⟩ := Text.exists_front_of_suffixAt? hsuffix
  obtain ⟨rest, rfl⟩ := List.head?_eq_some_iff.1 hhead
  rw [htext, byteLength_append, hoffset, byteLength]
  omega

theorem find?_pos {test : List Char → Bool} {c : Char} {cs : List Char} {n : Nat}
    (hc : test (c :: cs) = false) (h : find? test (c :: cs) = some n) : 0 < n := by
  rw [find?, hc, if_neg Bool.false_ne_true] at h
  obtain ⟨m, -, rfl⟩ := Option.map_eq_some_iff.1 h
  exact Nat.add_pos_left (Char.utf8Size_pos c) m

/-- Skips trivia from an offset on. -/
def skip (text : String) (pos : Nat) : Except Failure Nat :=
  match _found : codePointAt? text pos with
  | none => .ok pos
  | some c =>
    if isBlank c then skip text (pos + c.utf8Size)
    else
      match cutFrom text pos with
      | .error e => .error e
      | .ok here =>
        if ['/', '*'].isPrefixOf here then
          match cutFrom text (pos + 2) with
          | .error e => .error e
          | .ok body =>
            match find? atBlockEnd body with
            | some offset => skip text (pos + 2 + offset + 2)
            | none => .error (.token (.unterminatedComment pos))
        else if _line : ['/', '/'].isPrefixOf here then
          match _stop : find? atLineEnd here with
          | some offset => skip text (pos + offset)
          | none => skip text (byteLength text.toList)
        else .ok pos
termination_by byteLength text.toList - pos
decreasing_by
  all_goals
    have hlt := codePointAt?_lt _found
    have hpos := Char.utf8Size_pos c
  · omega
  · omega
  · obtain ⟨rest, rfl⟩ := List.isPrefixOf_iff_prefix.1 _line
    have hstop := find?_pos (by rfl) _stop
    omega
  · omega

/-- Scans the literal at `start` with a radix mark of two characters. -/
def scanRadix (text : String) (start : Nat) (radix : Radix) : Except Failure (Literal × Nat) :=
  match cutFrom text (start + 2) with
  | .error e => .error e
  | .ok cs =>
    let run := Literal.run radix.base cs
    let stop := start + 2 + byteLength run
    match (codePointAt? text stop).filter (Text.isDigit 10) with
    | some c => .error (.token (.invalidDigit c radix stop))
    | none =>
      if run = [] then .error (.token (.malformedNumber ⟨start, start + 2⟩ .noRadixDigits))
      else
        match Literal.misplacedSeparator? radix.base false run with
        | some offset => .error (.token (.misplacedSeparator (start + 2 + offset)))
        | none =>
          let digits := Literal.withoutSeparators run
          match codePointAt? text stop with
          | some 'n' => .ok (.bigInteger (String.ofList digits) radix, stop + 1)
          | some 'm' =>
            .error (.token (.malformedNumber ⟨start, stop + 1⟩ .decimalSuffixOnRadix))
          | _ => .ok (.number (Binary64.ofDigits radix.base digits), stop)

/-- The literal of a decimal shape between two offsets. An exact decimal is cut off before its
suffix. -/
def decimalLiteral (text : String) (start stop : Nat) (s : DecimalShape) :
    Except Failure Literal :=
  let malformed (fault : NumberFault) := .error (.token (.malformedNumber ⟨start, stop⟩ fault))
  if s.isOctal && (s.fraction.isSome || s.exponent.isSome) then malformed .octalWithFraction
  else
    match s.suffix with
    | some .bigInteger =>
      if s.fraction.isSome || s.exponent.isSome || s.hasLeadingZero then malformed .bigInteger
      else .ok (.bigInteger (String.ofList (Literal.withoutSeparators s.integer)) .decimal)
    | some .decimal =>
      if s.exponent.isSome || s.hasLeadingZero then malformed .decimal
      else
        match cutBetween text start (stop - 1) with
        | .error e => .error e
        | .ok cs => .ok (.decimal (String.ofList (Literal.withoutSeparators cs)))
    | none =>
      if s.isOctal then .ok (.number (Binary64.ofDigits 8 s.integer))
      else
        match cutBetween text start stop with
        | .error e => .error e
        | .ok cs =>
          match Binary64.ofDecimalText? (Literal.withoutSeparators cs) with
          | some value => .ok (.number value)
          | none => malformed .unreadable

/-- Scans the literal at `start` that has no radix mark. -/
def scanDecimal (text : String) (start : Nat) : Except Failure (Literal × Nat) :=
  match cutFrom text start with
  | .error e => .error e
  | .ok cs =>
    let (shape, rest) := DecimalShape.split cs
    let stop := byteLength text.toList - byteLength rest
    if shape.integer = [] then .error (.token (.malformedNumber ⟨start, start + 1⟩ .noDigits))
    else if rest.head?.any fun c => c == 'e' || c == 'E' then
      .error (.token (.malformedNumber ⟨start, stop + 1⟩ .noExponentDigits))
    else
      match separatorFault? shape with
      | some offset => .error (.token (.misplacedSeparator (start + offset)))
      | none => (decimalLiteral text start stop shape).map (·, stop)

/-- Scans the literal at `start`, which may have a radix mark. -/
def scanLiteral (text : String) (start : Nat) : Except Failure (Literal × Nat) :=
  match cutFrom text start with
  | .error e => .error e
  | .ok cs =>
    match cs with
    | '0' :: mark :: _ =>
      match Radix.ofMark? mark with
      | some radix => scanRadix text start radix
      | none => scanDecimal text start
    | _ => scanDecimal text start

/-- Scans a number token at `start`. -/
def scanNumber (text : String) (start : Nat) : Except Failure (Literal × Nat) :=
  match scanLiteral text start with
  | .error e => .error e
  | .ok (literal, stop) =>
    match (codePointAt? text stop).filter CharClass.isIdentifierStart with
    | some c => .error (.token (.identifierAfterNumber c stop))
    | none => .ok (literal, stop)

/-- The token after an offset. -/
def next (text : String) (offset : Nat) : Except Failure Token :=
  match skip text offset with
  | .error e => .error e
  | .ok start =>
    match codePointAt? text start with
    | none => .ok ⟨.endOfInput, ⟨start, start⟩⟩
    | some c =>
      let single (kind : TokenKind) := .ok ⟨kind, ⟨start, start + c.utf8Size⟩⟩
      match CharClass.of c with
      | .digit =>
        match scanNumber text start with
        | .error e => .error e
        | .ok (literal, stop) => .ok ⟨.number literal, ⟨start, stop⟩⟩
      | .punctuation p => single (.punctuation p)
      | .sign => single (if c = '-' then .minus else .plus)
      | _ => .error (.token (.unexpectedChar c start))

/-! ## Cuts between two characters -/

section

variable {text : String} {front cs : List Char}

theorem cutFrom_eq (htext : text.toList = front ++ cs) :
    cutFrom text (byteLength front) = .ok cs := by
  rw [cutFrom, htext, Text.suffixAt?_byteLength]

theorem codePointAt?_eq (htext : text.toList = front ++ cs) :
    codePointAt? text (byteLength front) = cs.head? := by
  rw [codePointAt?, htext, Text.suffixAt?_byteLength, Option.bind_some]

theorem cutBetween_eq {middle back : List Char} (htext : text.toList = front ++ (middle ++ back)) :
    cutBetween text (byteLength front) (byteLength front + byteLength middle) = .ok middle := by
  have hstop : suffixAt? (byteLength front + byteLength middle) text.toList = some back := by
    rw [htext, ← List.append_assoc, ← byteLength_append, Text.suffixAt?_byteLength]
  have hstart : suffixAt? (byteLength front) text.toList = some (middle ++ back) := by
    rw [htext, Text.suffixAt?_byteLength]
  rw [cutBetween, hstart, hstop]
  dsimp only
  rw [if_pos (Nat.le_add_right _ _), Nat.add_sub_cancel_left, Text.takeBytes_byteLength]

end

/-! ## Finding -/

theorem find?_cons {test : List Char → Bool} {c : Char} {cs : List Char}
    (h : test (c :: cs) = false) : find? test (c :: cs) = (find? test cs).map (c.utf8Size + ·) := by
  rw [find?, h, if_neg Bool.false_ne_true]

theorem atBlockEnd_cons {c : Char} {rest : List Char} (h : c = '*' → rest.head? ≠ some '/') :
    atBlockEnd (c :: rest) = false := by
  rw [Bool.eq_false_iff]
  intro hend
  obtain ⟨more, hmore⟩ := List.isPrefixOf_iff_prefix.1 hend
  cases hmore
  exact h rfl rfl

/-- The first end of a block comment. -/
theorem find?_blockEnd {body : List Char} (h : InBlock body) (rest : List Char) :
    find? atBlockEnd (body ++ '*' :: '/' :: rest) = some (byteLength body) := by
  induction body with
  | nil => rfl
  | cons c body ih =>
    have hc : c = '*' → (body ++ '*' :: '/' :: rest).head? ≠ some '/' := by
      rintro rfl
      exact h.head?_ne
    rw [List.cons_append, find?_cons (atBlockEnd_cons hc), ih h.tail]
    rfl

theorem find?_blockEnd_eq_none {body : List Char} (h : InBlock body) :
    find? atBlockEnd body = none := by
  induction body with
  | nil => rfl
  | cons c body ih =>
    have hc : c = '*' → body.head? ≠ some '/' := by
      rintro rfl hhead
      obtain ⟨more, rfl⟩ := List.head?_eq_some_iff.1 hhead
      exact h ⟨[], more, rfl⟩
    rw [find?_cons (atBlockEnd_cons hc), ih h.tail]
    rfl

theorem atLineEnd_cons (c : Char) (rest : List Char) :
    atLineEnd (c :: rest) = CharClass.isNewline c := rfl

/-- The first line end, or none on a line that does not end. -/
theorem find?_lineEnd {body rest : List Char} (h : InLine body) :
    find? atLineEnd (body ++ rest) = (find? atLineEnd rest).map (byteLength body + ·) := by
  induction body with
  | nil => simp [byteLength]
  | cons c body ih =>
    have hc : atLineEnd (c :: (body ++ rest)) = false := by
      rw [atLineEnd_cons]
      exact h c List.mem_cons_self
    rw [List.cons_append, find?_cons hc, ih fun d hd => h d (List.mem_cons_of_mem c hd),
      Option.map_map, byteLength]
    congr 1
    funext n
    exact (Nat.add_assoc _ _ n).symm

/-! ## Skipping -/

section

variable {text : String} {front cs : List Char}

theorem skip_nil (htext : text.toList = front ++ []) :
    skip text (byteLength front) = .ok (byteLength front) := by
  rw [skip.eq_def]
  split
  · rfl
  · rename_i c hc
    rw [codePointAt?_eq htext] at hc
    cases hc

theorem skip_blank {c : Char} (hc : isBlank c = true) (htext : text.toList = front ++ c :: cs) :
    skip text (byteLength front) = skip text (byteLength (front ++ [c])) := by
  have hhead := codePointAt?_eq htext
  rw [skip.eq_def]
  split
  · rename_i hnone
    rw [hnone] at hhead
    cases hhead
  · rename_i d hd
    rw [hd] at hhead
    cases hhead
    rw [if_pos hc, byteLength_append]
    rfl

/-- What is done where a comment may start. -/
theorem skip_cons {c : Char} (hc : isBlank c = false) (htext : text.toList = front ++ c :: cs) :
    skip text (byteLength front) =
      if ['/', '*'].isPrefixOf (c :: cs) then
        match cutFrom text (byteLength front + 2) with
        | .error e => .error e
        | .ok body =>
          match find? atBlockEnd body with
          | some offset => skip text (byteLength front + 2 + offset + 2)
          | none => .error (.token (.unterminatedComment (byteLength front)))
      else if ['/', '/'].isPrefixOf (c :: cs) then
        match find? atLineEnd (c :: cs) with
        | some offset => skip text (byteLength front + offset)
        | none => skip text (byteLength text.toList)
      else .ok (byteLength front) := by
  have hhead := codePointAt?_eq htext
  have hcut := cutFrom_eq htext
  rw [skip.eq_def]
  split
  · rename_i hnone
    rw [hnone] at hhead
    cases hhead
  · rename_i d hd
    rw [hd] at hhead
    cases hhead
    rw [hc, if_neg Bool.false_ne_true, hcut]
    dsimp only
    split
    · rfl
    · by_cases hline : ['/', '/'].isPrefixOf (c :: cs) = true
      · rw [dif_pos hline, if_pos hline]
        split <;> simp_all
      · rw [dif_neg hline, if_neg hline]

theorem skip_noTrivia {c : Char} (h : NoTrivia (c :: cs)) (htext : text.toList = front ++ c :: cs) :
    skip text (byteLength front) = .ok (byteLength front) := by
  obtain ⟨hc, hslash⟩ := h c rfl
  have hprefix {d : Char} (hd : c = '/' → cs.head? ≠ some d) :
      ['/', d].isPrefixOf (c :: cs) = false := by
    rw [Bool.eq_false_iff]
    intro hprefix
    obtain ⟨more, hmore⟩ := List.isPrefixOf_iff_prefix.1 hprefix
    cases hmore
    exact hd rfl rfl
  rw [skip_cons hc htext, hprefix fun hc => (hslash hc).1, hprefix fun hc => (hslash hc).2]
  rfl

/-- A block comment, which is cut off after its first two characters. -/
theorem skip_block {body : List Char} (htext : text.toList = front ++ '/' :: '*' :: body) :
    skip text (byteLength front) =
      match find? atBlockEnd body with
      | some offset => skip text (byteLength front + 2 + offset + 2)
      | none => .error (.token (.unterminatedComment (byteLength front))) := by
  have hbody : cutFrom text (byteLength front + 2) = .ok body := by
    have hcut := @cutFrom_eq text (front ++ ['/', '*']) body (by simp [htext])
    rwa [byteLength_append] at hcut
  have hprefix : ['/', '*'].isPrefixOf ('/' :: '*' :: body) = true := rfl
  rw [skip_cons isBlank_slash htext, if_pos hprefix, hbody]

theorem skip_line {body : List Char} (htext : text.toList = front ++ '/' :: '/' :: body) :
    skip text (byteLength front) =
      match find? atLineEnd ('/' :: '/' :: body) with
      | some offset => skip text (byteLength front + offset)
      | none => skip text (byteLength text.toList) := by
  have hblock : ¬ ['/', '*'].isPrefixOf ('/' :: '/' :: body) = true := Bool.false_ne_true
  have hprefix : ['/', '/'].isPrefixOf ('/' :: '/' :: body) = true := rfl
  rw [skip_cons isBlank_slash htext, if_neg hblock, if_pos hprefix]

theorem inLine_slashes {body : List Char} (h : InLine body) : InLine ('/' :: '/' :: body) := by
  intro c hc
  simp only [List.mem_cons] at hc
  rcases hc with rfl | rfl | hc
  · rfl
  · rfl
  · exact h c hc

/-- Trivia is skipped. -/
theorem skip_append {gap : List Char} (h : Trivia gap)
    (htext : text.toList = front ++ (gap ++ cs)) :
    skip text (byteLength front) = skip text (byteLength (front ++ gap)) := by
  induction h generalizing front with
  | nil => rw [List.append_nil]
  | @blank c rest hc _ ih =>
    rw [skip_blank hc htext, ih (by simp [htext]), List.append_assoc, List.singleton_append]
  | @block body rest hbody _ ih =>
    have hfind := find?_blockEnd hbody (rest ++ cs)
    have hlength : byteLength front + 2 + byteLength body + 2 =
        byteLength (front ++ '/' :: '*' :: (body ++ ['*', '/'])) := by
      simp only [byteLength, byteLength_append, show '/'.utf8Size = 1 from rfl,
        show '*'.utf8Size = 1 from rfl]
      omega
    rw [@skip_block text front (body ++ '*' :: '/' :: (rest ++ cs)) (by simp [htext]), hfind]
    dsimp only
    rw [hlength, ih (by simp [htext])]
    simp
  | @line body rest newline hbody hnewline _ ih =>
    have hfind : find? atLineEnd ('/' :: '/' :: (body ++ newline :: (rest ++ cs))) =
        some (byteLength ('/' :: '/' :: body)) := by
      have hline := @find?_lineEnd _ (newline :: (rest ++ cs)) (inLine_slashes hbody)
      rw [find?, atLineEnd_cons, hnewline, if_pos rfl] at hline
      exact hline
    rw [@skip_line text front (body ++ newline :: (rest ++ cs)) (by simp [htext]), hfind]
    dsimp only
    have hnext : text.toList = (front ++ '/' :: '/' :: body) ++ newline :: (rest ++ cs) := by
      simp [htext]
    rw [← byteLength_append, skip_blank (isBlank_of_newline hnewline) hnext, ih (by simp [htext])]
    simp

end

/-- What the scanner on the rest of a text gives, as an outcome here. -/
def outcome {α : Type} (result : Except TokenError α) : Except Failure α :=
  result.mapError .token

theorem outcome_ok {α : Type} (a : α) : outcome (.ok a) = .ok a := rfl

theorem skip_eq {text : String} {front cs : List Char} (htext : text.toList = front ++ cs) :
    skip text (byteLength front) =
      outcome ((skipTrivia (byteLength front) cs).map Prod.fst) := by
  cases fronted cs with
  | @gap gap rest hgap hrest =>
    rw [skip_append hgap htext, skipTrivia_append hgap, skipTrivia_of_noTrivia hrest,
      ← byteLength_append]
    cases rest with
    | nil => exact skip_nil (by simpa using htext)
    | cons c rest => exact skip_noTrivia hrest (by simpa using htext)
  | @line gap body hgap hbody =>
    have hfind : find? atLineEnd ('/' :: '/' :: body) = none := by
      have hline := @find?_lineEnd _ [] (inLine_slashes hbody)
      rwa [List.append_nil] at hline
    rw [skip_append hgap htext, @skip_line text (front ++ gap) body (by simp [htext]), hfind,
      skipTrivia_endTrivia (.inr ⟨gap, body, hgap, hbody, rfl⟩), ← byteLength_append, ← htext]
    exact skip_nil (List.append_nil _).symm
  | @block gap body hgap hbody =>
    rw [skip_append hgap htext, @skip_block text (front ++ gap) body (by simp [htext]),
      find?_blockEnd_eq_none hbody, skipTrivia_append hgap, skipTrivia_open hbody,
      ← byteLength_append]
    rfl

/-! ## Numbers -/

section

variable {text : String} {front cs : List Char}

/-- What a scanned literal comes to here. -/
def Scanned.read (r : Scanned) : Literal × Nat := (r.literal, r.stop)

/-- The character after a part of the text. -/
theorem codePointAt?_after {middle rest : List Char} (hascii : ∀ c ∈ middle, c.toNat < 128)
    (htext : text.toList = front ++ (middle ++ rest)) :
    codePointAt? text (byteLength front + middle.length) = rest.head? := by
  have hhead := @codePointAt?_eq text (front ++ middle) rest (by simp [htext])
  rwa [byteLength_append, Literal.byteLength_of_ascii hascii] at hhead

theorem scanRadix_eq {radix : Radix} {mark : Char} (hmark : Radix.ofMark? mark = some radix)
    (htext : text.toList = front ++ '0' :: mark :: cs) :
    scanRadix text (byteLength front) radix =
      outcome ((Token.scanRadix (byteLength front) radix cs).map Scanned.read) := by
  have hrun := Literal.run_append_afterRun radix.base cs
  have hchars : ∀ c ∈ Literal.run radix.base cs, Literal.isRunChar radix.base c = true :=
    fun c hc => Literal.isRunChar_of_mem_run hc
  have hascii := fun c hc => (visible_of_marked_run hmark hchars c hc).ascii
  have hmarked : ∀ c ∈ ['0', mark], c.toNat < 128 := fun c hc =>
    hascii c (List.mem_append_left (Literal.run radix.base cs) hc)
  have hcut : cutFrom text (byteLength front + 2) = .ok cs := by
    have hcut := @cutFrom_eq text (front ++ ['0', mark]) cs (by simp [htext])
    rwa [byteLength_append, Literal.byteLength_of_ascii hmarked] at hcut
  have hlength : byteLength (Literal.run radix.base cs) = (Literal.run radix.base cs).length :=
    Literal.byteLength_of_ascii fun c hc =>
      hascii c (List.mem_cons_of_mem _ (List.mem_cons_of_mem _ hc))
  have hhead : codePointAt? text (byteLength front + 2 + (Literal.run radix.base cs).length) =
      (Literal.afterRun radix.base cs).head? := by
    have hafter := @codePointAt?_after text front ('0' :: mark :: Literal.run radix.base cs)
      (Literal.afterRun radix.base cs) hascii (by simp [htext, hrun])
    rwa [List.length_cons, List.length_cons, Nat.add_right_comm _ 1 1, Nat.add_comm _ 2,
      ← Nat.add_assoc] at hafter
  have houtcome := scanRadix_outcome (byteLength front) radix cs
  unfold scanRadix
  simp only [hcut, hlength, hhead]
  generalize Token.scanRadix (byteLength front) radix cs = result at houtcome ⊢
  generalize Literal.run radix.base cs = digits at houtcome ⊢
  generalize Literal.afterRun radix.base cs = rest at houtcome ⊢
  cases houtcome with
  | invalidDigit head digit =>
    rw [Option.filter_eq_some_iff.2 ⟨head, digit⟩]
    rfl
  | noDigits ends empty =>
    simp only [filter_head?_eq_none_iff.2 ends, if_pos empty]
    rfl
  | separator ends ne_nil misplaced =>
    simp only [filter_head?_eq_none_iff.2 ends, if_neg ne_nil, misplaced]
    rfl
  | decimalSuffix checks suffix | bigInteger checks suffix =>
    subst suffix
    simp only [filter_head?_eq_none_iff.2 checks.ends, if_neg checks.ne_nil, checks.separators]
    rfl
  | number checks bare =>
    simp only [filter_head?_eq_none_iff.2 checks.ends, if_neg checks.ne_nil, checks.separators]
    split
    · rename_i hn
      exact absurd rfl (bare 'n' hn).1
    · rename_i hm
      exact absurd rfl (bare 'm' hm).2
    · rfl

theorem decimalLiteral_eq {s : DecimalShape} {rest : List Char} (hs : s.Proper)
    (htext : text.toList = front ++ (s.chars ++ rest)) :
    decimalLiteral text (byteLength front) (byteLength front + s.chars.length) s =
      match Token.decimalLiteral s with
      | .ok literal => .ok literal
      | .error fault => .error (.token (.malformedNumber
          ⟨byteLength front, byteLength front + s.chars.length⟩ fault)) := by
  have hascii := fun c hc => (visible_of_proper hs c hc).ascii
  have hcut {number more : List Char} (hchars : s.chars = number ++ more) :
      cutBetween text (byteLength front) (byteLength front + number.length) = .ok number := by
    have hnumber : byteLength number = number.length :=
      Literal.byteLength_of_ascii fun c hc => hascii c (hchars ▸ List.mem_append_left more hc)
    rw [← hnumber]
    exact @cutBetween_eq text front number (more ++ rest) (by rw [htext, hchars]; simp)
  have houtcome := decimalLiteral_outcome s
  unfold decimalLiteral
  generalize Token.decimalLiteral s = result at houtcome ⊢
  cases houtcome with
  | octalParts octal parts =>
    simp only [octal, Bool.true_and, Bool.or_eq_true, Option.isSome_iff_ne_none, if_pos parts]
  | bigIntegerParts whole suffix parts =>
    simp only [octalParts_eq_false whole, Bool.false_eq_true, if_false, suffix, Bool.or_eq_true,
      Option.isSome_iff_ne_none, or_assoc, if_pos parts]
  | decimalParts whole suffix parts =>
    simp only [octalParts_eq_false whole, Bool.false_eq_true, if_false, suffix, Bool.or_eq_true,
      Option.isSome_iff_ne_none, if_pos parts]
  | bigInteger suffix fraction exponent zero =>
    simp [DecimalShape.isOctal_of_no_leading_zero zero, suffix, fraction, exponent, zero]
  | octal octal suffix fraction exponent => simp [octal, suffix, fraction, exponent]
  | unreadable octal suffix read | number octal suffix read =>
    have hnumeral : s.chars = s.numeral := by simp [DecimalShape.chars, suffix]
    have hwhole := @hcut s.chars [] (List.append_nil _).symm
    rw [hnumeral] at hwhole ⊢
    simp [octal, suffix, hwhole, read]
  | decimal suffix exponent zero =>
    have hchars : s.chars = s.mantissa ++ ['m'] := by
      simp [DecimalShape.chars, DecimalShape.numeral, suffix, exponent, Suffix.char]
    have hstop : byteLength front + s.chars.length - 1 = byteLength front + s.mantissa.length := by
      rw [hchars, List.length_append]
      rfl
    simp [DecimalShape.isOctal_of_no_leading_zero zero, suffix, exponent, zero, hstop, hcut hchars]

theorem scanDecimal_eq (htext : text.toList = front ++ cs) :
    scanDecimal text (byteLength front) =
      outcome ((Token.scanDecimal (byteLength front) cs).map Scanned.read) := by
  have hsplit := DecimalShape.split_chars_append cs
  have hproper := DecimalShape.proper_split cs
  have houtcome := scanDecimal_outcome (byteLength front) cs
  unfold scanDecimal
  rw [cutFrom_eq htext]
  dsimp only
  generalize Token.scanDecimal (byteLength front) cs = result at houtcome ⊢
  generalize DecimalShape.split cs = parts at hsplit hproper houtcome ⊢
  obtain ⟨s, rest⟩ := parts
  dsimp only at hsplit hproper houtcome ⊢
  rw [← hsplit] at htext
  have hstop : byteLength text.toList - byteLength rest = byteLength front + s.chars.length := by
    rw [htext, byteLength_append, byteLength_append, ← Nat.add_assoc, Nat.add_sub_cancel,
      Literal.byteLength_of_ascii fun c hc => (visible_of_proper hproper c hc).ascii]
  have hliteral := decimalLiteral_eq hproper htext
  rw [hstop]
  cases houtcome with
  | noDigits empty =>
    rw [if_pos empty]
    rfl
  | noExponentDigits ne_nil head mark =>
    rw [if_neg ne_nil, if_pos (exponentMark_iff.2 ⟨_, head, mark⟩)]
    rfl
  | separator ne_nil ends misplaced =>
    rw [if_neg ne_nil, if_neg (not_exponentMark_iff.2 ends), misplaced]
    rfl
  | malformed checks refused =>
    rw [if_neg checks.ne_nil, if_neg (not_exponentMark_iff.2 checks.ends), checks.separators,
      hliteral, refused]
    rfl
  | literal checks accepted =>
    rw [if_neg checks.ne_nil, if_neg (not_exponentMark_iff.2 checks.ends), checks.separators,
      hliteral, accepted]
    rfl

theorem scanLiteral_eq (htext : text.toList = front ++ cs) :
    scanLiteral text (byteLength front) =
      outcome ((Token.scanLiteral (byteLength front) cs).map Scanned.read) := by
  have houtcome := scanLiteral_eq_iff.1 (rfl : Token.scanLiteral (byteLength front) cs = _)
  generalize Token.scanLiteral (byteLength front) cs = result at houtcome ⊢
  rw [scanLiteral, cutFrom_eq htext]
  dsimp only
  cases houtcome with
  | marked hmarked marked scanned =>
    subst hmarked
    simp only [marked]
    rw [← scanned]
    exact scanRadix_eq marked htext
  | unmarked unmarked scanned =>
    rw [← scanned]
    split
    · rw [unmarked _ _ rfl]
      exact scanDecimal_eq htext
    · exact scanDecimal_eq htext

theorem scanNumber_eq (htext : text.toList = front ++ cs) :
    scanNumber text (byteLength front) =
      outcome ((Token.scanNumber (byteLength front) cs).map Scanned.read) := by
  have hhead {r : Scanned} (h : Token.scanLiteral (byteLength front) cs = .ok r) :
      codePointAt? text r.stop = r.rest.head? := by
    obtain ⟨form, ⟨hform, hread, -, hstop⟩, -⟩ := scanLiteral_sound h
    rw [hstop]
    exact codePointAt?_after (fun c hc => (visible_of_wellFormed hform c hc).ascii)
      (by rw [htext, hread])
  have houtcome := scanNumber_eq_iff.1 (rfl : Token.scanNumber (byteLength front) cs = _)
  generalize Token.scanNumber (byteLength front) cs = result at houtcome ⊢
  rw [scanNumber, scanLiteral_eq htext]
  cases houtcome with
  | fault literal =>
    rw [literal]
    rfl
  | identifier literal head identifier =>
    have hfilter := Option.filter_eq_some_iff.2 ⟨head, identifier⟩
    rw [← hhead literal] at hfilter
    simp only [literal, Except.map, outcome_ok, Scanned.read, hfilter]
    rfl
  | number literal ends =>
    have hfilter := filter_head?_eq_none_iff.2 ends
    rw [← hhead literal] at hfilter
    simp only [literal, Except.map, outcome_ok, Scanned.read, hfilter]

end

/-- Skipping passes over a part of the text. -/
theorem exists_gap_of_skipTrivia {pos : Nat} {cs : List Char} {r : Nat × List Char}
    (h : skipTrivia pos cs = .ok r) : ∃ gap, cs = gap ++ r.2 ∧ r.1 = pos + byteLength gap := by
  rcases skipTrivia_eq_ok h with ⟨gap, -, -, hcs, hstart⟩ | ⟨-, rfl⟩
  · exact ⟨gap, hcs, hstart⟩
  · exact ⟨cs, (List.append_nil cs).symm, rfl⟩

/-- No cut is inside a character or past the end: for every text and every offset the scanner by
offsets reads what the scanner on the rest of the text reads. -/
theorem next_eq (text : String) (offset : Nat) :
    next text offset = outcome (Token.next text offset) := by
  cases hsuffix : suffixAt? offset text.toList with
  | none =>
    have hnone : codePointAt? text offset = none := by rw [codePointAt?, hsuffix, Option.bind_none]
    have hskip : skip text offset = .ok offset := by
      rw [skip.eq_def]
      split
      · rfl
      · rename_i c hc
        rw [hnone] at hc
        cases hc
    rw [next, hskip, Token.next, hsuffix]
    dsimp only
    rw [hnone]
    rfl
  | some cs =>
    obtain ⟨front, htext, rfl⟩ := Text.exists_front_of_suffixAt? hsuffix
    rw [next_of_front htext rfl, next, skip_eq htext, scan]
    cases hskip : skipTrivia (byteLength front) cs with
    | error e => rfl
    | ok skipped =>
      obtain ⟨start, rest⟩ := skipped
      obtain ⟨gap, rfl, hstart⟩ := exists_gap_of_skipTrivia hskip
      dsimp only at htext hstart
      rw [← List.append_assoc] at htext
      rw [← byteLength_append] at hstart
      subst hstart
      have hhead := codePointAt?_eq htext
      cases rest with
      | nil =>
        simp only [Except.map, outcome_ok, hhead, List.head?_nil]
      | cons c rest =>
        have hnumber := scanNumber_eq htext
        simp only [Except.map, outcome_ok, hhead, List.head?_cons]
        cases CharClass.of c with
        | digit =>
          dsimp only
          rw [hnumber]
          cases Token.scanNumber (byteLength (front ++ gap)) (c :: rest) <;> rfl
        | _ => rfl

end IntervalRules.Token.Cutting
