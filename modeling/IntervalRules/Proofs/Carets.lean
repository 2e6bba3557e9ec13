import IntervalRules.Command.Caret
import IntervalRules.Proofs.Positions
import IntervalRules.Proofs.Relocation

/-!
Where a caret points. Its line is the text around the start of the span up to the nearest line ends.
No error starts at a line end, so the marks are under the characters of the span as far as they
stand on that line; at the end of the text there are none, and one place after them is marked.
-/

namespace IntervalRules

open Text (byteLength byteLength_append codePointAt?)

/-! ## Spans in their line -/

/-- The text before a span, in it and after it. -/
structure Span.Parts (text : String) (span : Span) (front marked back : List Char) : Prop where
  text : text.toList = front ++ (marked ++ back)
  start : byteLength front = span.start
  stop : byteLength front + byteLength marked = span.stop

/-- The span starts with a character that does not end a line, or it is the end of the text. -/
structure Span.StartsOnLine (text : String) (span : Span) : Prop where
  fits : span.Fits text
  head : ∀ c, codePointAt? text span.start = some c → CharClass.isNewline c = false
  empty : span.start = span.stop → span.start = byteLength text.toList

theorem Text.eq_nil_of_byteLength {cs : List Char} (h : byteLength cs = 0) : cs = [] := by
  refine Classical.not_not.1 fun hne => ?_
  have hpos := byteLength_pos hne
  omega

theorem Span.Fits.exists_parts {text : String} {span : Span} (h : span.Fits text) :
    ∃ front marked back, span.Parts text front marked back := by
  obtain ⟨front, cs, htext, hstart⟩ := h.start
  obtain ⟨front', back, htext', hstop⟩ := h.stop
  have hordered := h.ordered
  rcases List.append_eq_append_iff.1 (htext.symm.trans htext') with
    ⟨marked, rfl, rfl⟩ | ⟨more, rfl, rfl⟩
  · refine ⟨front, marked, back, htext, hstart, ?_⟩
    rw [← byteLength_append, hstop]
  · -- The span ends where it starts.
    have hlength := byteLength_append front' more
    obtain rfl : more = [] := Text.eq_nil_of_byteLength (by omega)
    exact ⟨front' ++ [], [], cs, htext, hstart, by simp [byteLength] at *; omega⟩

theorem Span.StartsOnLine.exists_parts {text : String} {span : Span} (h : span.StartsOnLine text) :
    ∃ front marked back, span.Parts text front marked back ∧
      (∀ c ∈ marked.head?, CharClass.isNewline c = false) ∧ (marked = [] → back = []) := by
  obtain ⟨front, marked, back, hparts⟩ := h.fits.exists_parts
  have hlength := congrArg byteLength hparts.text
  have hstart := hparts.start
  have hstop := hparts.stop
  simp only [byteLength_append] at hlength
  refine ⟨front, marked, back, hparts, fun c hc => h.head c ?_, ?_⟩
  · rw [← hparts.start, Token.Cutting.codePointAt?_eq hparts.text]
    exact by rw [List.head?_append, hc, Option.some_or]
  · rintro rfl
    have hend := h.empty (by simpa [hstart, byteLength] using hstop)
    refine Text.eq_nil_of_byteLength ?_
    simp only [byteLength] at hlength
    omega

namespace Token

theorem isNewline_of_not_isBlank {c : Char} (h : isBlank c = false) :
    CharClass.isNewline c = false := by
  rw [isBlank, Bool.or_eq_false_iff] at h
  exact h.2

/-- A token starts on its line. -/
theorem startsOnLine_of_next {text : String} {t : Token} (h : next text t.span.start = .ok t)
    (hfits : t.span.Fits text) : t.span.StartsOnLine text := by
  obtain ⟨front, cs, htext, hstart⟩ := hfits.start
  rw [next_of_front htext hstart] at h
  obtain ⟨r, hscan, rfl⟩ : ∃ r, scan r.1.span.start cs = .ok r ∧ r.1 = t := by
    cases hscan : scan t.span.start cs with
    | error e =>
      rw [hscan] at h
      cases h
    | ok r =>
      rw [hscan] at h
      cases h
      exact ⟨r, hscan, rfl⟩
  have hhead := Cutting.codePointAt?_eq htext
  rw [hstart] at hhead
  rcases scan_cases hscan with ⟨gap, lexeme, rfl, -, hlexeme, -, hspan⟩ | ⟨-, hend⟩
  · have hstarts := congrArg Span.start hspan
    simp only [spanAfter] at hstarts
    obtain rfl : gap = [] := Text.eq_nil_of_byteLength (by omega)
    obtain ⟨c, rest, rfl, hblank, -⟩ := hlexeme.exists_head
    refine ⟨hfits, fun d hd => ?_, fun hempty => ?_⟩
    · rw [hhead] at hd
      cases hd
      exact isNewline_of_not_isBlank hblank
    · have hstops := congrArg Span.stop hspan
      have hpos := Text.byteLength_pos (List.cons_ne_nil c rest)
      simp only [spanAfter] at hstops
      omega
  · have hstarts := congrArg (fun r => r.1.span.start) hend
    dsimp only at hstarts
    obtain rfl : cs = [] := Text.eq_nil_of_byteLength (by omega)
    refine ⟨hfits, fun d hd => ?_, fun _ => ?_⟩
    · rw [hhead] at hd
      cases hd
    · rw [htext, List.append_nil, hstart]

/-- A number does not start with an unexpected character. -/
theorem scanNumber_ne_unexpected {start : Nat} {cs : List Char} {c : Char} {pos : Nat} :
    scanNumber start cs ≠ .error (.unexpectedChar c pos) := by
  intro h
  cases scanNumber_eq_iff.1 h with
  | fault literal =>
    cases scanLiteral_eq_iff.1 literal with
    | marked _ _ scanned => cases scanRadix_eq_iff.1 scanned
    | unmarked _ scanned => cases scanDecimal_eq_iff.1 scanned

/-- Blanks are skipped, so none is unexpected. -/
theorem isBlank_of_unexpected {pos : Nat} {cs : List Char} {c : Char} {p : Nat}
    (h : scan pos cs = .error (.unexpectedChar c p)) : isBlank c = false := by
  cases scanFault_of_scan h with
  | number _ _ hscan => exact absurd hscan scanNumber_ne_unexpected
  | character _ hrest => exact (hrest c rfl).1

/-- The character at the start of an error is no blank. -/
theorem isBlank_of_error {text : String} {front cs : List Char} {e : TokenError}
    (htext : text.toList = front ++ cs) (h : scan (byteLength front) cs = .error e) {c : Char}
    (hc : codePointAt? text e.span.start = some c) : isBlank c = false := by
  have htrue := trueOf_scan htext h
  have hsame {d : Char} (hd : codePointAt? text e.span.start = some d) : d = c :=
    Option.some.inj (hd.symm.trans hc)
  cases e with
  | unexpectedChar d pos =>
    obtain rfl := hsame htrue
    exact isBlank_of_unexpected h
  | unterminatedComment start =>
    obtain ⟨body, hsuffix, -⟩ := htrue
    obtain rfl : '/' = c := hsame (by
      rw [codePointAt?, show (TokenError.unterminatedComment start).span.start = start from rfl,
        hsuffix]
      rfl)
    decide
  | malformedNumber span fault =>
    obtain ⟨d, hd, hdigit⟩ := htrue
    obtain rfl := hsame hd
    exact (isBlank_of_digit hdigit).1
  | invalidDigit d radix pos =>
    obtain ⟨hd, n, hdigit, -⟩ := htrue
    obtain rfl := hsame hd
    have hsome : Text.isDigit 10 d = true := by rw [Text.isDigit, hdigit]; rfl
    exact (isBlank_of_digit hsome).1
  | misplacedSeparator pos =>
    obtain rfl : '_' = c := hsame htrue
    decide
  | identifierAfterNumber d pos =>
    obtain ⟨hd, hidentifier, -⟩ := htrue
    obtain rfl := hsame hd
    rw [Bool.eq_false_iff]
    intro hblank
    rw [isIdentifierStart_of_isBlank hblank] at hidentifier
    cases hidentifier

theorem startsOnLine_of_error {text : String} {offset : Nat} {e : TokenError}
    (h : next text offset = .error e) : e.span.StartsOnLine text := by
  obtain ⟨front, cs, htext, -, hscan⟩ := exists_scan_of_error h
  have hmarks := marks_of_scan hscan
  exact ⟨Marks.fits htext hmarks,
    fun c hc => isNewline_of_not_isBlank (isBlank_of_error htext hscan hc),
    fun hempty => absurd hempty (Nat.ne_of_lt hmarks.start_lt_stop.2)⟩

end Token

open Grammar (Misordered)

/-- A clause starts on the line of its bracket, wherever it ends. -/
theorem Grammar.Misordered.startsOnLine {text : String} {earlier : List Grammar.Clause}
    {c : Grammar.Clause} {span : Span} (h : Misordered (Token.items text) earlier c span) :
    span.StartsOnLine text := by
  have hfits := h.fits
  obtain ⟨opening, closing, -, rfl, hnext, hopening, hclosing, hapart⟩ := h.exists_brackets
  have hline := Token.startsOnLine_of_next hnext hopening
  refine ⟨hfits, hline.head, fun hempty => hline.empty ?_⟩
  have hordered := hopening.ordered
  have hordered' := hclosing.ordered
  dsimp only at hempty
  omega

/-- The errors of a text start on a line. -/
theorem startsOnLine_of_parse {text : String} {e : ExpressionError}
    (h : Expression.parse text = .error e) {span : Span} (hspan : e.span? = some span) :
    span.StartsOnLine text := by
  rcases parse_error_origin h with rfl | ⟨i, interval, span, earlier, c, rfl, hmis⟩ |
    ⟨e', offset, rfl, hnext⟩ | ⟨expected, t, rfl, hnext, hfits⟩
  · cases hspan
  · cases hspan
    exact hmis.startsOnLine
  · cases hspan
    exact Token.startsOnLine_of_error hnext
  · cases hspan
    exact Token.startsOnLine_of_next hnext hfits

/-! ## The line around an offset -/

namespace Caret

open Token (InLine)
open Token.Cutting (Failure cutFrom cutBetween find? atLineEnd cutFrom_eq cutBetween_eq)

/-- The characters up to the first line end. -/
def firstLine (cs : List Char) : List Char := cs.takeWhile fun c => !CharClass.isNewline c

/-- Two parts of one line, with what stands before and after the line. -/
structure Around (before indent rest after : List Char) : Prop where
  indent : InLine indent
  rest : InLine rest
  before : ∀ c ∈ before.getLast?, CharClass.isNewline c = true
  after : ∀ c ∈ after.head?, CharClass.isNewline c = true

theorem exists_after (cs : List Char) :
    ∃ rest after, cs = rest ++ after ∧ InLine rest ∧
      ∀ c ∈ after.head?, CharClass.isNewline c = true := by
  rcases Token.inLine_or_newline cs with hline | ⟨rest, newline, more, hrest, hnewline, rfl⟩
  · exact ⟨cs, [], (List.append_nil cs).symm, hline, nofun⟩
  · refine ⟨rest, newline :: more, rfl, hrest, ?_⟩
    rintro c ⟨⟩
    exact hnewline

theorem exists_before (cs : List Char) :
    ∃ before indent, cs = before ++ indent ∧ InLine indent ∧
      ∀ c ∈ before.getLast?, CharClass.isNewline c = true := by
  obtain ⟨rest, after, hcs, hrest, hafter⟩ := exists_after cs.reverse
  refine ⟨after.reverse, rest.reverse, ?_, fun c hc => hrest c (List.mem_reverse.1 hc), ?_⟩
  · rw [← List.reverse_append, ← hcs, List.reverse_reverse]
  · rwa [List.getLast?_reverse]

theorem exists_around (front tail : List Char) :
    ∃ before indent rest after, front = before ++ indent ∧ tail = rest ++ after ∧
      Around before indent rest after := by
  obtain ⟨before, indent, hfront, hindent, hbefore⟩ := exists_before front
  obtain ⟨rest, after, htail, hrest, hafter⟩ := exists_after tail
  exact ⟨before, indent, rest, after, hfront, htail, hindent, hrest, hbefore, hafter⟩

/-- A line ends where it is cut. -/
theorem firstLine_append {rest after : List Char} (hrest : InLine rest)
    (hafter : ∀ c ∈ after.head?, CharClass.isNewline c = true) :
    firstLine (rest ++ after) = rest := by
  rw [firstLine, List.takeWhile_append_of_pos fun c hc => by rw [hrest c hc]; rfl]
  cases after with
  | nil => exact List.append_nil rest
  | cons c after =>
    rw [List.takeWhile_cons_of_neg (by simp [hafter c rfl]), List.append_nil]

theorem takeBytes_of_le {n : Nat} {cs : List Char} (h : byteLength cs ≤ n) :
    Text.takeBytes n cs = cs := by
  induction cs generalizing n with
  | nil => rfl
  | cons c cs ih =>
    rw [byteLength] at h
    rw [Text.takeBytes, if_pos (by omega), ih (by omega)]

theorem exists_firstLine_append (cs : List Char) : ∃ more, cs = firstLine cs ++ more :=
  ⟨_, List.takeWhile_append_dropWhile.symm⟩

/-- A text goes on with its line if the line does not end in it. -/
theorem firstLine_cases (marked back : List Char) :
    (firstLine marked = marked ∧ firstLine (marked ++ back) = marked ++ firstLine back) ∨
      firstLine (marked ++ back) = firstLine marked := by
  obtain ⟨rest, after, rfl, hrest, hafter⟩ := exists_after marked
  rw [firstLine_append hrest hafter]
  cases after with
  | nil =>
    left
    rw [List.append_nil]
    exact ⟨rfl, List.takeWhile_append_of_pos fun c hc => by rw [hrest c hc]; rfl⟩
  | cons c after =>
    right
    rw [List.append_assoc]
    exact firstLine_append hrest hafter

/-- The part of a text that is on its first line, whatever follows. -/
theorem takeBytes_firstLine (marked back : List Char) :
    Text.takeBytes (byteLength marked) (firstLine (marked ++ back)) = firstLine marked := by
  rcases firstLine_cases marked back with ⟨hwhole, hline⟩ | hline
  · rw [hline, hwhole, Text.takeBytes_byteLength]
  · obtain ⟨more, hmore⟩ := exists_firstLine_append marked
    have hlength := congrArg byteLength hmore
    rw [byteLength_append] at hlength
    rw [hline]
    exact takeBytes_of_le (by omega)

theorem min_byteLength_firstLine (marked back : List Char) :
    min (byteLength marked) (byteLength (firstLine (marked ++ back))) =
      byteLength (firstLine marked) := by
  rcases firstLine_cases marked back with ⟨hwhole, hline⟩ | hline
  · rw [hline, hwhole, byteLength_append]
    omega
  · obtain ⟨more, hmore⟩ := exists_firstLine_append marked
    have hlength := congrArg byteLength hmore
    rw [byteLength_append] at hlength
    rw [hline]
    omega

/-! ## The caret of a span -/

section

variable {text : String} {span : Span} {front marked back before indent rest after : List Char}

theorem ofSpan_eq (hparts : span.Parts text front marked back) (hfront : front = before ++ indent)
    (htail : marked ++ back = rest ++ after) (h : Around before indent rest after) :
    ofSpan text span = ⟨indent ++ rest, indent.length, max (firstLine marked).length 1⟩ := by
  have hbefore : Text.takeBytes span.start text.toList = front := by
    rw [← hparts.start, hparts.text, Text.takeBytes_byteLength]
  have hafter : Text.dropBytes span.start text.toList = marked ++ back := by
    rw [← hparts.start, hparts.text, Text.dropBytes_byteLength]
  have hindent : (firstLine front.reverse).reverse = indent := by
    rw [hfront, List.reverse_append, firstLine_append, List.reverse_reverse]
    · exact fun c hc => h.indent c (List.mem_reverse.1 hc)
    · rw [List.head?_reverse]
      exact h.before
  have hrest : firstLine (marked ++ back) = rest := by rw [htail, firstLine_append h.rest h.after]
  have hwidth : Text.takeBytes (span.stop - span.start) rest = firstLine marked := by
    rw [← hrest, ← hparts.stop, hparts.start, Nat.add_sub_cancel_left, takeBytes_firstLine]
  have hcaret : ofSpan text span =
      let indent := (firstLine (Text.takeBytes span.start text.toList).reverse).reverse
      let rest := firstLine (Text.dropBytes span.start text.toList)
      ⟨indent ++ rest, indent.length,
        max (Text.takeBytes (span.stop - span.start) rest).length 1⟩ := rfl
  simp only [hcaret, hbefore, hafter, hindent, hwidth, hrest]

/-- How many bytes there are up to and with the last line end. -/
def lastLineEnd? : List Char → Option Nat
  | [] => none
  | c :: cs =>
    match lastLineEnd? cs with
    | some n => some (c.utf8Size + n)
    | none => if CharClass.isNewline c then some c.utf8Size else none

/-- The caret by offsets into the whole text, with each cut checked. -/
def cut (text : String) (span : Span) : Except Failure Caret := do
  let start := min span.start (byteLength text.toList)
  let before ← cutBetween text 0 start
  let lineStart := (lastLineEnd? before).getD 0
  let after ← cutFrom text start
  let lineStop := ((find? atLineEnd after).map (start + ·)).getD (byteLength text.toList)
  let line ← cutBetween text lineStart lineStop
  let indent ← cutBetween text lineStart start
  if span.start = span.stop then
    pure ⟨line, indent.length, 1⟩
  else
    let stop := min (start + (span.stop - span.start)) lineStop
    let marked ← cutBetween text start stop
    pure ⟨line, indent.length, max marked.length 1⟩

theorem lastLineEnd?_of_inLine {indent : List Char} (h : InLine indent) :
    lastLineEnd? indent = none := by
  induction indent with
  | nil => rfl
  | cons c indent ih =>
    rw [lastLineEnd?, ih fun d hd => h d (List.mem_cons_of_mem c hd)]
    simp [h c List.mem_cons_self]

theorem lastLineEnd?_concat (before : List Char) {newline : Char}
    (hnewline : CharClass.isNewline newline = true) {indent : List Char} (h : InLine indent) :
    lastLineEnd? (before ++ newline :: indent) = some (byteLength (before ++ [newline])) := by
  induction before with
  | nil =>
    rw [List.nil_append, lastLineEnd?, lastLineEnd?_of_inLine h]
    simp [hnewline, byteLength]
  | cons c before ih =>
    rw [List.cons_append, lastLineEnd?, ih]
    rfl

/-- The line starts after the last line end. -/
theorem getD_lastLineEnd? (h : Around before indent rest after) :
    (lastLineEnd? (before ++ indent)).getD 0 = byteLength before := by
  rcases List.eq_nil_or_concat before with rfl | ⟨more, newline, rfl⟩
  · rw [List.nil_append, lastLineEnd?_of_inLine h.indent]
    rfl
  · have hnewline := h.before newline (by simp)
    rw [List.concat_eq_append, List.append_assoc, List.singleton_append,
      lastLineEnd?_concat more hnewline h.indent]
    rfl

/-- And it stops before the next one. -/
theorem getD_find?_lineEnd (h : Around before indent rest after) (start : Nat) :
    ((find? atLineEnd (rest ++ after)).map (start + ·)).getD (start + byteLength (rest ++ after)) =
      start + byteLength rest := by
  rw [Token.Cutting.find?_lineEnd h.rest]
  cases after with
  | nil => simp [find?]
  | cons c after =>
    have hc : atLineEnd (c :: after) = true := h.after c rfl
    simp [find?, hc]

/-- What is marked on the line is cut out of it. -/
theorem cutBetween_marked (hparts : span.Parts text front marked back)
    (htail : marked ++ back = rest ++ after) (h : Around before indent rest after) :
    cutBetween text span.start (min span.stop (span.start + byteLength rest)) =
      .ok (firstLine marked) := by
  obtain ⟨more, hmore⟩ := exists_firstLine_append marked
  have hrest : firstLine (marked ++ back) = rest := by rw [htail, firstLine_append h.rest h.after]
  have hmin := min_byteLength_firstLine marked back
  have htext : text.toList = front ++ (firstLine marked ++ (more ++ back)) := by
    rw [hparts.text, ← List.append_assoc (firstLine marked), ← hmore]
  rw [← hparts.stop, hparts.start, Nat.add_min_add_left, ← hrest, hmin, ← hparts.start]
  exact cutBetween_eq htext

/-- No cut fails, and the caret by offsets is the caret. -/
theorem cut_eq (hparts : span.Parts text front marked back) :
    cut text span = .ok (ofSpan text span) := by
  obtain ⟨before, indent, rest, after, hfront, htail, h⟩ := exists_around front (marked ++ back)
  have hlength := congrArg byteLength hparts.text
  rw [byteLength_append, hparts.start, htail] at hlength
  have hstart : min span.start (byteLength text.toList) = span.start := by omega
  have hbefore : cutBetween text 0 span.start = .ok front := by
    have hcut := @cutBetween_eq text [] front (marked ++ back) hparts.text
    rwa [show byteLength [] = 0 from rfl, Nat.zero_add, hparts.start] at hcut
  have hlineStart := getD_lastLineEnd? h
  have hafter : cutFrom text span.start = .ok (marked ++ back) := by
    rw [← hparts.start]
    exact cutFrom_eq hparts.text
  have hlineStop := getD_find?_lineEnd h span.start
  have hindent : cutBetween text (byteLength before) span.start = .ok indent := by
    have hcut := @cutBetween_eq text before indent (marked ++ back) (by simp [hparts.text, hfront])
    rwa [← byteLength_append, ← hfront, hparts.start] at hcut
  have hline : cutBetween text (byteLength before) (span.start + byteLength rest) =
      .ok (indent ++ rest) := by
    have hcut := @cutBetween_eq text before (indent ++ rest) after
      (by simp [hparts.text, hfront, htail])
    rwa [← byteLength_append, ← List.append_assoc, ← hfront, byteLength_append, hparts.start]
      at hcut
  have hmarked := cutBetween_marked hparts htail h
  have hordered : span.start + (span.stop - span.start) = span.stop := by
    have hstop := hparts.stop
    rw [hparts.start] at hstop
    omega
  rw [← hfront] at hlineStart
  rw [← hlength, ← htail] at hlineStop
  simp only [cut, hstart, hbefore, hafter, hlineStart, hlineStop, hline, hindent, hordered, hmarked,
    ofSpan_eq hparts hfront htail h, bind, Except.bind, pure, Except.pure]
  split
  · rename_i hempty
    have hstop := hparts.stop
    rw [hparts.start] at hstop
    obtain rfl : marked = [] := Text.eq_nil_of_byteLength (by omega)
    rfl
  · rfl

/-! ## What is marked -/

/-- The line goes up to the nearest line ends, and the marks are under the characters of the span
that stand on it, or at one place if there are none. -/
structure Shows (caret : Caret) (front marked back : List Char) : Prop where
  line : ∃ before after, front = before ++ caret.line.take caret.column ∧
    marked ++ back = caret.line.drop caret.column ++ after ∧
    (∀ c ∈ before.getLast?, CharClass.isNewline c = true) ∧
    ∀ c ∈ after.head?, CharClass.isNewline c = true
  inLine : InLine caret.line
  column : caret.column ≤ caret.line.length
  width : caret.width = max (firstLine marked).length 1
  ends : caret.column + caret.width ≤ caret.line.length + 1
  marks : (caret.line.drop caret.column).take caret.width = firstLine marked

theorem firstLine_ne_nil (hhead : ∀ c ∈ marked.head?, CharClass.isNewline c = false)
    (hne : marked ≠ []) : firstLine marked ≠ [] := by
  obtain ⟨c, more, rfl⟩ := List.exists_cons_of_ne_nil hne
  rw [firstLine, List.takeWhile_cons_of_pos (by simp [hhead c rfl])]
  exact List.cons_ne_nil _ _

/-- As much of the line as is marked. -/
theorem take_firstLine (hhead : ∀ c ∈ marked.head?, CharClass.isNewline c = false)
    (hend : marked = [] → back = []) :
    (firstLine (marked ++ back)).take (max (firstLine marked).length 1) = firstLine marked ∧
      max (firstLine marked).length 1 ≤ (firstLine (marked ++ back)).length + 1 := by
  by_cases hne : marked = []
  · rw [hend hne, hne]
    exact ⟨rfl, Nat.le_refl 1⟩
  · have hpos := List.length_pos_iff.2 (firstLine_ne_nil hhead hne)
    rw [Nat.max_eq_left hpos]
    rcases firstLine_cases marked back with ⟨hwhole, hline⟩ | hline
    · rw [hline, hwhole, List.take_left, List.length_append]
      exact ⟨rfl, by omega⟩
    · rw [hline, List.take_length]
      exact ⟨rfl, Nat.le_succ _⟩

theorem shows_ofSpan (hparts : span.Parts text front marked back)
    (hhead : ∀ c ∈ marked.head?, CharClass.isNewline c = false) (hend : marked = [] → back = []) :
    (ofSpan text span).Shows front marked back := by
  obtain ⟨before, indent, rest, after, hfront, htail, h⟩ := exists_around front (marked ++ back)
  obtain ⟨hmarks, hends⟩ := take_firstLine hhead hend
  rw [htail, firstLine_append h.rest h.after] at hmarks hends
  rw [ofSpan_eq hparts hfront htail h]
  refine ⟨⟨before, after, ?_, ?_, h.before, h.after⟩, ?_, ?_, rfl, ?_, ?_⟩
  · rw [List.take_left, hfront]
  · rw [List.drop_left, htail]
  · exact fun c hc => (List.mem_append.1 hc).elim (h.indent c) (h.rest c)
  · simp
  · simp only [List.length_append]
    omega
  · rw [List.drop_left, hmarks]

end

/-- The caret of an error is found without a cut inside a character. Its line is the text around the
start of the span up to the nearest line ends, its column the number of characters before the span
on that line, and the marks are under the characters of the span on that line, of which there is at
least one unless the span is the end of the text. -/
theorem caret_of_error {text : String} {e : ExpressionError} {span : Span}
    (h : Expression.parse text = .error e) (hspan : e.span? = some span) :
    cut text span = .ok (ofSpan text span) ∧
      ∃ front marked back, span.Parts text front marked back ∧
        (ofSpan text span).Shows front marked back ∧ (marked = [] → back = []) ∧
        (marked ≠ [] → (ofSpan text span).width = (firstLine marked).length) := by
  obtain ⟨front, marked, back, hparts, hhead, hend⟩ :=
    (startsOnLine_of_parse h hspan).exists_parts
  have hshows := shows_ofSpan hparts hhead hend
  refine ⟨cut_eq hparts, front, marked, back, hparts, hshows, hend, fun hne => ?_⟩
  rw [hshows.width]
  exact Nat.max_eq_left (List.length_pos_iff.2 (firstLine_ne_nil hhead hne))

/-- A clause out of order that goes on after a comment; the characters before it take two bytes. -/
theorem caret_of_error_on_two_lines :
    let text := "[0,1] & // 0\n/* éé */ [3, // 3\n2]"
    (∃ interval, Expression.parse text = .error (.order 1 interval ⟨24, 35⟩)) ∧
      cut text ⟨24, 35⟩ = .ok (ofSpan text ⟨24, 35⟩) ∧
      (ofSpan text ⟨24, 35⟩).text = "  /* éé */ [3, // 3\n           ^^^^^^^^\n" := by
  intro text
  have herror : Expression.parse text =
      .error (.order 1 ⟨.ofNat 3, true, .ofNat 2, true⟩ ⟨24, 35⟩) := by
    decide +kernel
  exact ⟨⟨_, herror⟩, (caret_of_error herror rfl).1, by decide +kernel⟩

end Caret

end IntervalRules
