import IntervalRules.Token.Reader
import IntervalRules.Proofs.Positions
import IntervalRules.Proofs.Relocation

/-!
The rest of a text is all that counts. What is read after an offset is what is read at the start of
the text that is left there, as many bytes further on: with the text behind some front, each step of
a reader and each run of it is the same. At an offset that is not between two characters nothing is
left.
-/

namespace IntervalRules

open Text (byteLength suffixAt?)

theorem Text.suffixAt?_add_byteLength (front back : List Char) (offset : Nat) :
    suffixAt? (offset + byteLength front) (front ++ back) = suffixAt? offset back := by
  induction front with
  | nil => rfl
  | cons c front ih =>
    have hpos := Char.utf8Size_pos c
    obtain ⟨n, hn⟩ : ∃ n, offset + byteLength (c :: front) = n + 1 := by
      refine ⟨offset + byteLength (c :: front) - 1, ?_⟩
      rw [byteLength]
      omega
    have hrest : n + 1 - c.utf8Size = offset + byteLength front := by
      rw [byteLength] at hn
      omega
    rw [byteLength] at hn
    rw [byteLength, hn, List.cons_append, suffixAt?, if_pos (by omega), hrest, ih]

namespace Token

section

variable (front rest : String)

/-- A token is the same behind a front, as much further on as the front is long. The offset may be
one that is not between two characters. -/
theorem next_append (offset : Nat) :
    next (front ++ rest) (offset + byteLength front.toList) =
      relocateItem (Span.shift (byteLength front.toList)) (next rest offset) := by
  unfold next
  rw [String.toList_append, Text.suffixAt?_add_byteLength]
  cases suffixAt? offset rest.toList with
  | none => rfl
  | some cs =>
    dsimp only
    rw [scan_shift]
    cases scan offset cs with
    | error e => rfl
    | ok r => rfl

/-! ## The scanner by offsets -/

/-- The failure `d` bytes later. -/
def Cutting.Failure.shift (d : Nat) : Failure → Failure
  | .cut offset => .cut (offset + d)
  | .token e => .token (e.relocate (Span.shift d))

theorem Cutting.outcome_shift (d : Nat) (x : Except TokenError Token) :
    outcome (relocateItem (Span.shift d) x) =
      mapBoth (Failure.shift d) (Token.relocate (Span.shift d)) (outcome x) := by
  cases x with
  | error e => rfl
  | ok t => rfl

theorem Cutting.next_append (offset : Nat) :
    Cutting.next (front ++ rest) (offset + byteLength front.toList) =
      mapBoth (Failure.shift (byteLength front.toList))
        (Token.relocate (Span.shift (byteLength front.toList))) (Cutting.next rest offset) := by
  rw [Cutting.next_eq, Cutting.next_eq, Token.next_append, outcome_shift]

end

/-! ## Readers -/

namespace Reader

/-- The reader where its text stands behind a front. -/
def behind (front : String) (r : Reader) : Reader :=
  ⟨front ++ r.text, r.offset + byteLength front.toList, r.done⟩

/-- One step: the item is as much further on as the front is long, and so is the reader after it. -/
theorem next_behind (front : String) (r : Reader) :
    (r.behind front).next =
      (r.next.1.map (relocateItem (Span.shift (byteLength front.toList))),
        r.next.2.behind front) := by
  obtain ⟨text, offset, done⟩ := r
  cases done with
  | true => rfl
  | false =>
    simp only [behind, next, Token.next_append]
    cases Token.next text offset with
    | error e => rfl
    | ok t => rfl

/-- A run. -/
theorem nth_behind (front : String) (r : Reader) (n : Nat) :
    (r.behind front).nth n =
      (r.nth n).map (relocateItem (Span.shift (byteLength front.toList))) := by
  induction n generalizing r with
  | zero => rw [nth, nth, next_behind]
  | succ n ih => rw [nth, nth, next_behind, ih]

theorem behind_ofText (front rest : String) :
    (ofText rest).behind front = ⟨front ++ rest, byteLength front.toList, false⟩ := by
  simp only [behind, ofText, Nat.zero_add]

end Reader

/-- What is read after an offset depends on the rest of the text alone. Where the text is a front
and a rest, with the offset between them, the token or the error after the offset is the first one
of the rest, with its position or span moved on by the offset and all else the same; so it is for
the scanner that cuts the whole text at offsets; a reader at the offset takes the step that a reader
of the rest takes, to a place as much further on, and its items from there are the reader's of the
rest. At any other offset there is the end of the input, with nothing in its span, and a reader
stays where it is. -/
theorem next_of_rest (text : String) (offset : Nat) :
    (∀ front rest : String, text = front ++ rest → byteLength front.toList = offset →
      next text offset = relocateItem (Span.shift offset) (next rest 0) ∧
      Cutting.next text offset =
        mapBoth (Cutting.Failure.shift offset) (Token.relocate (Span.shift offset))
          (Cutting.next rest 0) ∧
      (Reader.mk text offset false).next =
        ((Reader.ofText rest).next.1.map (relocateItem (Span.shift offset)),
          (Reader.ofText rest).next.2.behind front) ∧
      ∀ n, (Reader.mk text offset false).nth n =
        ((Reader.ofText rest).nth n).map (relocateItem (Span.shift offset))) ∧
    (¬ Text.Boundary text offset →
      next text offset = .ok ⟨.endOfInput, ⟨offset, offset⟩⟩ ∧
      Cutting.next text offset = .ok ⟨.endOfInput, ⟨offset, offset⟩⟩ ∧
      (Reader.mk text offset false).next =
        (some (.ok ⟨.endOfInput, ⟨offset, offset⟩⟩), ⟨text, offset, true⟩)) := by
  constructor
  · rintro front rest rfl rfl
    have hnext := next_append front rest 0
    have hcutting := Cutting.next_append front rest 0
    rw [Nat.zero_add] at hnext hcutting
    refine ⟨hnext, hcutting, ?_, fun n => ?_⟩
    · rw [← Reader.behind_ofText, Reader.next_behind]
    · rw [← Reader.behind_ofText, Reader.nth_behind]
  · intro hboundary
    have hnext := next_of_not_boundary hboundary
    refine ⟨hnext, ?_, ?_⟩
    · rw [Cutting.next_eq, hnext, Cutting.outcome_ok]
    · simp [Reader.next, hnext]

/-- The misplaced separator of `1__0` is three bytes further on behind `é,`; inside the `é`
there is nothing to read. -/
theorem next_of_rest_separators :
    (("é,1__0" = "é," ++ "1__0" ∧ byteLength "é,".toList = 3) ∧
      next "1__0" 0 = .error (.misplacedSeparator 1) ∧
      next "é,1__0" 3 = .error (.misplacedSeparator 4)) ∧
    ¬ Text.Boundary "é,1__0" 1 ∧ next "é,1__0" 1 = .ok ⟨.endOfInput, ⟨1, 1⟩⟩ := by
  have hfront : "é,1__0" = "é," ++ "1__0" := by decide +kernel
  have hoffset : byteLength "é,".toList = 3 := by decide +kernel
  have hrest : next "1__0" 0 = .error (.misplacedSeparator 1) := by decide +kernel
  have hnone : suffixAt? 1 "é,1__0".toList = none := by decide +kernel
  have hboundary : ¬ Text.Boundary "é,1__0" 1 := by
    rw [Text.boundary_iff, hnone]
    rintro ⟨cs, hcs⟩
    cases hcs
  have hnext := ((next_of_rest "é,1__0" 3).1 "é," "1__0" hfront hoffset).1
  refine ⟨⟨⟨hfront, hoffset⟩, hrest, ?_⟩, hboundary, ((next_of_rest "é,1__0" 1).2 hboundary).1⟩
  rw [hnext, hrest]
  rfl

end Token

end IntervalRules
