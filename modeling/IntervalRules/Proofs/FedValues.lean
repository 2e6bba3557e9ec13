import IntervalRules.Proofs.Commands
import IntervalRules.Proofs.InputLines
import IntervalRules.Proofs.Trimming

/-!
Values as arguments and on the input. An input feeds values if each stands on a line of its own, in
front of the carriage returns there may be at its end, with blank lines anywhere between them. The
values that are read from an input are those that it feeds, and a check goes the same way with them
as with the values themselves.
-/

namespace IntervalRules.Command

open Text (isBlank isBlankText dropEnd)

/-- What a line can hand over as a value. -/
structure IsLineValue (value : String) : Prop where
  not_blank : isBlankText value = false
  not_mem : '\n' ∉ value.toList
  last : value.toList.getLast? ≠ some '\r'

structure IsBlankLine (line : List Char) : Prop where
  not_mem : '\n' ∉ line
  blank : ∀ c ∈ line, isBlank c = true

/-- A text that has the values on its lines. The last line may be without a line feed. -/
inductive Feeds : List String → List Char → Prop
  | ended {line : List Char} (hline : IsBlankLine line) : Feeds [] line
  | last (value : String) (returns : Nat) :
      Feeds [value] (value.toList ++ List.replicate returns '\r')
  | blank {line rest : List Char} {values : List String} (hline : IsBlankLine line) :
      Feeds values rest → Feeds values (line ++ '\n' :: rest)
  | value (value : String) (returns : Nat) {rest : List Char} {values : List String} :
      Feeds values rest →
        Feeds (value :: values) (value.toList ++ List.replicate returns '\r' ++ '\n' :: rest)

/-! ## Lines -/

theorem dropEnd_returns {value : List Char} (hlast : value.getLast? ≠ some '\r') (returns : Nat) :
    dropEnd (· == '\r') (value ++ List.replicate returns '\r') = value := by
  have hnone : dropEnd (· == '\r') (List.replicate returns '\r') = [] := by
    refine List.rdropWhile_eq_nil_iff.2 fun c hc => ?_
    rw [List.eq_of_mem_replicate hc]
    rfl
  rw [Text.dropEnd_append, hnone, List.append_nil]
  intro c hc
  rw [beq_eq_false_iff_ne]
  rintro rfl
  exact hlast hc

theorem lineValue?_returns {value : String} (h : IsLineValue value) (returns : Nat) :
    lineValue? (String.ofList (value.toList ++ List.replicate returns '\r')) = some value := by
  rw [lineValue?, String.toList_ofList, dropEnd_returns h.last, String.ofList_toList]
  simp [h.not_blank]

theorem lineValue?_blank {line : List Char} (h : IsBlankLine line) :
    lineValue? (String.ofList line) = none := by
  have hblank : isBlankText (String.ofList (dropEnd (· == '\r') line)) = true := by
    rw [isBlankText, String.toList_ofList, List.all_eq_true]
    exact fun c hc => h.blank c ((Text.dropEnd_prefix line).subset hc)
  rw [lineValue?, String.toList_ofList]
  simp [hblank]

/-- A line is blank, or has a value with carriage returns after it. -/
theorem isBlankLine_or_exists_value {line : List Char} (hline : '\n' ∉ line) :
    IsBlankLine line ∨ ∃ value returns, IsLineValue value ∧
      line = value.toList ++ List.replicate returns '\r' := by
  obtain ⟨tail, hsplit, htail⟩ := @Text.exists_dropEnd (· == '\r') line
  have hreturns : tail = List.replicate tail.length '\r' :=
    List.eq_replicate_of_mem fun c hc => beq_iff_eq.1 (htail c hc)
  by_cases hblank : isBlankText (String.ofList (dropEnd (· == '\r') line)) = true
  · refine .inl ⟨hline, fun c hc => ?_⟩
    rw [isBlankText, String.toList_ofList, List.all_eq_true] at hblank
    rw [hsplit] at hc
    rcases List.mem_append.1 hc with hc | hc
    · exact hblank c hc
    · rw [beq_iff_eq.1 (htail c hc)]
      decide
  · refine .inr ⟨String.ofList (dropEnd (· == '\r') line), tail.length, ⟨?_, ?_, ?_⟩, ?_⟩
    · exact Bool.eq_false_iff.2 hblank
    · rw [String.toList_ofList]
      exact fun hmem => hline ((Text.dropEnd_prefix line).subset hmem)
    · rw [String.toList_ofList]
      intro hlast
      have hstays := Text.getLast?_dropEnd line '\r' hlast
      exact absurd hstays (by decide)
    · rw [String.toList_ofList, ← hreturns]
      exact hsplit

/-! ## Inputs -/

theorem valueLines_ofList (cs : List Char) :
    valueLines (String.ofList cs) =
      (Text.split '\n' cs).filterMap fun line => lineValue? (String.ofList line) := by
  rw [valueLines, String.toList_ofList]

theorem not_mem_returns {value : String} (h : IsLineValue value) (returns : Nat) :
    '\n' ∉ value.toList ++ List.replicate returns '\r' := by
  rw [List.mem_append, not_or]
  refine ⟨h.not_mem, fun hmem => ?_⟩
  have hne := List.eq_of_mem_replicate hmem
  revert hne
  decide

/-- The values that a text feeds are read from it. -/
theorem valueLines_of_feeds {values : List String} {cs : List Char} (h : Feeds values cs)
    (hvalues : ∀ value ∈ values, IsLineValue value) :
    valueLines (String.ofList cs) = values := by
  rw [valueLines_ofList]
  induction h with
  | ended hline =>
    rw [Text.split_of_not_mem hline.not_mem, List.filterMap_cons, lineValue?_blank hline]
    rfl
  | last value returns =>
    have hvalue := hvalues value List.mem_cons_self
    rw [Text.split_of_not_mem (not_mem_returns hvalue returns), List.filterMap_cons,
      lineValue?_returns hvalue]
    rfl
  | blank hline _ ih =>
    rw [Text.split_append hline.not_mem, List.filterMap_cons, lineValue?_blank hline]
    exact ih hvalues
  | value value returns _ ih =>
    obtain ⟨hvalue, hvalues⟩ := List.forall_mem_cons.1 hvalues
    rw [Text.split_append (not_mem_returns hvalue returns), List.filterMap_cons,
      lineValue?_returns hvalue]
    dsimp only
    rw [ih hvalues]

theorem feeds_lines {line : List Char} {lines : List (List Char)}
    (hlines : ∀ l ∈ line :: lines, '\n' ∉ l) :
    Feeds ((line :: lines).filterMap fun l => lineValue? (String.ofList l))
      (['\n'].intercalate (line :: lines)) := by
  induction lines generalizing line with
  | nil =>
    rw [List.intercalate_singleton, List.filterMap_cons]
    rcases isBlankLine_or_exists_value (hlines line List.mem_cons_self) with
      hline | ⟨value, returns, hvalue, rfl⟩
    · rw [lineValue?_blank hline]
      exact .ended hline
    · rw [lineValue?_returns hvalue]
      exact .last value returns
  | cons second lines ih =>
    obtain ⟨hline, hrest⟩ := List.forall_mem_cons.1 hlines
    rw [List.intercalate_cons_cons, List.append_assoc, List.singleton_append,
      List.filterMap_cons]
    rcases isBlankLine_or_exists_value hline with hline | ⟨value, returns, hvalue, rfl⟩
    · rw [lineValue?_blank hline]
      exact .blank hline (ih hrest)
    · rw [lineValue?_returns hvalue]
      exact .value value returns (ih hrest)

/-- A text feeds the values that are read from it, and no others. -/
theorem feeds_iff (values : List String) (text : String) :
    Feeds values text.toList ∧ (∀ value ∈ values, IsLineValue value) ↔
      valueLines text = values := by
  constructor
  · rintro ⟨h, hvalues⟩
    rw [← valueLines_of_feeds h hvalues, String.ofList_toList]
  · rintro rfl
    have hlines {line : List Char} : line ∈ Text.split '\n' text.toList → '\n' ∉ line :=
      Text.not_mem_of_mem_split
    constructor
    · obtain ⟨line, lines, hsplit⟩ := List.exists_cons_of_ne_nil
        (Text.split_ne_nil '\n' text.toList)
      have hfeeds := feeds_lines fun l hl => hlines (hsplit ▸ hl)
      rwa [← hsplit, Text.intercalate_split] at hfeeds
    · intro value hvalue
      obtain ⟨line, hline, hread⟩ := List.mem_filterMap.1 hvalue
      rcases isBlankLine_or_exists_value (hlines hline) with
        hblank | ⟨value', returns, hvalue', rfl⟩
      · rw [lineValue?_blank hblank] at hread
        cases hread
      · rw [lineValue?_returns hvalue'] at hread
        exact Option.some.inj hread ▸ hvalue'

/-! ## Checking -/

theorem readValues_of_feeds {given values : List String} {text : String}
    (hgiven : areFromInput given = true) (h : Feeds values text.toList)
    (hvalues : ∀ value ∈ values, IsLineValue value) :
    readValues given text.toUTF8 = .ok values := by
  have htext : String.fromUTF8? text.toUTF8 = some text := dif_pos text.isValidUTF8
  rw [readValues, if_pos hgiven, readLines_split, htext]
  exact congrArg _ ((feeds_iff values text).1 ⟨h, hvalues⟩)

/-- Whatever is read from an input is the value of a line. -/
theorem isLineValue_of_readValues {given taken : List String} {input : ByteArray}
    (hgiven : areFromInput given = true) (h : readValues given input = .ok taken) :
    ∀ value ∈ taken, IsLineValue value := by
  rw [readValues, if_pos hgiven, readLines_split] at h
  split at h
  · rename_i text _
    exact ((feeds_iff taken text).2 (Except.ok.inj h)).2
  · cases h

theorem run_check_congr {values given : List String} {input input' : ByteArray}
    (h : readValues values input = readValues given input') (source : String) (length json : Bool) :
    Invocation.run ⟨.check source values length, json⟩ input =
      Invocation.run ⟨.check source given length, json⟩ input' := by
  have hperform : perform (.check source values length) input =
      perform (.check source given length) input' := by
    rw [perform, perform, h]
  rw [Invocation.run, Invocation.run, hperform]

/-- Values are checked alike whether they are given as arguments or fed on the input. What is read
from an input is not blank, and does not end in a carriage return. -/
theorem check_fed_values {values : List String} {text : String}
    (hvalues : ∀ value ∈ values, IsLineValue value) (hne : values ≠ []) (hdash : values ≠ ["-"])
    (htext : Feeds values text.toList) (input : ByteArray) :
    readValues values input = .ok values ∧
      ∀ given, areFromInput given = true →
        readValues given text.toUTF8 = .ok values ∧
        (∀ source length json, Invocation.run ⟨.check source values length, json⟩ input =
          Invocation.run ⟨.check source given length, json⟩ text.toUTF8) ∧
        ∀ taken, readValues given input = .ok taken → ∀ value ∈ taken, IsLineValue value := by
  have hread : readValues values input = .ok values := by
    rw [readValues, if_neg]
    simp [areFromInput, hne, hdash]
  refine ⟨hread, fun given hgiven => ?_⟩
  have hfed := readValues_of_feeds hgiven htext hvalues
  refine ⟨hfed, fun source length json => ?_, fun taken => isLineValue_of_readValues hgiven⟩
  exact run_check_congr (hread.trans hfed.symm) source length json

/-- Blank lines of several kinds, a value with a carriage return in it, and no line end after it. -/
theorem check_fed_values_mixed :
    Feeds ["5", " x\ry"] "\n5\r\n\u3000\t\r\n x\ry".toList ∧
      (∀ value ∈ ["5", " x\ry"], IsLineValue value) ∧
      readValues ["5", " x\ry"] .empty = .ok ["5", " x\ry"] ∧
      readValues [] "\n5\r\n\u3000\t\r\n x\ry".toUTF8 = .ok ["5", " x\ry"] ∧
      Invocation.run ⟨.check "[0,10)" ["5", " x\ry"] false, true⟩ .empty =
        Invocation.run ⟨.check "[0,10)" [] false, true⟩ "\n5\r\n\u3000\t\r\n x\ry".toUTF8 := by
  obtain ⟨htext, hvalues⟩ :=
    (feeds_iff ["5", " x\ry"] "\n5\r\n\u3000\t\r\n x\ry").2 (by decide +kernel)
  obtain ⟨hread, hfed⟩ := check_fed_values hvalues (by decide) (by decide) htext .empty
  obtain ⟨hinput, hrun, -⟩ := hfed [] rfl
  exact ⟨htext, hvalues, hread, hinput, hrun "[0,10)" false true⟩

end IntervalRules.Command
