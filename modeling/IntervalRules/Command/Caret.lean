import IntervalRules.Token.Basic

/-!
Where to point in a text of several lines: the line on which a span starts, and the
columns of that line that the span covers.
-/

namespace IntervalRules

structure Caret where
  line : List Char
  column : Nat
  width : Nat

namespace Caret

private def sameLine (c : Char) : Bool := !CharClass.isNewline c

/-- The caret for a span of a text. It covers at least one column. -/
def ofSpan (text : String) (span : Span) : Caret :=
  let before := Text.takeBytes span.start text.toList
  let after := Text.dropBytes span.start text.toList
  let lineStart := (before.reverse.takeWhile sameLine).reverse
  let lineRest := after.takeWhile sameLine
  let marked := Text.takeBytes (span.stop - span.start) lineRest
  ⟨lineStart ++ lineRest, lineStart.length, max marked.length 1⟩

/-- The line, and below it the marks under the columns. -/
def text (c : Caret) : String :=
  "  " ++ String.ofList c.line ++ "\n  " ++ String.ofList (List.replicate c.column ' ') ++
    String.ofList (List.replicate c.width '^') ++ "\n"

end Caret

example : (Caret.ofSpan "[0,1] &\n[3,2]" ⟨8, 13⟩).text = "  [3,2]\n  ^^^^^\n" := by decide +kernel

end IntervalRules
