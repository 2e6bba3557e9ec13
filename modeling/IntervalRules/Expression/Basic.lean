import IntervalRules.Interval
import IntervalRules.Token.Stream

/-!
Range expressions: unions of intervals, with the errors of texts that are none.
-/

namespace IntervalRules

/-- A union of intervals, in the order in which they were written. -/
structure Expression where
  intervals : List Interval
  deriving DecidableEq

namespace Expression

def contains (e : Expression) (x : Binary64) : Bool := e.intervals.any (·.contains x)

/-- The canonical text. -/
def text (e : Expression) : String := " & ".intercalate (e.intervals.map Interval.text)

/-- Clause by clause equality with the bounds taken as numbers. -/
def agrees (e f : Expression) : Bool :=
  e.intervals.length == f.intervals.length &&
    (e.intervals.zip f.intervals).all fun (i, j) => i.agrees j

end Expression

/-- What a token should have been. -/
inductive Expected where
  | unionOrEnd
  | opener
  | comma
  | closer
  | number
  deriving DecidableEq

def Expected.text : Expected → String
  | .unionOrEnd => "'&' or end of input"
  | .opener => "'(' or '['"
  | .comma => "','"
  | .closer => "')' or ']'"
  | .number => "number"

/-- Why a text is no range expression. -/
inductive ExpressionError where
  | token (e : TokenError)
  | empty
  | unexpected (expected : Expected) (found : TokenKind) (span : Span)
  /-- The bounds of a clause are not in order; clauses count from zero. -/
  | order (index : Nat) (interval : Interval) (span : Span)
  deriving DecidableEq

namespace ExpressionError

/-- The part of the text that is at fault; an empty expression has none. -/
def span? : ExpressionError → Option Span
  | .token e => some e.span
  | .empty => none
  | .unexpected _ _ span => some span
  | .order _ _ span => some span

def message : ExpressionError → String
  | .token e => e.message
  | .empty => "empty range expression"
  | .unexpected expected found span =>
    "expected " ++ expected.text ++ ", found " ++ found.text ++ " at " ++ span.text
  | .order index interval _ =>
    "Range Error at " ++ toString index ++ " for " ++ interval.text

end ExpressionError

end IntervalRules
