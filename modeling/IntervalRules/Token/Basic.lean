import IntervalRules.Token.CharClass
import IntervalRules.Text.Offset
import IntervalRules.Text.Quoted

/-!
Tokens of range expressions, where they stand in the text, and what can be wrong with a
text that has no token at some place.
-/

namespace IntervalRules

/-- The bytes from `start` up to but not including `stop`. -/
structure Span where
  start : Nat
  stop : Nat
  deriving DecidableEq

def Span.text (s : Span) : String := toString s.start ++ ".." ++ toString s.stop

namespace Punctuation

def char : Punctuation → Char
  | .openParen => '('
  | .closeParen => ')'
  | .openBracket => '['
  | .closeBracket => ']'
  | .comma => ','
  | .union => '&'

end Punctuation

inductive TokenKind where
  | number (literal : Literal)
  | punctuation (p : Punctuation)
  | minus
  | plus
  | endOfInput
  deriving DecidableEq

/-- The name of a token in messages. -/
def TokenKind.text : TokenKind → String
  | .number literal => "number " ++ literal.text
  | .punctuation p => Text.quotedChar p.char
  | .minus => Text.quotedChar '-'
  | .plus => Text.quotedChar '+'
  | .endOfInput => "end of input"

structure Token where
  kind : TokenKind
  span : Span
  deriving DecidableEq

/-- What makes a number malformed. -/
inductive NumberFault where
  | noDigits
  | noRadixDigits
  | decimalSuffixOnRadix
  | noExponentDigits
  | octalWithFraction
  | bigInteger
  | decimal
  | unreadable
  deriving DecidableEq

def NumberFault.text : NumberFault → String
  | .noDigits => "expected digits"
  | .noRadixDigits => "expected digits after radix prefix"
  | .decimalSuffixOnRadix => "decimal suffix is not allowed on a radix literal"
  | .noExponentDigits => "missing exponent digits"
  | .octalWithFraction => "legacy octal literal cannot have a fraction or exponent"
  | .bigInteger => "invalid big integer literal"
  | .decimal => "invalid decimal literal"
  | .unreadable => "invalid number"

/-- Why no token could be read. Positions are byte offsets. -/
inductive TokenError where
  | unexpectedChar (c : Char) (pos : Nat)
  | unterminatedComment (start : Nat)
  | malformedNumber (span : Span) (fault : NumberFault)
  | invalidDigit (c : Char) (radix : Radix) (pos : Nat)
  | misplacedSeparator (pos : Nat)
  | identifierAfterNumber (c : Char) (pos : Nat)
  deriving DecidableEq

namespace TokenError

/-- The part of the text that is at fault. -/
def span : TokenError → Span
  | .unexpectedChar c pos | .invalidDigit c _ pos | .identifierAfterNumber c pos =>
    ⟨pos, pos + c.utf8Size⟩
  | .unterminatedComment start => ⟨start, start + 2⟩
  | .malformedNumber span _ => span
  | .misplacedSeparator pos => ⟨pos, pos + 1⟩

def message : TokenError → String
  | .unexpectedChar c pos =>
    "unexpected character " ++ Text.quotedChar c ++ " at " ++ toString pos
  | .unterminatedComment start =>
    "unterminated block comment starting at " ++ toString start
  | .malformedNumber span fault => "malformed number at " ++ span.text ++ ": " ++ fault.text
  | .invalidDigit c radix pos =>
    "invalid digit " ++ Text.quotedChar c ++ " for base " ++ toString radix.base ++ " at " ++
      toString pos
  | .misplacedSeparator pos => "numeric separator not allowed at " ++ toString pos
  | .identifierAfterNumber c pos =>
    "identifier character " ++ Text.quotedChar c ++ " directly after number at " ++ toString pos

end TokenError

end IntervalRules
