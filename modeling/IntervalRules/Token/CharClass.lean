import IntervalRules.Text.Alphabetic
import IntervalRules.Literal.Basic

/-!
The classes of characters that the token scanner tells apart.
-/

namespace IntervalRules

/-- The characters that structure an expression; `&` joins clauses. -/
inductive Punctuation where
  | openParen
  | closeParen
  | openBracket
  | closeBracket
  | comma
  | union
  deriving DecidableEq

inductive CharClass where
  | digit
  /-- A letter of a radix mark, an exponent mark or a suffix. -/
  | numericMark
  | space
  | newline
  | punctuation (p : Punctuation)
  | sign
  | other
  deriving DecidableEq

namespace CharClass

/-- The blank characters that do not end a line, the byte order mark among them. -/
def isSpace (c : Char) : Bool :=
  let code := c.toNat
  code == 0x9 || code == 0xb || code == 0xc || code == 0x20 || code == 0xa0 ||
    code == 0x1680 || (0x2000 ≤ code && code ≤ 0x200a) || code == 0x202f ||
    code == 0x205f || code == 0x3000 || code == 0xfeff

def isNewline (c : Char) : Bool :=
  c == '\n' || c == '\r' || c == '\u2028' || c == '\u2029'

def isIdentifierStart (c : Char) : Bool :=
  Text.isAlphabetic c || c == '_' || c == '$'

def isNumericMark (c : Char) : Bool :=
  ['x', 'X', 'o', 'O', 'b', 'B', 'n', 'm', 'e', 'E'].contains c

def punctuation? : Char → Option Punctuation
  | '(' => some .openParen
  | ')' => some .closeParen
  | '[' => some .openBracket
  | ']' => some .closeBracket
  | ',' => some .comma
  | '&' => some .union
  | _ => none

/-- The class of a character. -/
def of (c : Char) : CharClass :=
  if Text.isDigit 10 c then .digit
  else if isNumericMark c then .numericMark
  else if c = '+' ∨ c = '-' then .sign
  else if isNewline c then .newline
  else if isSpace c then .space
  else (punctuation? c).elim .other .punctuation

end CharClass

end IntervalRules
