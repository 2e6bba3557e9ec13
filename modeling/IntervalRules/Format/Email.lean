import IntervalRules.Text.Alphabetic
import IntervalRules.Text.Digits

/-!
Email addresses: a mailbox, an `@`, and labels joined by points. A label is 1 to 63
letters, digits and hyphens of ASCII, with no hyphen at either end. The domain is read in
one pass that remembers only how long the current label is and whether it ends in a hyphen.
-/

namespace IntervalRules.Format

def isAsciiAlphanumeric (c : Char) : Bool := Text.isAsciiLetter c || Text.isDigit 10 c

/-- The characters of a mailbox name. -/
def isMailboxChar (c : Char) : Bool :=
  isAsciiAlphanumeric c || ".!#$%&'*+/=?^_`\x7b|\x7d~-".toList.contains c

/-- Whether the text continues a label of `length` characters to the end of a domain. -/
def continuesDomain (length : Nat) (afterHyphen : Bool) : List Char → Bool
  | [] => 0 < length && !afterHyphen
  | c :: rest =>
    if c = '.' then 0 < length && !afterHyphen && continuesDomain 0 false rest
    else if c = '-' then 0 < length && length < 63 && continuesDomain (length + 1) true rest
    else isAsciiAlphanumeric c && length < 63 && continuesDomain (length + 1) false rest

def isEmail (cs : List Char) : Bool :=
  let mailbox := cs.takeWhile isMailboxChar
  match cs.dropWhile isMailboxChar with
  | '@' :: domain => mailbox != [] && continuesDomain 0 false domain
  | _ => false

example : isEmail "a.b+c@example.co".toList := by decide

example : ¬ isEmail "a@b-.co".toList := by decide

end IntervalRules.Format
