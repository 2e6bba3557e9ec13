/-!
The Unicode property White_Space, and trimming by it.
-/

namespace IntervalRules.Text

/-- Whether a character has the property White_Space. -/
def isBlank (c : Char) : Bool :=
  let code := c.toNat
  (0x9 ≤ code && code ≤ 0xd) || code == 0x20 || code == 0x85 || code == 0xa0 ||
    code == 0x1680 || (0x2000 ≤ code && code ≤ 0x200a) || code == 0x2028 ||
    code == 0x2029 || code == 0x202f || code == 0x205f || code == 0x3000

/-- Drops the characters that satisfy the test from the end. -/
def dropEnd (drop : Char → Bool) (cs : List Char) : List Char :=
  (cs.reverse.dropWhile drop).reverse

/-- Drops blank characters from both ends. -/
def trimChars (cs : List Char) : List Char := dropEnd isBlank (cs.dropWhile isBlank)

def trim (text : String) : String := String.ofList (trimChars text.toList)

/-- Whether a text holds nothing but blank characters. -/
def isBlankText (text : String) : Bool := text.toList.all isBlank

example : trim " a b\t\n" = "a b" := by decide

end IntervalRules.Text
