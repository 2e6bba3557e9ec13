import IntervalRules.Token.Stream

/-!
A text read item by item. A reader knows how far it has come in its text; past the end of the
input or the first error it gives nothing more.
-/

namespace IntervalRules.Token

structure Reader where
  text : String
  offset : Nat
  done : Bool

namespace Reader

def ofText (text : String) : Reader := ⟨text, 0, false⟩

/-- The next item, unless there is none, with the reader after it. -/
def next (r : Reader) : Option (Except TokenError Token) × Reader :=
  if r.done then (none, r)
  else
    match Token.next r.text r.offset with
    | .ok t => (some (.ok t), { r with offset := t.span.stop, done := t.kind = .endOfInput })
    | .error e => (some (.error e), { r with done := true })

/-- The item that the reader gives after `n` others. -/
def nth (r : Reader) : Nat → Option (Except TokenError Token)
  | 0 => r.next.1
  | n + 1 => r.next.2.nth n

end Reader

end IntervalRules.Token
