import IntervalRules.Proofs.ErrorSpans
import IntervalRules.Proofs.Items
import IntervalRules.Token.Reader

/-!
The items of a text cover it without loss. Between the slices of the tokens there is trivia and
nothing else (`Cover`), each slice is that token when it is read alone, and the reader gives these
items and then no more.
-/

namespace IntervalRules.Token

open Expression (Item)
open Text (byteLength byteLength_append)

/-- Read alone, the text is one token that takes up all of it. -/
def Alone (kind : TokenKind) (cs : List Char) : Prop :=
  items (String.ofList cs) = [.ok ⟨kind, ⟨0, byteLength cs⟩⟩,
    .ok ⟨.endOfInput, ⟨byteLength cs, byteLength cs⟩⟩]

/-- The text from `pos` on is made up of trivia and the slices of tokens by turns, up to trivia and
the end of the input, or to an error that marks a part of what is left. -/
inductive Cover : Nat → List Char → List Item → Prop
  | ended {pos : Nat} {gap : List Char} (hgap : EndTrivia gap) :
      Cover pos gap [.ok ⟨.endOfInput, ⟨pos + byteLength gap, pos + byteLength gap⟩⟩]
  | failed {pos : Nat} {cs : List Char} {e : TokenError} (he : Marks pos cs e.span) :
      Cover pos cs [.error e]
  | token {pos : Nat} {gap slice rest : List Char} {kind : TokenKind} {more : List Item}
      (hgap : Trivia gap) (hslice : slice ≠ []) (hkind : kind ≠ .endOfInput)
      (halone : Alone kind slice) :
      Cover (spanAfter pos gap slice).stop rest more →
        Cover pos (gap ++ (slice ++ rest)) (.ok ⟨kind, spanAfter pos gap slice⟩ :: more)

theorem delimited_nil (kind : TokenKind) (lexeme : List Char) : Delimited kind lexeme [] :=
  fun _ _ => nofun

theorem Lexeme.alone {kind : TokenKind} {lexeme : List Char} (h : Lexeme kind lexeme) :
    Alone kind lexeme := by
  have hscan := scan_of_lexeme h (delimited_nil kind lexeme) 0
  rw [List.append_nil, Nat.zero_add] at hscan
  rw [Alone, items, String.toList_ofList, itemsFrom_of_scan hscan h.kind_ne,
    itemsFrom_of_scan_end (scan_of_endTrivia (.inl .nil) _) rfl]
  rfl

theorem cover_itemsFrom (pos : Nat) (cs : List Char) : Cover pos cs (itemsFrom pos cs) := by
  fun_induction itemsFrom pos cs with
  | case1 pos cs e hscan => exact .failed (marks_of_scan hscan)
  | case2 pos cs r hscan hend =>
    obtain ⟨hcs, -, hspan⟩ := (scan_eq_end_iff hend).1 hscan
    obtain ⟨⟨kind, span⟩, rest⟩ := r
    dsimp only at hend hspan
    subst hend hspan
    exact .ended hcs
  | case3 pos cs r hscan hmore ih =>
    obtain ⟨gap, slice, rfl, hgap, hlexeme, -, hspan⟩ := (scan_eq_ok_iff hmore).1 hscan
    obtain ⟨⟨kind, span⟩, rest⟩ := r
    dsimp only at hmore hlexeme hspan ih
    subst hspan
    exact .token hgap hlexeme.ne_nil hmore hlexeme.alone ih

/-! ## In order -/

/-- Tokens and a last item of a text that starts at `pos`. The tokens' spans are of parts of the
text, in order and apart; the last item is the end of the input at the end of the text, or an
error past all of the tokens. -/
structure InOrder (pos : Nat) (cs : List Char) (tokens : List Token) (last : Item) : Prop where
  kinds : ∀ t ∈ tokens, t.kind ≠ .endOfInput
  marks : ∀ t ∈ tokens, Marks pos cs t.span
  apart : tokens.Pairwise fun s t => s.span.stop ≤ t.span.start
  last : last = .ok ⟨.endOfInput, ⟨pos + byteLength cs, pos + byteLength cs⟩⟩ ∨
    ∃ e, last = .error e ∧ Marks pos cs e.span ∧ ∀ t ∈ tokens, t.span.stop ≤ e.span.start

/-- Only the end of the input is a last token. -/
theorem InOrder.kind_of_last {pos : Nat} {cs : List Char} {tokens : List Token} {t : Token}
    (h : InOrder pos cs tokens (.ok t)) : t.kind = .endOfInput := by
  rcases h.last with hend | ⟨e, he, -⟩
  · rw [Except.ok.inj hend]
  · cases he

theorem InOrder.cons {pos : Nat} {gap slice rest : List Char} {kind : TokenKind}
    {tokens : List Token} {last : Item} (hslice : slice ≠ []) (hkind : kind ≠ .endOfInput)
    (h : InOrder (spanAfter pos gap slice).stop rest tokens last) :
    InOrder pos (gap ++ (slice ++ rest)) (⟨kind, spanAfter pos gap slice⟩ :: tokens) last := by
  have hstop : (spanAfter pos gap slice).stop = pos + byteLength (gap ++ slice) := by
    simp only [spanAfter, byteLength_append, Nat.add_assoc]
  have hprepend {span : Span} (hspan : Marks (spanAfter pos gap slice).stop rest span) :
      Marks pos (gap ++ (slice ++ rest)) span := by
    rw [hstop] at hspan
    rw [← List.append_assoc]
    exact hspan.prepend (gap ++ slice)
  refine ⟨?_, ?_, List.pairwise_cons.2 ⟨fun t ht => (h.marks t ht).start_lt_stop.1, h.apart⟩, ?_⟩
  · intro t ht
    rcases List.mem_cons.1 ht with rfl | ht
    · exact hkind
    · exact h.kinds t ht
  · intro t ht
    rcases List.mem_cons.1 ht with rfl | ht
    · exact ⟨gap, slice, rest, rfl, hslice, rfl⟩
    · exact hprepend (h.marks t ht)
  · rcases h.last with hend | ⟨e, he, hmarks, hpast⟩
    · left
      rw [hend, hstop, ← List.append_assoc, byteLength_append (gap ++ slice), Nat.add_assoc]
    · refine .inr ⟨e, he, hprepend hmarks, fun t ht => ?_⟩
      rcases List.mem_cons.1 ht with rfl | ht
      · exact hmarks.start_lt_stop.1
      · exact hpast t ht

theorem Cover.exists_inOrder {pos : Nat} {cs : List Char} {items : List Item}
    (h : Cover pos cs items) :
    ∃ tokens last, items = tokens.map .ok ++ [last] ∧ InOrder pos cs tokens last := by
  induction h with
  | ended => exact ⟨[], _, rfl, nofun, nofun, .nil, .inl rfl⟩
  | @failed pos cs e he => exact ⟨[], _, rfl, nofun, nofun, .nil, .inr ⟨e, rfl, he, nofun⟩⟩
  | @token pos gap slice rest kind more _ hslice hkind _ _ ih =>
    obtain ⟨tokens, last, rfl, horder⟩ := ih
    exact ⟨⟨kind, spanAfter pos gap slice⟩ :: tokens, last, rfl, horder.cons hslice hkind⟩

/-- Each item but the last takes up a byte or more. -/
theorem Cover.length_le {pos : Nat} {cs : List Char} {items : List Item}
    (h : Cover pos cs items) : items.length ≤ byteLength cs + 1 := by
  induction h with
  | ended => simp
  | failed => simp
  | @token pos gap slice rest kind more _ hslice _ _ _ ih =>
    have hpos := Text.byteLength_pos hslice
    rw [List.length_cons, byteLength_append, byteLength_append]
    omega

/-! ## The reader -/

namespace Reader

theorem nth_of_done {r : Reader} (h : r.done = true) (n : Nat) : r.nth n = none := by
  have hnext : r.next = (none, r) := if_pos h
  induction n with
  | zero => rw [nth, hnext]
  | succ n ih => rw [nth, hnext, ih]

theorem next_eq {text : String} {offset : Nat} {front cs : List Char}
    (htext : text.toList = front ++ cs) (hoffset : byteLength front = offset) :
    (Reader.mk text offset false).next =
      match scan offset cs with
      | .error e => (some (.error e), ⟨text, offset, true⟩)
      | .ok r => (some (.ok r.1), ⟨text, r.1.span.stop, r.1.kind = .endOfInput⟩) := by
  simp only [next, next_of_front htext hoffset]
  cases scan offset cs <;> rfl

/-- A reader gives the items of what is left of its text. -/
theorem nth_eq {text : String} {offset : Nat} {front cs : List Char}
    (htext : text.toList = front ++ cs) (hoffset : byteLength front = offset) (n : Nat) :
    (Reader.mk text offset false).nth n = (itemsFrom offset cs)[n]? := by
  induction n generalizing offset front cs with
  | zero =>
    rw [nth, next_eq htext hoffset]
    cases hscan : scan offset cs with
    | error e => rw [itemsFrom_of_scan_error hscan]; rfl
    | ok r =>
      by_cases hend : r.1.kind = .endOfInput
      · rw [itemsFrom_of_scan_end hscan hend]; rfl
      · rw [itemsFrom_of_scan hscan hend]; rfl
  | succ n ih =>
    rw [nth, next_eq htext hoffset]
    cases hscan : scan offset cs with
    | error e =>
      rw [itemsFrom_of_scan_error hscan]
      exact nth_of_done rfl n
    | ok r =>
      by_cases hend : r.1.kind = .endOfInput
      · rw [itemsFrom_of_scan_end hscan hend]
        exact nth_of_done (decide_eq_true hend) n
      · obtain ⟨read, hread, hstop⟩ := exists_read_of_scan hscan hend
        have htext' : text.toList = front ++ read ++ r.2 := by
          rw [htext, hread, List.append_assoc]
        have hoffset' : byteLength (front ++ read) = r.1.span.stop := by
          rw [byteLength_append, hoffset, hstop]
        have hrest := ih htext' hoffset'
        rw [itemsFrom_of_scan hscan hend, List.getElem?_cons_succ, ← hrest]
        simp only [decide_eq_false hend]

end Reader

/-- The reader gives finitely many items, no more than the text has bytes and one, and then none.
They cover the text: its trivia, the tokens' slices, each of which is that token when it is read
alone, and the end of the input or the first error, which is past all tokens. -/
theorem items_cover (text : String) :
    (∀ n, (Reader.ofText text).nth n = (items text)[n]?) ∧
      (items text).length ≤ byteLength text.toList + 1 ∧
      Cover 0 text.toList (items text) ∧
      ∃ tokens last, items text = tokens.map .ok ++ [last] ∧
        InOrder 0 text.toList tokens last := by
  have hcover : Cover 0 text.toList (items text) := cover_itemsFrom 0 text.toList
  exact ⟨fun n => Reader.nth_eq (List.nil_append _).symm rfl n, hcover.length_le, hcover,
    hcover.exists_inOrder⟩

end IntervalRules.Token
