import IntervalRules.Proofs.Cover
import IntervalRules.Proofs.ParseRelocation
import IntervalRules.Proofs.Reading

/-!
Trivia does not count. Put in between two tokens, it moves the tokens after it further on and
changes nothing else, so a text is read as the same expression or number, or with the same error.
-/

namespace IntervalRules

open Text (byteLength takeBytes dropBytes)

/-- The span when `d` bytes have been put in at `p`: a span before `p` stays, one after it moves on
and one around it grows. -/
def Span.makeRoom (p d : Nat) (s : Span) : Span :=
  if s.start < p then ⟨s.start, if s.stop ≤ p then s.stop else s.stop + d⟩ else s.shift d

theorem Span.makeRoom_of_stop_le {p d : Nat} {s : Span} (hstart : s.start < s.stop)
    (hstop : s.stop ≤ p) : s.makeRoom p d = s := by
  rw [makeRoom, if_pos (by omega), if_pos hstop]

theorem Span.makeRoom_of_le_start {p d : Nat} {s : Span} (h : p ≤ s.start) :
    s.makeRoom p d = s.shift d :=
  if_neg (by omega)

/-- A span from one part to a later one is moved as they are. -/
theorem Span.makeRoom_between {p d : Nat} {s t : Span} (hs : s.start < s.stop)
    (ht : t.start < t.stop) (h : s.stop ≤ t.start) :
    makeRoom p d ⟨s.start, t.stop⟩ = ⟨(s.makeRoom p d).start, (t.makeRoom p d).stop⟩ := by
  by_cases hp : s.start < p
  · by_cases hp' : t.start < p
    · simp only [makeRoom, if_pos hp, if_pos hp']
    · have hstop : ¬ t.stop ≤ p := by omega
      simp only [makeRoom, if_pos hp, if_neg hp', if_neg hstop, shift]
  · have hp' : ¬ t.start < p := by omega
    simp only [makeRoom, if_neg hp, if_neg hp', shift]

/-- The text with more characters put in at an offset. -/
def insertAt (p : Nat) (more : List Char) (text : String) : String :=
  String.ofList (takeBytes p text.toList ++ (more ++ dropBytes p text.toList))

namespace Token

open Expression (Item)

def itemSpan : Item → Span
  | .ok t => t.span
  | .error e => e.span

theorem relocateItem_congr {place place' : Span → Span} {item : Item}
    (h : place (itemSpan item) = place' (itemSpan item)) :
    relocateItem place item = relocateItem place' item := by
  cases item with
  | ok t =>
    have hspan : place t.span = place' t.span := h
    simp only [relocateItem, mapBoth_ok, Token.relocate, hspan]
  | error e => exact congrArg Except.error (TokenError.relocate_congr h)

/-- No item starts before the text. -/
theorem le_start_of_mem {pos : Nat} {cs : List Char} {item : Item} (h : item ∈ itemsFrom pos cs) :
    pos ≤ (itemSpan item).start := by
  obtain ⟨tokens, last, hitems, horder⟩ := (cover_itemsFrom pos cs).exists_inOrder
  rw [hitems] at h
  rcases List.mem_append.1 h with h | h
  · obtain ⟨t, ht, rfl⟩ := List.mem_map.1 h
    exact (horder.marks t ht).start_lt_stop.1
  · rw [List.mem_singleton.1 h]
    rcases horder.last with hlast | ⟨e, hlast, hmarks, -⟩
    · rw [hlast]
      exact Nat.le_add_right pos _
    · rw [hlast]
      exact hmarks.start_lt_stop.1

/-- The items of a text fit a place where room is made. -/
theorem fits_makeRoom (p d pos : Nat) (cs : List Char) :
    Expression.Fits (Span.makeRoom p d) (itemsFrom pos cs) := by
  obtain ⟨tokens, last, hitems, horder⟩ := (cover_itemsFrom pos cs).exists_inOrder
  rw [hitems, Expression.Fits, List.pairwise_append]
  refine ⟨List.pairwise_map.2 ?_, List.pairwise_singleton _ _, ?_⟩
  · refine horder.apart.imp_of_mem fun {s t} hs ht hapart => ?_
    rintro o c ⟨⟩ ⟨⟩ -
    exact Span.makeRoom_between (horder.marks s hs).start_lt_stop.2
      (horder.marks t ht).start_lt_stop.2 hapart
  -- the last item is no closer
  · rintro first - item hitem o c - hc hkind
    obtain rfl := hc.symm.trans (List.mem_singleton.1 hitem)
    exact absurd horder.kind_of_last hkind

/-- The place after some tokens, where trivia is put in. -/
theorem exists_reads_of_place {text : String} {p : Nat}
    (hp : p = 0 ∨ ∃ t : Token, .ok t ∈ items text ∧ t.kind ≠ .endOfInput ∧ t.span.stop = p) :
    ∃ before rest, Reads 0 text.toList before p rest := by
  rcases hp with rfl | ⟨t, ht, hkind, rfl⟩
  · exact ⟨[], text.toList, .nil 0 _⟩
  · obtain ⟨tokens, last, hitems, horder⟩ := (cover_itemsFrom 0 text.toList).exists_inOrder
    have hmem : t ∈ tokens := by
      rw [items, hitems] at ht
      rcases List.mem_append.1 ht with ht | ht
      · obtain ⟨u, hu, heq⟩ := List.mem_map.1 ht
        cases heq
        exact hu
      · obtain rfl := List.mem_singleton.1 ht
        exact absurd horder.kind_of_last hkind
    obtain ⟨front, back, rfl⟩ := List.append_of_mem hmem
    have hsplit : itemsFrom 0 text.toList =
        (front ++ [t]).map .ok ++ (back.map .ok ++ [last]) := by
      rw [hitems]
      simp
    obtain ⟨pos, rest, hreads, -⟩ := exists_reads hsplit (by simp)
    rw [hreads.stop_eq]
    exact ⟨front ++ [t], rest, hreads⟩

/-- The items before the place stay, and those after it move on. -/
theorem items_insertAt {text : String} {p : Nat} {before : List Token} {rest trivia : List Char}
    (htrivia : Trivia trivia) (h : Reads 0 text.toList before p rest) :
    items (insertAt p trivia text) =
      before.map .ok ++ (itemsFrom p rest).map (relocateItem (Span.shift (byteLength trivia))) := by
  obtain ⟨front, hfront, hp, hreads⟩ := h.replace (keepsEnds_trivia htrivia rest)
  have htext : (insertAt p trivia text).toList = front ++ (trivia ++ rest) := by
    rw [insertAt, String.toList_ofList, hfront, hp, Nat.zero_add, Text.takeBytes_byteLength,
      Text.dropBytes_byteLength]
  rw [items, htext, hreads.itemsFrom_eq, itemsFrom_congr (scan_append_trivia htrivia p rest),
    itemsFrom_shift]

/-- So all items are those of the text, where room is made for the trivia. -/
theorem items_insertAt_eq_map {text : String} {p : Nat} {before : List Token}
    {rest trivia : List Char} (htrivia : Trivia trivia) (h : Reads 0 text.toList before p rest) :
    items (insertAt p trivia text) =
      (items text).map (relocateItem (Span.makeRoom p (byteLength trivia))) := by
  rw [items_insertAt htrivia h, items, h.itemsFrom_eq, List.map_append]
  congr 1
  · rw [List.map_map]
    refine List.map_congr_left fun t ht => ?_
    obtain ⟨hspan, hstop⟩ := h.span_bounds t ht
    exact congrArg (fun span => Except.ok (Token.mk t.kind span))
      (Span.makeRoom_of_stop_le hspan hstop).symm
  · refine List.map_congr_left fun item hitem => relocateItem_congr ?_
    exact (Span.makeRoom_of_le_start (le_start_of_mem hitem)).symm

end Token

open Token (Trivia itemSpan relocateItem)

/-- Trivia at the front of a text or after any of its tokens does not count. The items before it
stay and those after it are moved on by its length, so that the text is read as the same
expression, or with the same error where it then is, and as the same number. -/
theorem insert_trivia (text : String) (p : Nat) (trivia : List Char) (htrivia : Trivia trivia)
    (hp : p = 0 ∨ ∃ t : Token, .ok t ∈ Token.items text ∧ t.kind ≠ .endOfInput ∧
      t.span.stop = p) :
    (∃ (before : List Token) (after : List Expression.Item),
      Token.items text = before.map .ok ++ after ∧
      (∀ t ∈ before, t.span.stop ≤ p) ∧ (∀ item ∈ after, p ≤ (itemSpan item).start) ∧
      Token.items (insertAt p trivia text) =
        before.map .ok ++ after.map (relocateItem (Span.shift (byteLength trivia)))) ∧
    Expression.parse (insertAt p trivia text) =
      (Expression.parse text).mapError
        (.relocate (Span.makeRoom p (byteLength trivia)) 0) ∧
    parseNumber? (insertAt p trivia text) = parseNumber? text := by
  obtain ⟨before, rest, hreads⟩ := Token.exists_reads_of_place hp
  have hitems := Token.items_insertAt_eq_map htrivia hreads
  refine ⟨⟨before, Token.itemsFrom p rest, hreads.itemsFrom_eq,
    fun t ht => (hreads.span_bounds t ht).2, fun _ => Token.le_start_of_mem,
    Token.items_insertAt htrivia hreads⟩, ?_, parseNumber?_of_items hitems⟩
  rw [Expression.parse, hitems]
  exact Expression.ofItems_map (Token.fits_makeRoom p _ 0 text.toList)

/-- A line comment put in after a number; the clause out of order that it stands in grows. -/
theorem insert_trivia_line :
    Expression.parse "[3,2)" = .error (.order 0 ⟨.ofNat 3, true, .ofNat 2, false⟩ ⟨0, 5⟩) ∧
      Expression.parse (insertAt 2 "//\n".toList "[3,2)") =
        .error (.order 0 ⟨.ofNat 3, true, .ofNat 2, false⟩ ⟨0, 8⟩) := by
  have hparse : Expression.parse "[3,2)" =
      .error (.order 0 ⟨.ofNat 3, true, .ofNat 2, false⟩ ⟨0, 5⟩) := by
    decide +kernel
  have htrivia : Trivia "//\n".toList := .line (show Token.InLine [] from nofun) (by decide) .nil
  have hnumber : .ok ⟨.number (.number (.ofNat 3)), ⟨1, 2⟩⟩ ∈ Token.items "[3,2)" := by
    decide +kernel
  have hinsert := (insert_trivia "[3,2)" 2 _ htrivia (.inr ⟨_, hnumber, nofun, rfl⟩)).2.1
  rw [hparse] at hinsert
  exact ⟨hparse, hinsert⟩

end IntervalRules
