import IntervalRules.Proofs.Cover
import IntervalRules.Proofs.Joining
import IntervalRules.Text.Blank
import Mathlib.Data.List.DropRight

/-!
Trimming a text that has all its tokens. It is trimmed by the property White_Space, which differs
from what is skipped between tokens: the byte order mark is skipped and has not got the property,
the next line control has got it and can stand nowhere but in a comment. Still the tokens keep
their kinds, so that the text is the same expression: what goes at the front is trivia, and a line
comment that is cut short at the end goes on to the end.
-/

namespace IntervalRules

namespace Text

variable {drop : Char → Bool}

theorem dropEnd_concat (cs : List Char) (c : Char) :
    dropEnd drop (cs ++ [c]) = if drop c then dropEnd drop cs else cs ++ [c] :=
  List.rdropWhile_concat drop cs c

theorem dropEnd_prefix (cs : List Char) : dropEnd drop cs <+: cs := List.rdropWhile_prefix drop cs

theorem dropEnd_eq_self {cs : List Char} (h : ∀ c ∈ cs.getLast?, drop c = false) :
    dropEnd drop cs = cs := by
  refine List.rdropWhile_eq_self_iff.2 fun hne => ?_
  rw [h _ (List.getLast?_eq_some_getLast hne)]
  exact Bool.false_ne_true

/-- Nothing is dropped before the last character that stays. -/
theorem dropEnd_append {front : List Char} (h : ∀ c ∈ front.getLast?, drop c = false)
    (tail : List Char) : dropEnd drop (front ++ tail) = front ++ dropEnd drop tail := by
  induction tail using List.reverseRecOn with
  | nil => rw [List.append_nil, dropEnd_eq_self h]; exact (List.append_nil front).symm
  | append_singleton tail c ih =>
    rw [← List.append_assoc, dropEnd_concat, dropEnd_concat, ih]
    cases drop c with
    | true => rfl
    | false => exact List.append_assoc front tail [c]

/-- The last character that stays fails the test. -/
theorem getLast?_dropEnd (cs : List Char) : ∀ c ∈ (dropEnd drop cs).getLast?, drop c = false := by
  intro c hc
  have hne : dropEnd drop cs ≠ [] := by
    intro hnil
    rw [hnil] at hc
    cases hc
  rw [List.getLast?_eq_some_getLast hne] at hc
  rw [← Option.some.inj hc, Bool.eq_false_iff]
  exact List.rdropWhile_last_not drop cs hne

/-- All that is dropped passes it. -/
theorem exists_dropEnd (cs : List Char) :
    ∃ tail, cs = dropEnd drop cs ++ tail ∧ ∀ c ∈ tail, drop c = true :=
  ⟨cs.rtakeWhile drop, List.rdropWhile_append_rtakeWhile.symm,
    fun _ => List.mem_rtakeWhile_imp⟩

/-- Dropping from both ends may start at either. -/
theorem dropWhile_dropEnd (cs : List Char) :
    (dropEnd drop cs).dropWhile drop = dropEnd drop (cs.dropWhile drop) := by
  induction cs using List.reverseRecOn with
  | nil => rfl
  | append_singleton cs c ih =>
    have hconcat : (cs ++ [c]).dropWhile drop =
        if cs.dropWhile drop = [] then [c].dropWhile drop else cs.dropWhile drop ++ [c] := by
      simp only [List.dropWhile_append, List.isEmpty_iff]
    cases hc : drop c with
    | true =>
      rw [dropEnd_concat, if_pos hc, ih, hconcat]
      split
      · rename_i hnil
        rw [hnil, List.dropWhile_cons_of_pos hc]
        rfl
      · rw [dropEnd_concat, if_pos hc]
    | false =>
      have hstays : ¬ drop c = true := by rw [hc]; exact Bool.false_ne_true
      rw [dropEnd_concat, if_neg hstays, hconcat]
      split
      · rw [List.dropWhile_cons_of_neg hstays]
        exact ((dropEnd_concat [] c).trans (if_neg hstays)).symm
      · rw [dropEnd_concat, if_neg hstays]

/-- What is trimmed at its end first is trimmed to the same. -/
theorem trimChars_dropEnd (cs : List Char) : trimChars (dropEnd isBlank cs) = trimChars cs := by
  rw [trimChars, dropWhile_dropEnd]
  exact List.rdropWhile_idempotent isBlank _

/-- Trimming takes blanks off both ends. -/
theorem exists_trimChars (cs : List Char) :
    ∃ lead tail, cs = lead ++ (trimChars cs ++ tail) ∧ (∀ c ∈ lead, isBlank c = true) ∧
      ∀ c ∈ tail, isBlank c = true := by
  obtain ⟨tail, hrest, htail⟩ := @exists_dropEnd isBlank (cs.dropWhile isBlank)
  refine ⟨cs.takeWhile isBlank, tail, ?_, List.all_eq_true.1 List.all_takeWhile, htail⟩
  rw [trimChars, ← hrest, List.takeWhile_append_dropWhile]

end Text

namespace Token

open Expression (Item)

/-! ## At the front -/

/-- A blank that cannot be skipped is the next line control. -/
theorem isBlank_or_eq_of_isBlank {c : Char} (h : Text.isBlank c = true) :
    isBlank c = true ∨ c = '\u0085' := by
  have hcodes : ∀ n ∈ [0x9, 0xa, 0xb, 0xc, 0xd, 0x20, 0x85, 0xa0, 0x1680, 0x2000, 0x2001, 0x2002,
      0x2003, 0x2004, 0x2005, 0x2006, 0x2007, 0x2008, 0x2009, 0x200a, 0x2028, 0x2029, 0x202f,
      0x205f, 0x3000], isBlank (Char.ofNat n) = true ∨ Char.ofNat n = '\u0085' := by
    decide +kernel
  rw [← Char.ofNat_toNat c]
  refine hcodes c.toNat ?_
  simp [Text.isBlank] at h
  simp
  omega

theorem scan_nextLine (pos : Nat) (rest : List Char) :
    scan pos ('\u0085' :: rest) = .error (.unexpectedChar '\u0085' pos) := by
  have hskip := skipTrivia_of_noTrivia
    (noTrivia_cons (c := '\u0085') (by decide) (by decide) rest) pos
  simp only [scan, hskip, show CharClass.of '\u0085' = .other by decide]

/-- Blanks in front of a token are trivia. -/
theorem trivia_of_scan {lead cs : List Char} {pos : Nat} {r : Token × List Char}
    (hlead : ∀ c ∈ lead, Text.isBlank c = true) (h : scan pos (lead ++ cs) = .ok r) :
    Trivia lead := by
  induction lead generalizing pos with
  | nil => exact .nil
  | cons c lead ih =>
    obtain ⟨hc, hlead⟩ := List.forall_mem_cons.1 hlead
    rcases isBlank_or_eq_of_isBlank hc with hblank | rfl
    · have hscan := scan_append_trivia (.blank hblank .nil) pos (lead ++ cs)
      exact .blank hblank (ih hlead (hscan.symm.trans h))
    · rw [List.cons_append, scan_nextLine] at h
      cases h

/-! ## At the end -/

theorem InBlock.concat {body : List Char} (h : InBlock body) {c : Char} (hc : c ≠ '/') :
    InBlock (body ++ [c]) := by
  rw [InBlock, List.infix_concat_iff]
  rintro (⟨front, hend⟩ | hinside)
  · have hlast := congrArg List.getLast? hend
    simp only [List.getLast?_append, List.getLast?_singleton] at hlast
    exact hc (Option.some.inj hlast).symm
  · exact h hinside

theorem NoTrivia.concat {cs : List Char} (h : NoTrivia cs) (hne : cs ≠ []) {c : Char}
    (hslash : c ≠ '/') (hstar : c ≠ '*') : NoTrivia (cs ++ [c]) := by
  obtain ⟨d, cs, rfl⟩ := List.exists_cons_of_ne_nil hne
  rintro _ ⟨⟩
  refine ⟨(h d rfl).1, fun hd => ?_⟩
  cases cs with
  | nil => exact ⟨fun h => hstar (Option.some.inj h), fun h => hslash (Option.some.inj h)⟩
  | cons e cs => exact (h d rfl).2 hd

/-- Trivia up to the end stays such without a last character that closes no block comment. -/
theorem EndTrivia.of_concat {cs : List Char} {c : Char} (hslash : c ≠ '/') (hstar : c ≠ '*')
    (h : EndTrivia (cs ++ [c])) : EndTrivia cs := by
  have hskip := skipTrivia_endTrivia h 0
  cases fronted cs with
  | @gap gap rest hgap hrest =>
    by_cases hne : rest = []
    · rw [hne, List.append_nil]
      exact .inl hgap
    -- what is left would not be skipped with the last character either
    · rw [List.append_assoc, skipTrivia_append hgap,
        skipTrivia_of_noTrivia (hrest.concat hne hslash hstar)] at hskip
      simp at hskip
  | line hgap hbody => exact .inr ⟨_, _, hgap, hbody, rfl⟩
  | @block gap body hgap hbody =>
    rw [List.append_assoc, skipTrivia_append hgap, List.cons_append, List.cons_append,
      skipTrivia_open (hbody.concat hslash)] at hskip
    cases hskip

theorem EndTrivia.dropEnd {cs : List Char} (h : EndTrivia cs) :
    EndTrivia (Text.dropEnd Text.isBlank cs) := by
  induction cs using List.reverseRecOn with
  | nil => exact .inl .nil
  | append_singleton cs c ih =>
    rw [Text.dropEnd_concat]
    cases hc : Text.isBlank c with
    | true =>
      refine ih (h.of_concat ?_ ?_) <;>
        · rintro rfl
          cases hc
    | false => exact h

/-- No blank is part of a token. -/
theorem Lexeme.isBlank_eq_false {kind : TokenKind} {lexeme : List Char} (h : Lexeme kind lexeme) :
    ∀ c ∈ lexeme, Text.isBlank c = false := by
  cases h with
  | number hform _ =>
    intro c hc
    have hvisible := visible_of_wellFormed hform c hc
    rw [Visible] at hvisible
    simp [Text.isBlank]
    omega
  | punctuation p => exact List.forall_mem_singleton.2 (by cases p <;> decide)
  | minus => exact List.forall_mem_singleton.2 (by decide)
  | plus => exact List.forall_mem_singleton.2 (by decide)

theorem Reads.getLast?_front {pos pos' : Nat} {front rest : List Char} {tokens : List Token}
    (h : Reads pos (front ++ rest) tokens pos' rest) :
    ∀ c ∈ front.getLast?, Text.isBlank c = false := by
  generalize hcs : front ++ rest = cs at h
  induction h generalizing front with
  | nil =>
    rw [List.append_left_eq_self.1 hcs]
    exact nofun
  | token hscan hkind hreads ih =>
    obtain ⟨gap, lexeme, rfl, -, hlexeme, -, -⟩ := (scan_eq_ok_iff hkind).1 hscan
    obtain ⟨more, rfl, -⟩ := hreads.exists_front
    rw [← List.append_assoc, ← List.append_assoc] at hcs
    obtain rfl := List.append_cancel_right hcs
    intro c hc
    rw [List.getLast?_append, List.getLast?_append] at hc
    cases hlast : more.getLast? with
    | some d =>
      rw [hlast] at hc
      exact ih rfl c (hlast.trans hc)
    | none =>
      have hend : lexeme.getLast? = some (lexeme.getLast hlexeme.ne_nil) :=
        List.getLast?_eq_some_getLast hlexeme.ne_nil
      rw [hlast, hend] at hc
      cases hc
      exact hlexeme.isBlank_eq_false _ (List.getLast_mem _)

theorem keepsEnds_of_prefix {rest rest' : List Char} (h : rest' <+: rest) :
    KeepsEnds rest rest' := by
  obtain ⟨more, rfl⟩ := h
  cases rest' with
  | nil => exact fun _ _ => nofun
  | cons c rest' => exact fun _ hends => hends

/-! ## The kinds of the tokens -/

/-- The kind of the token that an item is, none for an error. -/
def kind? (item : Item) : Option TokenKind := item.toOption.map kind

theorem kind?_relocateItem (place : Span → Span) (item : Item) :
    kind? (relocateItem place item) = kind? item := by
  cases item <;> rfl

/-- The kinds of what there is to read in a text. -/
def kinds (cs : List Char) : List (Option TokenKind) := (itemsFrom 0 cs).map kind?

theorem map_kind?_itemsFrom (pos : Nat) (cs : List Char) :
    (itemsFrom pos cs).map kind? = kinds cs := by
  have hshift := itemsFrom_shift 0 pos cs
  rw [Nat.zero_add] at hshift
  rw [hshift, List.map_map]
  exact List.map_congr_left fun item _ => kind?_relocateItem _ item

theorem exists_tokens_of_map_kind? {items : List Item} {kinds : List TokenKind}
    (h : items.map kind? = kinds.map some) :
    ∃ tokens : List Token, items = tokens.map .ok ∧ tokens.map kind = kinds := by
  induction items generalizing kinds with
  | nil => exact ⟨[], rfl, (List.map_eq_nil_iff.1 h.symm).symm⟩
  | cons item items ih =>
    obtain ⟨k, kinds, rfl, hk, hkinds⟩ := List.map_eq_cons_iff.1 h.symm
    obtain ⟨tokens, rfl, rfl⟩ := ih hkinds.symm
    cases item with
    | error e => cases hk
    | ok t => exact ⟨t :: tokens, rfl, congrArg (· :: _) (Option.some.inj hk).symm⟩

/-- The items are tokens of these kinds. -/
theorem kinds_eq_map_some_iff (text : String) (expected : List TokenKind) :
    kinds text.toList = expected.map some ↔
      ∃ tokens : List Token, items text = tokens.map .ok ∧ tokens.map kind = expected := by
  constructor
  · exact exists_tokens_of_map_kind?
  · rintro ⟨tokens, hitems, rfl⟩
    rw [kinds, ← items, hitems, List.map_map, List.map_map]
    rfl

theorem kinds_append_trivia {gap : List Char} (h : Trivia gap) (cs : List Char) :
    kinds (gap ++ cs) = kinds cs := by
  rw [kinds, itemsFrom_congr (scan_append_trivia h 0 cs), map_kind?_itemsFrom]

theorem kinds_of_endTrivia {cs : List Char} (h : EndTrivia cs) :
    kinds cs = [some .endOfInput] := by
  rw [kinds, itemsFrom_of_scan_end (scan_of_endTrivia h 0) rfl]
  rfl

theorem Reads.kinds_eq {pos pos' : Nat} {cs rest : List Char} {tokens : List Token}
    (h : Reads pos cs tokens pos' rest) :
    kinds cs = tokens.map (some ∘ kind) ++ kinds rest := by
  rw [← map_kind?_itemsFrom pos, h.itemsFrom_eq, List.map_append, List.map_map,
    map_kind?_itemsFrom]
  rfl

/-- If there is no error, tokens are read up to trivia at the end. -/
theorem exists_reads_of_kinds {cs : List Char} (h : none ∉ kinds cs) (pos : Nat) :
    ∃ tokens pos' rest, Reads pos cs tokens pos' rest ∧ EndTrivia rest := by
  obtain ⟨tokens, last, hitems, horder⟩ := (cover_itemsFrom pos cs).exists_inOrder
  obtain ⟨pos', rest, hreads, hrest⟩ := exists_reads hitems (List.cons_ne_nil last [])
  cases last with
  | error e =>
    rw [← map_kind?_itemsFrom pos, hitems, List.map_append] at h
    exact absurd (List.mem_append_right _ List.mem_cons_self) h
  | ok t =>
    exact ⟨tokens, pos', rest, hreads, (endTrivia_of_itemsFrom hrest horder.kind_of_last).1⟩

theorem kinds_dropEnd {cs : List Char} (h : none ∉ kinds cs) :
    kinds (Text.dropEnd Text.isBlank cs) = kinds cs := by
  obtain ⟨tokens, pos, rest, hreads, hrest⟩ := exists_reads_of_kinds h 0
  have hkeeps : KeepsEnds rest (Text.dropEnd Text.isBlank rest) :=
    keepsEnds_of_prefix (Text.dropEnd_prefix rest)
  obtain ⟨front, rfl, -, hreads'⟩ := hreads.replace hkeeps
  rw [Text.dropEnd_append hreads.getLast?_front, hreads'.kinds_eq, hreads.kinds_eq,
    kinds_of_endTrivia hrest, kinds_of_endTrivia hrest.dropEnd]

theorem none_not_mem_kinds {cs : List Char} {tokens : List TokenKind}
    (h : kinds cs = tokens.map some) : none ∉ kinds cs := by
  rw [h]
  simp

/-- Trimming keeps the kinds of the tokens of a text without an error. -/
theorem kinds_trimChars {cs : List Char} (h : none ∉ kinds cs) :
    kinds (Text.trimChars cs) = kinds cs := by
  have hsplit : cs.takeWhile Text.isBlank ++ cs.dropWhile Text.isBlank = cs :=
    List.takeWhile_append_dropWhile
  have hlead : Trivia (cs.takeWhile Text.isBlank) := by
    cases hscan : scan 0 cs with
    | error e =>
      rw [kinds, itemsFrom_of_scan_error hscan] at h
      exact absurd List.mem_cons_self h
    | ok r =>
      rw [← hsplit] at hscan
      exact trivia_of_scan (fun c hc => List.mem_takeWhile_imp hc) hscan
  have hkinds : kinds (cs.dropWhile Text.isBlank) = kinds cs := by
    rw [← kinds_append_trivia hlead, hsplit]
  rw [Text.trimChars, kinds_dropEnd (hkinds ▸ h), hkinds]

end Token

namespace Expression

open Grammar (Union Clause)

/-- Which expression a text is, is settled by the kinds of its tokens. -/
theorem parse_eq_ok_iff_kinds (text : String) (e : Expression) :
    parse text = .ok e ↔
      ∃ u : Union, Token.kinds text.toList = (u.kinds ++ [TokenKind.endOfInput]).map some ∧
        (∀ c ∈ u.clauses, c.Ordered) ∧ e.intervals = u.clauses.map Clause.interval := by
  rw [parse, Grammar.ofItems_eq_ok_iff (Token.items_terminated text)]
  simp only [Token.kinds_eq_map_some_iff]
  constructor
  · rintro ⟨tokens, u, hitems, htokens, hu⟩
    exact ⟨u, ⟨tokens, hitems, htokens⟩, hu⟩
  · rintro ⟨u, ⟨tokens, hitems, htokens⟩, hu⟩
    exact ⟨tokens, u, hitems, htokens, hu⟩

/-- An expression is the same when it is trimmed, also one that ends in a comment. -/
theorem parse_trim {text : String} {e : Expression} (h : parse text = .ok e) :
    parse (Text.trim text) = .ok e := by
  obtain ⟨u, hkinds, hu⟩ := (parse_eq_ok_iff_kinds text e).1 h
  refine (parse_eq_ok_iff_kinds _ e).2 ⟨u, ?_, hu⟩
  rw [Text.trim, String.toList_ofList, Token.kinds_trimChars (Token.none_not_mem_kinds hkinds),
    hkinds]

end Expression

end IntervalRules
