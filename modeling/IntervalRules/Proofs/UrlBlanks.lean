import IntervalRules.Proofs.UrlPattern

/-!
Blank characters in an accepted address. The opening and the number have no room for one, and the
user and the tail leave them out. The labels of a domain take every character from U+00A1 on
instead, so they leave out the blanks up to the no-break space just before it, and no others.
-/

namespace IntervalRules

namespace Format

open Text (isBlank isDigit)
open Pattern (one char maybe repeated unlimited Over)
open scoped Computability

/-! ## The parts without blanks -/

theorem isNonblank_iff (c : Char) : isNonblank c = true ↔ isBlank c = false := by
  simp [isNonblank]

theorem isNonblank_of_isAsciiLetter {c : Char} (h : Text.isAsciiLetter c = true) :
    isNonblank c = true := by
  rw [Literal.isAsciiLetter_iff] at h
  simp [isNonblank, isBlank]
  omega

theorem isNonblank_of_isDigit {c : Char} (h : isDigit 10 c = true) : isNonblank c = true :=
  (isNonblank_iff c).2 (Literal.not_isBlank_of_isDigit h)

/-- The case of a letter makes no blank of it. -/
theorem isNonblank_of_foldsTo {letter c : Char} (hletter : isNonblank letter = true)
    (h : foldsTo letter c = true) : isNonblank c = true := by
  simp only [foldsTo, Bool.or_eq_true, Bool.and_eq_true, beq_iff_eq] at h
  rcases h with (rfl | hlower) | ⟨-, rfl⟩
  · exact hletter
  · by_cases hupper : c.val ≥ 'A'.val ∧ c.val ≤ 'Z'.val
    · have hle := UInt32.le_iff_toNat_le.1 hupper.1
      have hge := UInt32.le_iff_toNat_le.1 hupper.2
      apply isNonblank_of_isAsciiLetter
      rw [Literal.isAsciiLetter_iff]
      exact .inr ⟨hle, hge⟩
    · delta Char.toLower at hlower
      rw [dif_neg hupper] at hlower
      exact hlower ▸ hletter
  · decide

theorem over_word {letters : List Char} (h : letters.all isNonblank = true) :
    Over isNonblank (word letters) := by
  induction letters with
  | nil => exact Over.empty
  | cons letter letters ih =>
    obtain ⟨hletter, hletters⟩ := (Bool.and_eq_true _ _).mp h
    have hone : Over isNonblank (one (foldsTo letter)) :=
      Over.one fun _ => isNonblank_of_foldsTo hletter
    exact hone.mul (ih hletters)

theorem over_openingPattern : Over isNonblank openingPattern := by
  rw [openingPattern_eq]
  exact (over_word (by decide)).add ((over_word (by decide)).add
    ((over_word (by decide)).add (over_word (by decide))))

theorem over_userPattern : Over isNonblank userPattern := by
  intro cs hcs
  obtain ⟨c, user, rfl, huser⟩ := mem_userPattern_iff.1 hcs
  exact List.forall_mem_append.2 ⟨huser, List.forall_mem_singleton.2 (by decide)⟩

theorem over_portPattern : Over isNonblank portPattern :=
  (Over.char (by decide)).mul ((Over.one fun _ => isNonblank_of_isDigit).repeated 2 5)

theorem over_tailPattern : Over isNonblank tailPattern := by
  have hmark (c : Char) (hc : isTailMark c = true) : isNonblank c = true := by
    simp [isTailMark] at hc
    rcases hc with (rfl | rfl) | rfl <;> decide
  exact (Over.one hmark).mul ((Over.one fun _ => id).unlimited 0)

theorem over_beforeHostPattern : Over isNonblank beforeHostPattern :=
  over_openingPattern.mul over_userPattern.maybe

theorem over_afterHostPattern : Over isNonblank afterHostPattern :=
  over_portPattern.maybe.mul over_tailPattern.maybe

theorem over_quadPattern : Over isNonblank quadPattern := by
  have hnumber : Over isNonblank quadNumberPattern :=
    (Over.one fun _ => isNonblank_of_isDigit).repeated 1 3
  exact ((hnumber.mul (Over.char (by decide))).pow 3).mul hnumber

/-! ## The labels of a domain -/

/-- Which blanks are left to a label. -/
def isLabelBlank (c : Char) : Bool := isBlank c && isWideHostChar c

/-- The code points of the blanks beyond Latin-1. -/
def wideBlanks : List Nat :=
  [0x1680, 0x2000, 0x2001, 0x2002, 0x2003, 0x2004, 0x2005, 0x2006, 0x2007, 0x2008, 0x2009, 0x200a,
    0x2028, 0x2029, 0x202f, 0x205f, 0x3000]

theorem isLabelBlank_iff (c : Char) : isLabelBlank c = true ↔ c.toNat ∈ wideBlanks := by
  simp [wideBlanks, isLabelBlank, isBlank, isWideHostChar]
  omega

theorem over_domainPattern : Over (fun c => isNonblank c || isLabelBlank c) domainPattern := by
  have hchar (c : Char) (hc : isHostLabelChar c = true) :
      (isNonblank c || isLabelBlank c) = true := by
    simp only [isHostLabelChar, isHostChar, isHostLetter, Bool.or_eq_true, beq_iff_eq] at hc
    rw [Bool.or_eq_true]
    rcases hc with ((((hletter | hwide) | hdigit) | rfl) | rfl)
    · exact .inl (isNonblank_of_isAsciiLetter hletter)
    · rw [isLabelBlank, hwide, Bool.and_true, isNonblank, Bool.not_eq_true']
      exact Bool.eq_false_or_eq_true (isBlank c) |>.symm
    · exact .inl (isNonblank_of_isDigit hdigit)
    · exact .inl (by decide)
    · exact .inl (by decide)
  have hpoint : Over (fun c => isNonblank c || isLabelBlank c) (char '.') := Over.char (by decide)
  have hlabels := ((over_hostLabelPattern hchar).mul hpoint).unlimited 1
  exact (hlabels.mul (over_topLabelPattern hchar)).mul hpoint.maybe

theorem over_urlPattern : Over (fun c => isNonblank c || isLabelBlank c) urlPattern := by
  have hnonblank {l : Language Char} (hl : Over isNonblank l) :
      Over (fun c => isNonblank c || isLabelBlank c) l := by
    intro cs hcs c hc
    simp [hl cs hcs c hc]
  exact (hnonblank over_beforeHostPattern).mul
    (((hnonblank over_quadPattern).add over_domainPattern).mul (hnonblank over_afterHostPattern))

end Format

open Format Text

namespace Rule

theorem check_url_iff (value : String) (params : List String) :
    Rule.url.check value params = .ok true ↔ value.toList ∈ urlPattern := by
  rw [← isUrl_iff]
  exact ⟨Except.ok.inj, congrArg _⟩

/-- One character may be the whole of a label. -/
theorem check_url_label {c : Char} (hc : isHostChar c = true) :
    Rule.url.check (String.ofList ['/', '/', c, '.', 'c', 'o']) [] = .ok true := by
  have hpoint : '.' ∉ [c] := by
    have hne := ne_point_of_isHostLabelChar (isHostLabelChar_of_isHostChar hc)
    exact fun hmem => bne_iff_ne.1 hne (List.mem_singleton.1 hmem).symm
  have hsplit : split '.' [c, '.', 'c', 'o'] = [[c], ['c', 'o']] := split_append hpoint ['c', 'o']
  have htop : isTopLabel ['c', 'o'] = true := by decide
  have hlabels : [c, '.', 'c', 'o'] ∈ domainLabelsPattern := by
    rw [mem_domainLabelsPattern_iff, hsplit, Bool.and_eq_true, Bool.and_eq_true]
    refine ⟨⟨rfl, ?_⟩, htop⟩
    simp [isHostLabel, hc]
  have hdomain : [c, '.', 'c', 'o'] ∈ domainPattern := ⟨_, hlabels, [], .inl rfl, rfl⟩
  have hopening : ['/', '/'] ∈ openingPattern := by
    obtain ⟨front, hfront, heq⟩ := (afterWord?_eq_some_iff "//".toList ['/', '/'] []).1 rfl
    rw [List.append_nil] at heq
    rw [openingPattern_eq, ← heq]
    exact .inl hfront
  rw [check_url_iff, String.toList_ofList]
  exact ⟨['/', '/'], ⟨_, hopening, [], .inl rfl, rfl⟩, [c, '.', 'c', 'o'],
    ⟨_, .inr hdomain, [], ⟨[], .inl rfl, [], .inl rfl, rfl⟩, rfl⟩, rfl⟩

/-- The blanks of accepted addresses are those that are left to a label. -/
theorem exists_check_url_iff {c : Char} (hblank : isBlank c = true) :
    (∃ value params, Rule.url.check value params = .ok true ∧ c ∈ value.toList) ↔
      isLabelBlank c = true := by
  constructor
  · rintro ⟨value, params, h, hc⟩
    have hlabel := over_urlPattern _ ((check_url_iff value params).1 h) c hc
    have hnot : isNonblank c = false := by simp [isNonblank, hblank]
    simpa [hnot] using hlabel
  · intro hc
    have hwide := ((Bool.and_eq_true _ _).mp hc).2
    have hletter : isHostChar c = true := by simp [isHostChar, isHostLetter, hwide]
    exact ⟨_, [], check_url_label hletter, by simp⟩

/-- An accepted address is a host with what goes before and after it. There are no blanks before
and after the host. In the host there are some only if it is a domain, and these are the blanks
beyond Latin-1, each of which is in some accepted address. -/
theorem check_url_blanks (value : String) (params : List String) :
    (Rule.url.check value params = .ok true ↔
      ∃ before ∈ beforeHostPattern, ∃ host ∈ hostPattern, ∃ after ∈ afterHostPattern,
        value.toList = before ++ (host ++ after)) ∧
    (∀ before ∈ beforeHostPattern, ∀ host ∈ hostPattern, ∀ after ∈ afterHostPattern,
      (∀ c ∈ before ++ after, isBlank c = false) ∧
        ∀ c ∈ host, isBlank c = true → host ∈ domainPattern ∧ isLabelBlank c = true) ∧
    ∀ c, isBlank c = true →
      ((∃ value params, Rule.url.check value params = .ok true ∧ c ∈ value.toList) ↔
        c.toNat ∈ wideBlanks) := by
  refine ⟨?_, ?_, fun c hblank => (exists_check_url_iff hblank).trans (isLabelBlank_iff c)⟩
  · rw [check_url_iff]
    constructor
    · rintro ⟨before, hbefore, _, ⟨host, hhost, after, hafter, rfl⟩, hvalue⟩
      exact ⟨before, hbefore, host, hhost, after, hafter, hvalue.symm⟩
    · rintro ⟨before, hbefore, host, hhost, after, hafter, hvalue⟩
      exact ⟨before, hbefore, _, ⟨host, hhost, after, hafter, rfl⟩, hvalue.symm⟩
  · intro before hbefore host hhost after hafter
    constructor
    · intro c hc
      rw [← isNonblank_iff]
      rcases List.mem_append.1 hc with hc | hc
      · exact over_beforeHostPattern before hbefore c hc
      · exact over_afterHostPattern after hafter c hc
    · intro c hc hblank
      have hnot : isNonblank c = false := by simp [isNonblank, hblank]
      rcases hhost with hquad | hdomain
      · rw [over_quadPattern host hquad c hc] at hnot
        cases hnot
      · have hlabel := over_domainPattern host hdomain c hc
        simp only [hnot, Bool.false_or] at hlabel
        exact ⟨hdomain, hlabel⟩

/-- An address with all its parts, and with a blank in a label. -/
theorem check_url_blanks_in_label :
    ∃ before ∈ beforeHostPattern, ∃ host ∈ hostPattern, ∃ after ∈ afterHostPattern,
      "https://u:p@a\u3000b.example:8080/x?y".toList = before ++ (host ++ after) ∧
      (∀ c ∈ before ++ after, isBlank c = false) ∧
        (∀ c ∈ host, isBlank c = true → host ∈ domainPattern ∧ isLabelBlank c = true) ∧
      isBlank '\u205f' = true ∧
        ∃ value params, Rule.url.check value params = .ok true ∧ '\u205f' ∈ value.toList := by
  obtain ⟨hparts, hblanks, hwide⟩ :=
    check_url_blanks "https://u:p@a\u3000b.example:8080/x?y" []
  obtain ⟨before, hbefore, host, hhost, after, hafter, hvalue⟩ := hparts.1 (by decide +kernel)
  obtain ⟨houter, hinner⟩ := hblanks before hbefore host hhost after hafter
  exact ⟨before, hbefore, host, hhost, after, hafter, hvalue, houter, hinner, by decide,
    (hwide '\u205f' (by decide)).2 (by decide)⟩

/-- A blank of a label is taken for a letter. -/
theorem check_url_ideographic_space :
    Rule.url.check "//a\u3000b.co" [] = .ok true ∧
      ∃ c ∈ "//a\u3000b.co".toList, isBlank c = true :=
  ⟨by decide +kernel, '\u3000', by decide, by decide⟩

end Rule

end IntervalRules
