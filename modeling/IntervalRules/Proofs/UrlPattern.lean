import IntervalRules.Proofs.DigitRuns
import IntervalRules.Proofs.Patterns
import IntervalRules.Rule.Check

/-!
The pattern of an address with a scheme, as a language for each of its parts. The reader that looks
for the parts one after another accepts the texts of the pattern (`isUrl_iff`), though the
pattern alone does not tell where a user ends and a host begins.
-/

namespace IntervalRules.Format

open Text (split isDigit)
open Pattern (one char maybe repeated unlimited Over)
open scoped Computability

def isNonblank (c : Char) : Bool := !Text.isBlank c

/-- A word of small letters and other characters, without regard to case. -/
def word (letters : List Char) : Language Char :=
  (letters.map fun letter => one (foldsTo letter)).prod

def openingPattern : Language Char :=
  maybe ((word "http".toList * maybe (word "s".toList) + word "ftp".toList) * word ":".toList) *
    word "//".toList

def userPattern : Language Char :=
  unlimited (one isNonblank) 1 * maybe (char ':' * unlimited (one isNonblank) 0) * char '@'

def quadNumberPattern : Language Char := repeated (one (isDigit 10)) 1 3

def quadPattern : Language Char := (quadNumberPattern * char '.') ^ 3 * quadNumberPattern

def isHostLabelChar (c : Char) : Bool := isHostChar c || c == '_' || c == '-'

def hostLabelPattern : Language Char := one isHostChar * repeated (one isHostLabelChar) 0 62

def topLabelPattern : Language Char := unlimited (one isHostLetter) 2

def domainPattern : Language Char :=
  unlimited (hostLabelPattern * char '.') 1 * topLabelPattern * maybe (char '.')

def hostPattern : Language Char := quadPattern + domainPattern

def portPattern : Language Char := char ':' * repeated (one (isDigit 10)) 2 5

def isTailMark (c : Char) : Bool := c == '/' || c == '?' || c == '#'

def tailPattern : Language Char := one isTailMark * unlimited (one isNonblank) 0

def beforeHostPattern : Language Char := openingPattern * maybe userPattern

def afterHostPattern : Language Char := maybe portPattern * maybe tailPattern

def urlPattern : Language Char := beforeHostPattern * (hostPattern * afterHostPattern)

variable {cs : List Char}

/-! ## The opening -/

theorem word_append (letters more : List Char) :
    word (letters ++ more) = word letters * word more := by
  simp [word]

theorem afterWord?_eq_some_iff (letters cs rest : List Char) :
    afterWord? letters cs = some rest ↔ ∃ front ∈ word letters, front ++ rest = cs := by
  induction letters generalizing cs with
  | nil => simp [afterWord?, word, eq_comm]
  | cons letter letters ih =>
    have hword : word (letter :: letters) = one (foldsTo letter) * word letters := by simp [word]
    simp only [hword, Pattern.mem_one_mul_iff]
    cases cs with
    | nil => simp [afterWord?]
    | cons c cs =>
      rw [afterWord?]
      by_cases hc : foldsTo letter c = true
      · rw [if_pos hc, ih]
        constructor
        · rintro ⟨front, hfront, rfl⟩
          exact ⟨c :: front, ⟨c, front, rfl, hc, hfront⟩, rfl⟩
        · rintro ⟨_, ⟨d, front, rfl, hd, hfront⟩, hcs⟩
          exact ⟨front, hfront, (List.cons.inj hcs).2⟩
      · rw [if_neg hc]
        constructor
        · rintro ⟨⟩
        · rintro ⟨_, ⟨d, front, rfl, hd, hfront⟩, hcs⟩
          exact absurd ((List.cons.inj hcs).1 ▸ hd) hc

/-- What an opening with a rest is, if the rests are the texts of a language. -/
theorem any_afterWord?_iff {accepts : List Char → Bool} {l : Language Char}
    (h : ∀ rest, accepts rest = true ↔ rest ∈ l) (cs letters : List Char) :
    (afterWord? letters cs).any accepts = true ↔ cs ∈ word letters * l := by
  simp only [Option.any_eq_true, afterWord?_eq_some_iff, h, Language.mem_mul]
  constructor
  · rintro ⟨rest, ⟨front, hfront, hcs⟩, hrest⟩
    exact ⟨front, hfront, rest, hrest, hcs⟩
  · rintro ⟨front, hfront, rest, hrest, hcs⟩
    exact ⟨rest, ⟨front, hfront, hcs⟩, hrest⟩

/-- The four openings, written out. -/
theorem openingPattern_eq :
    openingPattern = word "//".toList + (word "http://".toList + (word "https://".toList +
      word "ftp://".toList)) := by
  simp only [openingPattern, maybe, add_mul, mul_add, one_mul, mul_one, ← word_append]
  rw [← add_assoc (word "http://".toList)]
  rfl

/-! ## The user -/

theorem hasSiteAfterUser_iff (cs : List Char) :
    hasSiteAfterUser cs = true ↔ ∃ user site, cs = user ++ '@' :: site ∧
      (∀ c ∈ user, isNonblank c = true) ∧ isSite site = true := by
  induction cs with
  | nil => simp [hasSiteAfterUser]
  | cons c rest ih =>
    rw [hasSiteAfterUser, Bool.or_eq_true, Bool.and_eq_true, Bool.and_eq_true, beq_iff_eq, ih]
    constructor
    · rintro (⟨rfl, hsite⟩ | ⟨hc, user, site, rfl, huser, hsite⟩)
      · exact ⟨[], rest, rfl, by simp, hsite⟩
      · exact ⟨c :: user, site, rfl, List.forall_mem_cons.2 ⟨hc, huser⟩, hsite⟩
    · rintro ⟨user, site, hcs, huser, hsite⟩
      cases user with
      | nil =>
        obtain ⟨rfl, rfl⟩ := List.cons.inj hcs
        exact .inl ⟨rfl, hsite⟩
      | cons d user =>
        obtain ⟨rfl, rfl⟩ := List.cons.inj hcs
        obtain ⟨hd, huser⟩ := List.forall_mem_cons.1 huser
        exact .inr ⟨hd, user, site, rfl, huser, hsite⟩

/-- A colon in a user is a character like any other. -/
theorem mem_userPattern_iff :
    cs ∈ userPattern ↔
      ∃ c user, cs = c :: user ++ ['@'] ∧ ∀ d ∈ c :: user, isNonblank d = true := by
  rw [userPattern, Pattern.mem_mul_char_iff]
  constructor
  · rintro ⟨_, ⟨user, huser, more, hmore, rfl⟩, rfl⟩
    -- what the second part adds could have been taken by the first
    have hover : Over isNonblank (maybe (char ':' * unlimited (one isNonblank) 0)) :=
      ((Over.char (by decide)).mul ((Over.one fun _ => id).unlimited 0)).maybe
    obtain ⟨hlength, huser⟩ := Pattern.mem_unlimited_one_iff.1 huser
    obtain ⟨c, user, rfl⟩ := List.exists_cons_of_length_pos hlength
    exact ⟨c, user ++ more, rfl, List.forall_mem_append.2 ⟨huser, hover more hmore⟩⟩
  · rintro ⟨c, user, rfl, huser⟩
    have hfront := Pattern.mem_unlimited_one_iff.2 ⟨(by simp : 1 ≤ (c :: user).length), huser⟩
    exact ⟨c :: user, ⟨c :: user, hfront, [], .inl rfl, List.append_nil _⟩, rfl⟩

theorem isAuthority_iff {site : Language Char} (h : ∀ cs, isSite cs = true ↔ cs ∈ site)
    (cs : List Char) : isAuthority cs = true ↔ cs ∈ maybe userPattern * site := by
  unfold isAuthority
  rw [Bool.or_eq_true, Pattern.mem_maybe_mul_iff, ← h, Language.mem_mul]
  apply or_congr_right
  constructor
  · intro hcs
    cases cs with
    | nil => cases hcs
    | cons c rest =>
      obtain ⟨hc, hrest⟩ := (Bool.and_eq_true _ _).mp hcs
      obtain ⟨user, more, rfl, huser, hmore⟩ := (hasSiteAfterUser_iff rest).1 hrest
      refine ⟨c :: user ++ ['@'], ?_, more, (h more).1 hmore, by simp⟩
      exact mem_userPattern_iff.2 ⟨c, user, rfl, List.forall_mem_cons.2 ⟨hc, huser⟩⟩
  · rintro ⟨_, hfront, more, hmore, rfl⟩
    obtain ⟨c, user, rfl, huser⟩ := mem_userPattern_iff.1 hfront
    obtain ⟨hc, huser⟩ := List.forall_mem_cons.1 huser
    refine (Bool.and_eq_true _ _).mpr ⟨hc, (hasSiteAfterUser_iff _).2 ⟨user, more, ?_, huser, ?_⟩⟩
    · simp
    · exact (h more).2 hmore

/-! ## The host -/

theorem ne_point_of_isHostLabelChar {c : Char} (h : isHostLabelChar c = true) :
    (c != '.') = true :=
  bne_iff_ne.2 (Pattern.ne_of_test h (by decide))

theorem isHostLabelChar_of_isHostChar {c : Char} (h : isHostChar c = true) :
    isHostLabelChar c = true := by
  simp [isHostLabelChar, h]

theorem isHostLabelChar_of_isDigit {c : Char} (h : isDigit 10 c = true) :
    isHostLabelChar c = true := by
  simp [isHostLabelChar, isHostChar, h]

theorem isHostLabelChar_of_isHostLetter {c : Char} (h : isHostLetter c = true) :
    isHostLabelChar c = true := by
  simp [isHostLabelChar, isHostChar, h]

section

variable {test : Char → Bool} (h : ∀ c, isHostLabelChar c = true → test c = true)

include h

theorem over_hostLabelPattern : Over test hostLabelPattern :=
  (Over.one fun c hc => h c (isHostLabelChar_of_isHostChar hc)).mul ((Over.one h).repeated 0 62)

theorem over_topLabelPattern : Over test topLabelPattern :=
  (Over.one fun c hc => h c (isHostLabelChar_of_isHostLetter hc)).unlimited 2

theorem over_quadNumberPattern : Over test quadNumberPattern :=
  (Over.one fun c hc => h c (isHostLabelChar_of_isDigit hc)).repeated 1 3

end

theorem mem_hostLabelPattern_iff (label : List Char) :
    label ∈ hostLabelPattern ↔ isHostLabel label = true := by
  simp only [hostLabelPattern, Pattern.mem_one_mul_iff,
    Pattern.mem_repeated_one_iff (Nat.zero_le 62)]
  cases label with
  | nil => simp [isHostLabel]
  | cons c rest => simp [isHostLabel, isHostLabelChar, and_assoc]

theorem mem_topLabelPattern_iff (label : List Char) :
    label ∈ topLabelPattern ↔ isTopLabel label = true := by
  simp [topLabelPattern, Pattern.mem_unlimited_one_iff, isTopLabel]

/-- Whether a part is one of the four numbers. -/
def isQuadNumber (part : List Char) : Bool :=
  1 ≤ part.length && part.length ≤ 3 && part.all (isDigit 10)

theorem mem_quadNumberPattern_iff (part : List Char) :
    part ∈ quadNumberPattern ↔ isQuadNumber part = true := by
  simp [quadNumberPattern, Pattern.mem_repeated_one_iff, isQuadNumber, and_assoc]

theorem isDottedQuad_iff (host : List Char) : isDottedQuad host = true ↔ host ∈ quadPattern := by
  have hover := over_quadNumberPattern fun _ => ne_point_of_isHostLabelChar
  have hquad : isDottedQuad host = true ↔
      (split '.' host).length = 4 ∧ ∀ part ∈ split '.' host, isQuadNumber part = true := by
    simp [isDottedQuad, isQuadNumber]
  rw [hquad, quadPattern, Pattern.mem_pow_labels_iff hover hover,
    Text.exists_split_eq_concat_iff, Text.forall_mem_split_iff, List.length_dropLast]
  simp only [mem_quadNumberPattern_iff]
  exact and_congr_left' (by omega)

/-- The labels of a domain, without a point after the last. -/
def domainLabelsPattern : Language Char :=
  unlimited (hostLabelPattern * char '.') 1 * topLabelPattern

theorem mem_domainLabelsPattern_iff (host : List Char) :
    host ∈ domainLabelsPattern ↔
      (2 ≤ (split '.' host).length && (split '.' host).dropLast.all isHostLabel &&
        (split '.' host).getLast?.any isTopLabel) = true := by
  have hlabel := over_hostLabelPattern fun _ => ne_point_of_isHostLabelChar
  have htop := over_topLabelPattern fun _ => ne_point_of_isHostLabelChar
  rw [domainLabelsPattern, Pattern.mem_unlimited_labels_iff hlabel htop,
    Text.exists_split_eq_concat_iff, List.length_dropLast,
    List.getLast?_eq_some_getLast (Text.split_ne_nil '.' host)]
  have hlength : 1 ≤ (split '.' host).length - 1 ↔ 2 ≤ (split '.' host).length := by omega
  simp only [mem_hostLabelPattern_iff, mem_topLabelPattern_iff, hlength]
  simp [and_assoc]

/-- The last label is not empty. -/
theorem not_mem_domainLabelsPattern (front : List Char) :
    front ++ ['.'] ∉ domainLabelsPattern := by
  rintro ⟨labels, -, top, htop, hcs⟩
  obtain ⟨hlength, hchars⟩ := Pattern.mem_unlimited_one_iff.1 htop
  obtain rfl | ⟨top, c, rfl⟩ := List.eq_nil_or_concat' top
  · simp at hlength
  · dsimp only at hcs
    rw [← List.append_assoc] at hcs
    obtain ⟨-, hlast⟩ := List.append_inj' hcs rfl
    have hc := hchars c (by simp)
    rw [List.cons.inj hlast |>.1] at hc
    revert hc
    decide

theorem isDomainName_iff (host : List Char) : isDomainName host = true ↔ host ∈ domainPattern := by
  have hdomain : host ∈ domainPattern ↔
      host ∈ domainLabelsPattern ∨ ∃ front ∈ domainLabelsPattern, host = front ++ ['.'] := by
    rw [domainPattern, ← domainLabelsPattern, maybe, mul_add, mul_one, Language.mem_add,
      Pattern.mem_mul_char_iff]
  rw [hdomain]
  unfold isDomainName
  by_cases hpoint : host.getLast? = some '.'
  · -- the point at the end cannot belong to the labels, so it is the one that may follow them
    obtain ⟨front, rfl⟩ := List.getLast?_eq_some_iff.1 hpoint
    rw [if_pos hpoint, List.dropLast_concat, ← mem_domainLabelsPattern_iff]
    simp [not_mem_domainLabelsPattern]
  · rw [if_neg hpoint, ← mem_domainLabelsPattern_iff]
    constructor
    · exact Or.inl
    · rintro (hhost | ⟨front, -, rfl⟩)
      · exact hhost
      · simp at hpoint

/-! ## What follows the host -/

theorem isUrlTail_iff (cs : List Char) : isUrlTail cs = true ↔ cs ∈ maybe tailPattern := by
  rw [Pattern.mem_maybe_iff, tailPattern, Pattern.mem_one_mul_iff]
  cases cs with
  | nil => simp [isUrlTail]
  | cons c rest =>
    simp [isUrlTail, Pattern.mem_unlimited_one_iff, isTailMark, isNonblank]

theorem isTailMark_head {cs : List Char} (h : cs ∈ maybe tailPattern) :
    ∀ c ∈ cs.head?, isTailMark c = true := by
  rintro c hc
  rcases h with rfl | h
  · cases hc
  · obtain ⟨d, rest, rfl, hd, -⟩ := Pattern.mem_one_mul_iff.1 h
    obtain rfl := Option.some.inj hc
    exact hd

theorem not_isDigit_of_isTailMark {c : Char} (h : isTailMark c = true) : isDigit 10 c = false := by
  simp [isTailMark] at h
  rcases h with (rfl | rfl) | rfl <;> decide

theorem isNumberAndTail_colon (rest : List Char) :
    isNumberAndTail (':' :: rest) = true ↔
      rest ∈ repeated (one (isDigit 10)) 2 5 * maybe tailPattern := by
  have hover : Over (isDigit 10) (repeated (one (isDigit 10)) 2 5) :=
    (Over.one fun _ => id).repeated 2 5
  have hdigits : ∀ c ∈ rest.takeWhile (isDigit 10), isDigit 10 c = true :=
    List.all_eq_true.1 List.all_takeWhile
  rw [Pattern.mem_mul_iff_of_over hover fun tail htail c hc =>
      not_isDigit_of_isTailMark (isTailMark_head htail c hc),
    ← isUrlTail_iff, Pattern.mem_repeated_one_iff (by decide), and_iff_left hdigits]
  simp [isNumberAndTail]

theorem isNumberAndTail_iff (cs : List Char) :
    isNumberAndTail cs = true ↔ cs ∈ afterHostPattern := by
  rw [afterHostPattern, Pattern.mem_maybe_mul_iff, portPattern, mul_assoc, Pattern.mem_char_mul_iff]
  by_cases hcolon : ∃ rest, cs = ':' :: rest
  · obtain ⟨rest, rfl⟩ := hcolon
    have htail : ':' :: rest ∉ maybe tailPattern := fun h => by
      have := isTailMark_head h ':' rfl
      revert this
      decide
    rw [isNumberAndTail_colon]
    simp [htail]
  · have hnumber : isNumberAndTail cs = isUrlTail cs := by
      unfold isNumberAndTail
      split
      · exact absurd ⟨_, rfl⟩ hcolon
      · rfl
    rw [hnumber, isUrlTail_iff]
    constructor
    · exact Or.inl
    · rintro (htail | ⟨rest, rfl, -⟩)
      · exact htail
      · exact absurd ⟨rest, rfl⟩ hcolon

/-! ## The whole -/

theorem over_hostPattern : Over (fun c => !endsHost c) hostPattern := by
  have hchar (c : Char) (hc : isHostLabelChar c = true) : (!endsHost c) = true := by
    have hne {d : Char} (hd : isHostLabelChar d = false) : c ≠ d := Pattern.ne_of_test hc hd
    simp [endsHost, hne (d := ':') (by decide), hne (d := '/') (by decide),
      hne (d := '?') (by decide), hne (d := '#') (by decide)]
  have hpoint : Over (fun c => !endsHost c) (char '.') := Over.char (by decide)
  have hquad := (((over_quadNumberPattern hchar).mul hpoint).pow 3).mul
    (over_quadNumberPattern hchar)
  have hlabels := ((over_hostLabelPattern hchar).mul hpoint).unlimited 1
  exact hquad.add ((hlabels.mul (over_topLabelPattern hchar)).mul hpoint.maybe)

theorem endsHost_head {cs : List Char} (h : cs ∈ afterHostPattern) :
    ∀ c ∈ cs.head?, (!endsHost c) = false := by
  intro c hc
  rw [afterHostPattern, Pattern.mem_maybe_mul_iff, portPattern, mul_assoc, Pattern.mem_char_mul_iff] at h
  rcases h with htail | ⟨rest, rfl, -⟩
  · have hmark := isTailMark_head htail c hc
    simp [isTailMark] at hmark
    simp [endsHost]
    tauto
  · obtain rfl := Option.some.inj hc
    decide

theorem isSite_iff (cs : List Char) :
    isSite cs = true ↔ cs ∈ hostPattern * afterHostPattern := by
  rw [Pattern.mem_mul_iff_of_over over_hostPattern fun _ => endsHost_head, ← isNumberAndTail_iff,
    hostPattern, Language.mem_add, ← isDottedQuad_iff, ← isDomainName_iff]
  simp [isSite]

/-- What is read part by part is what has the pattern. -/
theorem isUrl_iff (cs : List Char) : isUrl cs = true ↔ cs ∈ urlPattern := by
  have hopening := any_afterWord?_iff (isAuthority_iff isSite_iff) cs
  simp only [isUrl, List.any_cons, List.any_nil, Bool.or_false, Bool.or_eq_true, hopening,
    urlPattern, beforeHostPattern, mul_assoc, openingPattern_eq, add_mul, Language.mem_add]

end IntervalRules.Format
