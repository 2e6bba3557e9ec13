import IntervalRules.Proofs.Splitting
import Mathlib.Computability.Language

/-!
Patterns of texts, put together from single characters by the operations on languages: alternatives
are a sum, one after another a product, and repetitions powers and stars. Where only the characters
and the length count, membership is stated so. Labels with points between them are the parts that a
text is split into.
-/

namespace IntervalRules.Pattern

open scoped Computability

/-- The texts of one character that passes the test. -/
def one (test : Char → Bool) : Language Char := {cs | ∃ c, test c = true ∧ cs = [c]}

/-- The text of a character alone. -/
def char (c : Char) : Language Char := one (· == c)

/-- Nothing, or what the language has. -/
def maybe (l : Language Char) : Language Char := 1 + l

/-- From `least` to `most` of the language one after another. -/
def repeated (l : Language Char) (least most : Nat) : Language Char :=
  l ^ least * maybe l ^ (most - least)

/-- At least `least` of the language one after another. -/
def unlimited (l : Language Char) (least : Nat) : Language Char := l ^ least * l∗

variable {test : Char → Bool} {l m : Language Char} {cs : List Char}

/-! ## Membership -/

theorem mem_one_mul_iff :
    cs ∈ one test * l ↔ ∃ c rest, cs = c :: rest ∧ test c = true ∧ rest ∈ l := by
  rw [Language.mem_mul]
  constructor
  · rintro ⟨_, ⟨c, hc, rfl⟩, rest, hrest, rfl⟩
    exact ⟨c, rest, rfl, hc, hrest⟩
  · rintro ⟨c, rest, rfl, hc, hrest⟩
    exact ⟨[c], ⟨c, hc, rfl⟩, rest, hrest, rfl⟩

theorem mem_mul_one_iff :
    cs ∈ l * one test ↔ ∃ front c, cs = front ++ [c] ∧ front ∈ l ∧ test c = true := by
  rw [Language.mem_mul]
  constructor
  · rintro ⟨front, hfront, _, ⟨c, hc, rfl⟩, rfl⟩
    exact ⟨front, c, rfl, hfront, hc⟩
  · rintro ⟨front, c, rfl, hfront, hc⟩
    exact ⟨front, hfront, [c], ⟨c, hc, rfl⟩, rfl⟩

theorem mem_char_mul_iff {c : Char} : cs ∈ char c * l ↔ ∃ rest, cs = c :: rest ∧ rest ∈ l := by
  rw [char, mem_one_mul_iff]
  constructor
  · rintro ⟨d, rest, rfl, hd, hrest⟩
    exact ⟨rest, by rw [beq_iff_eq.1 hd], hrest⟩
  · rintro ⟨rest, rfl, hrest⟩
    exact ⟨c, rest, rfl, beq_self_eq_true c, hrest⟩

theorem mem_mul_char_iff {c : Char} : cs ∈ l * char c ↔ ∃ front ∈ l, cs = front ++ [c] := by
  rw [char, mem_mul_one_iff]
  constructor
  · rintro ⟨front, d, rfl, hfront, hd⟩
    exact ⟨front, hfront, by rw [beq_iff_eq.1 hd]⟩
  · rintro ⟨front, hfront, rfl⟩
    exact ⟨front, c, rfl, hfront, beq_self_eq_true c⟩

theorem mem_maybe_iff : cs ∈ maybe l ↔ cs = [] ∨ cs ∈ l := Iff.rfl

theorem mem_maybe_mul_iff : cs ∈ maybe l * m ↔ cs ∈ m ∨ cs ∈ l * m := by
  rw [maybe, add_mul, one_mul, Language.mem_add]

theorem mem_one_pow_iff {n : Nat} :
    cs ∈ one test ^ n ↔ cs.length = n ∧ ∀ c ∈ cs, test c = true := by
  induction n generalizing cs with
  | zero => simp +contextual [List.length_eq_zero_iff]
  | succ n ih =>
    rw [pow_succ', mem_one_mul_iff]
    constructor
    · rintro ⟨c, rest, rfl, hc, hrest⟩
      obtain ⟨rfl, htest⟩ := ih.1 hrest
      exact ⟨rfl, List.forall_mem_cons.2 ⟨hc, htest⟩⟩
    · rintro ⟨hlength, htest⟩
      obtain ⟨c, rest, rfl⟩ := List.exists_cons_of_length_eq_add_one hlength
      obtain ⟨hc, hrest⟩ := List.forall_mem_cons.1 htest
      exact ⟨c, rest, rfl, hc, ih.2 ⟨Nat.succ_inj.1 hlength, hrest⟩⟩

theorem mem_maybe_one_pow_iff {n : Nat} :
    cs ∈ maybe (one test) ^ n ↔ cs.length ≤ n ∧ ∀ c ∈ cs, test c = true := by
  induction n generalizing cs with
  | zero => simp +contextual [List.length_eq_zero_iff]
  | succ n ih =>
    rw [pow_succ', mem_maybe_mul_iff, mem_one_mul_iff, ih]
    constructor
    · rintro (⟨hlength, htest⟩ | ⟨c, rest, rfl, hc, hrest⟩)
      · exact ⟨by omega, htest⟩
      · obtain ⟨hlength, htest⟩ := ih.1 hrest
        exact ⟨by simp; omega, List.forall_mem_cons.2 ⟨hc, htest⟩⟩
    · rintro ⟨hlength, htest⟩
      cases cs with
      | nil => exact .inl ⟨Nat.zero_le n, htest⟩
      | cons c rest =>
        obtain ⟨hc, hrest⟩ := List.forall_mem_cons.1 htest
        exact .inr ⟨c, rest, rfl, hc, ih.2 ⟨Nat.succ_le_succ_iff.1 hlength, hrest⟩⟩

/-- Characters are repeated by their number. -/
theorem mem_repeated_one_iff {least most : Nat} (h : least ≤ most) :
    cs ∈ repeated (one test) least most ↔
      least ≤ cs.length ∧ cs.length ≤ most ∧ ∀ c ∈ cs, test c = true := by
  rw [repeated, Language.mem_mul]
  constructor
  · rintro ⟨front, hfront, rest, hrest, rfl⟩
    obtain ⟨hleast, hfront⟩ := mem_one_pow_iff.1 hfront
    obtain ⟨hmost, hrest⟩ := mem_maybe_one_pow_iff.1 hrest
    have hlength : (front ++ rest).length = front.length + rest.length := List.length_append
    exact ⟨by omega, by omega, List.forall_mem_append.2 ⟨hfront, hrest⟩⟩
  · rintro ⟨hleast, hmost, htest⟩
    refine ⟨cs.take least, mem_one_pow_iff.2 ⟨by simpa using hleast, ?_⟩, cs.drop least,
      mem_maybe_one_pow_iff.2 ⟨by simp; omega, ?_⟩, List.take_append_drop least cs⟩
    · exact fun c hc => htest c (List.mem_of_mem_take hc)
    · exact fun c hc => htest c (List.mem_of_mem_drop hc)

theorem mem_unlimited_one_iff {least : Nat} :
    cs ∈ unlimited (one test) least ↔ least ≤ cs.length ∧ ∀ c ∈ cs, test c = true := by
  rw [unlimited, Language.kstar_eq_iSup_pow, Language.mul_iSup, Language.mem_iSup]
  simp only [← pow_add, mem_one_pow_iff]
  constructor
  · rintro ⟨n, hlength, htest⟩
    exact ⟨by omega, htest⟩
  · rintro ⟨hleast, htest⟩
    exact ⟨cs.length - least, by omega, htest⟩

/-! ## The characters of a language -/

/-- A test tells characters apart. -/
theorem ne_of_test {c d : Char} (hc : test c = true) (hd : test d = false) : c ≠ d := by
  rintro rfl
  rw [hc] at hd
  cases hd

/-- Every character of every text passes the test. -/
def Over (test : Char → Bool) (l : Language Char) : Prop := ∀ cs ∈ l, ∀ c ∈ cs, test c = true

namespace Over

theorem one {test' : Char → Bool} (h : ∀ c, test' c = true → test c = true) :
    Over test (one test') := by
  rintro _ ⟨c, hc, rfl⟩
  simpa using h c hc

theorem char {c : Char} (h : test c = true) : Over test (char c) := by
  apply Over.one
  intro d hd
  rwa [beq_iff_eq.1 hd]

theorem empty : Over test 1 := by
  rintro _ rfl
  simp

theorem add (hl : Over test l) (hm : Over test m) : Over test (l + m) := by
  rintro cs (hcs | hcs)
  · exact hl cs hcs
  · exact hm cs hcs

theorem maybe (hl : Over test l) : Over test (maybe l) := empty.add hl

theorem mul (hl : Over test l) (hm : Over test m) : Over test (l * m) := by
  rintro _ ⟨front, hfront, rest, hrest, rfl⟩
  exact List.forall_mem_append.2 ⟨hl front hfront, hm rest hrest⟩

theorem pow (hl : Over test l) (n : Nat) : Over test (l ^ n) := by
  induction n with
  | zero => exact empty
  | succ n ih =>
    rw [pow_succ]
    exact ih.mul hl

theorem kstar (hl : Over test l) : Over test l∗ := by
  intro cs hcs
  rw [Language.kstar_eq_iSup_pow, Language.mem_iSup] at hcs
  obtain ⟨n, hcs⟩ := hcs
  exact hl.pow n cs hcs

theorem repeated (hl : Over test l) (least most : Nat) : Over test (repeated l least most) :=
  (hl.pow least).mul (hl.maybe.pow (most - least))

theorem unlimited (hl : Over test l) (least : Nat) : Over test (unlimited l least) :=
  (hl.pow least).mul hl.kstar

end Over

/-- Where a test tells the characters of the one language from the first character of the other,
it finds where the one ends. -/
theorem mem_mul_iff_of_over (hl : Over test l)
    (hm : ∀ rest ∈ m, ∀ c ∈ rest.head?, test c = false) :
    cs ∈ l * m ↔ cs.takeWhile test ∈ l ∧ cs.dropWhile test ∈ m := by
  rw [Language.mem_mul]
  constructor
  · rintro ⟨front, hfront, rest, hrest, rfl⟩
    obtain ⟨htake, hdrop⟩ := Text.takeWhile_front rest (hl front hfront) (hm rest hrest)
    rw [htake, hdrop]
    exact ⟨hfront, hrest⟩
  · rintro ⟨htake, hdrop⟩
    exact ⟨_, htake, _, hdrop, List.takeWhile_append_dropWhile⟩

/-! ## Labels -/

open Text (split)

section

variable {label last : Language Char}

/-- So many labels, each with a point after it, and a last part. -/
theorem mem_pow_labels_iff (hlabel : Over (· != '.') label) (hlast : Over (· != '.') last)
    {n : Nat} :
    cs ∈ (label * char '.') ^ n * last ↔
      ∃ parts part, split '.' cs = parts ++ [part] ∧ parts.length = n ∧
        (∀ p ∈ parts, p ∈ label) ∧ part ∈ last := by
  have hpoint {l : Language Char} (hl : Over (· != '.') l) {part : List Char} (hpart : part ∈ l) :
      '.' ∉ part := fun hmem => by simpa using hl part hpart '.' hmem
  induction n generalizing cs with
  | zero =>
    rw [pow_zero, one_mul]
    constructor
    · intro hcs
      exact ⟨[], cs, Text.split_of_not_mem (hpoint hlast hcs), rfl, by simp, hcs⟩
    · rintro ⟨parts, part, hsplit, hparts, -, hpart⟩
      obtain rfl := List.length_eq_zero_iff.1 hparts
      obtain ⟨rfl, -⟩ := Text.split_eq_singleton_iff.1 hsplit
      exact hpart
  | succ n ih =>
    rw [pow_succ', mul_assoc, mul_assoc, Language.mem_mul]
    constructor
    · rintro ⟨first, hfirst, more, hmore, rfl⟩
      obtain ⟨rest, rfl, hrest⟩ := mem_char_mul_iff.1 hmore
      obtain ⟨parts, part, hsplit, rfl, hparts, hpart⟩ := ih.1 hrest
      refine ⟨first :: parts, part, ?_, rfl, List.forall_mem_cons.2 ⟨hfirst, hparts⟩, hpart⟩
      rw [Text.split_append (hpoint hlabel hfirst), hsplit, List.cons_append]
    · rintro ⟨parts, part, hsplit, hlength, hparts, hpart⟩
      obtain ⟨first, parts, rfl⟩ := List.exists_cons_of_length_eq_add_one hlength
      obtain ⟨hfirst, hparts⟩ := List.forall_mem_cons.1 hparts
      obtain ⟨rest, rfl, hrest⟩ := Text.exists_of_split_eq_cons hsplit (by simp)
      have hmore := ih.2 ⟨parts, part, hrest, Nat.succ_inj.1 hlength, hparts, hpart⟩
      exact ⟨first, hfirst, '.' :: rest, mem_char_mul_iff.2 ⟨rest, rfl, hmore⟩, rfl⟩

/-- At least so many labels, each with a point after it, and a last part. -/
theorem mem_unlimited_labels_iff (hlabel : Over (· != '.') label) (hlast : Over (· != '.') last)
    {least : Nat} :
    cs ∈ unlimited (label * char '.') least * last ↔
      ∃ parts part, split '.' cs = parts ++ [part] ∧ least ≤ parts.length ∧
        (∀ p ∈ parts, p ∈ label) ∧ part ∈ last := by
  rw [unlimited, Language.kstar_eq_iSup_pow, Language.mul_iSup, Language.iSup_mul,
    Language.mem_iSup]
  simp only [← pow_add, mem_pow_labels_iff hlabel hlast]
  constructor
  · rintro ⟨n, parts, part, hsplit, hlength, hparts⟩
    exact ⟨parts, part, hsplit, by omega, hparts⟩
  · rintro ⟨parts, part, hsplit, hleast, hparts⟩
    exact ⟨parts.length - least, parts, part, hsplit, by omega, hparts⟩

/-- Labels with points between them. -/
theorem mem_labels_iff (hlabel : Over (· != '.') label) :
    cs ∈ label * (char '.' * label)∗ ↔ ∀ p ∈ split '.' cs, p ∈ label := by
  have hpow (n : Nat) : label * (char '.' * label) ^ n = (label * char '.') ^ n * label :=
    (mul_pow_mul label (char '.') n).symm
  rw [Language.kstar_eq_iSup_pow, Language.mul_iSup, Language.mem_iSup]
  simp only [hpow, mem_pow_labels_iff hlabel hlabel, Text.exists_split_eq_concat_iff,
    Text.forall_mem_split_iff]
  exact ⟨fun ⟨_, _, h⟩ => h, fun h => ⟨_, rfl, h⟩⟩

end

end IntervalRules.Pattern
