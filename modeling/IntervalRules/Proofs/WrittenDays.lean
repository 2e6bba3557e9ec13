import IntervalRules.Proofs.SuccessiveDays
import IntervalRules.Proofs.PlainText
import IntervalRules.Proofs.WrittenSpecs
import IntervalRules.Rule.Check
import Mathlib.Data.String.Basic
import Mathlib.Order.Fin.Basic
import Mathlib.Order.Hom.Set

/-!
Days as they are written: four digits for the year and two each for the month and the day, with
hyphens between them. The rule for dates passes exactly the texts of the real days. As every part
has a fixed number of digits, the texts are in the order of the days, so that there is one for each
day of the years 0 to 9999 and they are numbered by the days before them.
-/

namespace IntervalRules

open Text (isDigit natOf)

/-! ## Digits of a fixed number -/

/-- So many digits that denote the natural. -/
structure Text.Written (width n : Nat) (cs : List Char) : Prop where
  length : cs.length = width
  digits : ∀ c ∈ cs, isDigit 10 c = true
  value : natOf 10 cs = n

namespace Text

theorem digit?_of_isDigit {c : Char} (h : isDigit 10 c = true) :
    digit? 10 c = some (c.toNat - 48) ∧ 48 ≤ c.toNat ∧ c.toNat ≤ 57 := by
  have hcode := (Literal.isDigit_iff 10 c).1 h
  have hlow : '0' ≤ c ∧ c ≤ '9' := by
    rw [Literal.char_le_iff, Literal.char_le_iff, show '0'.toNat = 48 from rfl,
      show '9'.toNat = 57 from rfl]
    omega
  have hsmall : c.toNat - '0'.toNat < 10 := by
    rw [show '0'.toNat = 48 from rfl]
    omega
  refine ⟨?_, by omega, by omega⟩
  rw [digit?, if_pos hlow]
  exact Option.filter_eq_some_iff.2 ⟨rfl, decide_eq_true hsmall⟩

theorem natOf_cons {c : Char} {cs : List Char} (h : ∀ d ∈ c :: cs, isDigit 10 d = true) :
    natOf 10 (c :: cs) = (c.toNat - 48) * 10 ^ cs.length + natOf 10 cs := by
  have hfirst : natOf 10 [c] = c.toNat - 48 := by
    simp [natOf, digitValues, (digit?_of_isDigit (h c List.mem_cons_self)).1]
  rw [← List.singleton_append, natOf_append [c] fun d hd => h d (List.mem_cons_of_mem c hd), hfirst]
  rfl

theorem natOf_lt {cs : List Char} (h : ∀ c ∈ cs, isDigit 10 c = true) :
    natOf 10 cs < 10 ^ cs.length := by
  induction cs with
  | nil => decide
  | cons c cs ih =>
    have hrest := ih fun d hd => h d (List.mem_cons_of_mem c hd)
    obtain ⟨-, hlow, hhigh⟩ := digit?_of_isDigit (h c List.mem_cons_self)
    rw [natOf_cons h, List.length_cons, Nat.pow_succ]
    have hfirst : (c.toNat - 48) * 10 ^ cs.length ≤ 9 * 10 ^ cs.length :=
      Nat.mul_le_mul_right _ (by omega)
    omega

/-- Texts after fronts of one length are in the order of the fronts, and after the same front in
their own. -/
theorem append_lt_append_iff {front front' : List Char} (h : front.length = front'.length)
    (back back' : List Char) :
    front ++ back < front' ++ back' ↔ front < front' ∨ front = front' ∧ back < back' := by
  induction front generalizing front' with
  | nil =>
    obtain rfl := List.length_eq_zero_iff.1 h.symm
    simp
  | cons c front ih =>
    obtain ⟨d, front', rfl⟩ := List.exists_cons_of_length_eq_add_one h.symm
    rw [List.cons_append, List.cons_append, List.cons_lt_cons_iff, List.cons_lt_cons_iff,
      ih (Nat.succ.inj h), List.cons.injEq]
    tauto

namespace Written

variable {width n n' : Nat} {cs cs' : List Char}

theorem lt_pow (h : Written width n cs) : n < 10 ^ width := by
  rw [← h.value, ← h.length]
  exact natOf_lt h.digits

/-- As many digits are in the order of what they denote. -/
theorem lt_iff (h : Written width n cs) (h' : Written width n' cs') : cs < cs' ↔ n < n' := by
  obtain ⟨hlength, hdigits, rfl⟩ := h
  obtain ⟨hlength', hdigits', rfl⟩ := h'
  induction cs generalizing cs' width with
  | nil =>
    obtain rfl := List.length_eq_zero_iff.1 (hlength'.trans hlength.symm)
    simp
  | cons c cs ih =>
    obtain ⟨d, cs', rfl⟩ := List.exists_cons_of_length_eq_add_one (hlength'.trans hlength.symm)
    have hrest : ∀ x ∈ cs, isDigit 10 x = true := fun x hx => hdigits x (List.mem_cons_of_mem c hx)
    have hrest' : ∀ x ∈ cs', isDigit 10 x = true :=
      fun x hx => hdigits' x (List.mem_cons_of_mem d hx)
    have hsame : cs'.length = cs.length := Nat.succ.inj (hlength'.trans hlength.symm)
    have hlt := natOf_lt hrest
    have hlt' := natOf_lt hrest'
    obtain ⟨-, hlow, hhigh⟩ := digit?_of_isDigit (hdigits c List.mem_cons_self)
    obtain ⟨-, hlow', hhigh'⟩ := digit?_of_isDigit (hdigits' d List.mem_cons_self)
    have hcode : c < d ↔ c.toNat < d.toNat := by
      rw [← not_le, Literal.char_le_iff, not_le]
    rw [List.cons_lt_cons_iff, ih rfl hrest hsame hrest', natOf_cons hdigits, natOf_cons hdigits',
      hcode, ← Char.toNat_inj, hsame]
    rw [hsame] at hlt'
    -- the first digits decide, as what is left is less than one of their units
    rcases Nat.lt_trichotomy c.toNat d.toNat with hless | heq | hmore
    · have hunit : (c.toNat - 48 + 1) * 10 ^ cs.length ≤ (d.toNat - 48) * 10 ^ cs.length :=
        Nat.mul_le_mul_right _ (by omega)
      rw [Nat.add_mul, Nat.one_mul] at hunit
      exact iff_of_true (.inl hless) (by omega)
    · rw [heq]
      omega
    · have hunit : (d.toNat - 48 + 1) * 10 ^ cs.length ≤ (c.toNat - 48) * 10 ^ cs.length :=
        Nat.mul_le_mul_right _ (by omega)
      rw [Nat.add_mul, Nat.one_mul] at hunit
      exact iff_of_false (by omega) (by omega)

theorem eq_iff (h : Written width n cs) (h' : Written width n' cs') : cs = cs' ↔ n = n' := by
  constructor
  · rintro rfl
    exact h.value.symm.trans h'.value
  · rintro rfl
    rcases lt_trichotomy cs cs' with hlt | heq | hgt
    · exact absurd ((h.lt_iff h').1 hlt) (Nat.lt_irrefl n)
    · exact heq
    · exact absurd ((h'.lt_iff h).1 hgt) (Nat.lt_irrefl n)

end Written

theorem exists_written (width : Nat) {n : Nat} (h : n < 10 ^ width) : ∃ cs, Written width n cs := by
  induction width generalizing n with
  | zero =>
    have hzero : n = 0 := by omega
    exact ⟨[], rfl, nofun, hzero.symm⟩
  | succ width ih =>
    rw [Nat.pow_succ] at h
    obtain ⟨cs, hlength, hdigits, hvalue⟩ := ih (n := n / 10) (by omega)
    have hmod : n % 10 < 10 := Nat.mod_lt n (by decide)
    have hlast : ∀ c ∈ [(n % 10).digitChar], isDigit 10 c = true := by
      intro c hc
      rw [List.mem_singleton.1 hc, isDigit, digit?_digitChar hmod]
      rfl
    have hvalueLast : natOf 10 [(n % 10).digitChar] = n % 10 := by
      simp [natOf, digitValues, digit?_digitChar hmod]
    refine ⟨cs ++ [(n % 10).digitChar], by simp [hlength], ?_, ?_⟩
    · intro c hc
      rcases List.mem_append.1 hc with hc | hc
      · exact hdigits c hc
      · exact hlast c hc
    · rw [natOf_append _ hlast, hvalue, hvalueLast]
      simp only [List.length_singleton, Nat.pow_eq, Nat.pow_one]
      omega

end Text

open Text (Written)

/-! ## Texts of days -/

namespace Format

/-- Four digits, two and two, with hyphens between them, that name the day. -/
def Names (cs : List Char) (d : Day) : Prop :=
  ∃ year month day : List Char, cs = year ++ '-' :: (month ++ '-' :: day) ∧
    Written 4 d.year year ∧ Written 2 d.month month ∧ Written 2 d.day day

theorem Day.read?_eq_some_iff (cs : List Char) (d : Day) : Day.read? cs = some d ↔ Names cs d := by
  constructor
  · intro h
    unfold Day.read? at h
    split at h
    · rename_i y₁ y₂ y₃ y₄ m₁ m₂ d₁ d₂
      split at h
      · rename_i hall
        obtain rfl := Option.some.inj h
        simp only [List.all_cons, List.all_nil, Bool.and_true, Bool.and_eq_true] at hall
        exact ⟨[y₁, y₂, y₃, y₄], [m₁, m₂], [d₁, d₂], rfl, ⟨rfl, by simp [hall], rfl⟩,
          ⟨rfl, by simp [hall], rfl⟩, ⟨rfl, by simp [hall], rfl⟩⟩
      · cases h
    · cases h
  · rintro ⟨year, month, day, rfl, hyear, hmonth, hday⟩
    obtain ⟨y₁, y₂, y₃, y₄, rfl⟩ := List.length_eq_four.1 hyear.length
    obtain ⟨m₁, m₂, rfl⟩ := List.length_eq_two.1 hmonth.length
    obtain ⟨d₁, d₂, rfl⟩ := List.length_eq_two.1 hday.length
    have hall : [y₁, y₂, y₃, y₄, m₁, m₂, d₁, d₂].all (isDigit 10) = true := by
      rw [List.all_eq_true]
      intro c hc
      simp only [List.mem_cons, List.not_mem_nil, or_false] at hc
      rcases hc with rfl | rfl | rfl | rfl | rfl | rfl | rfl | rfl
      · exact hyear.digits _ (by simp)
      · exact hyear.digits _ (by simp)
      · exact hyear.digits _ (by simp)
      · exact hyear.digits _ (by simp)
      · exact hmonth.digits _ (by simp)
      · exact hmonth.digits _ (by simp)
      · exact hday.digits _ (by simp)
      · exact hday.digits _ (by simp)
    simp only [List.cons_append, List.nil_append, Day.read?]
    rw [if_pos hall, hyear.value, hmonth.value, hday.value]

namespace Names

variable {cs cs' : List Char} {d e : Day}

theorem unique (h : Names cs d) (h' : Names cs e) : d = e := by
  rw [← Day.read?_eq_some_iff] at h h'
  exact Option.some.inj (h.symm.trans h')

theorem not_isBlank (h : Names cs d) : ∀ c ∈ cs, Text.isBlank c = false := by
  obtain ⟨year, month, day, rfl, hyear, hmonth, hday⟩ := h
  intro c hc
  simp only [List.mem_append, List.mem_cons] at hc
  rcases hc with hc | rfl | hc | rfl | hc
  · exact Literal.not_isBlank_of_isDigit (hyear.digits c hc)
  · decide
  · exact Literal.not_isBlank_of_isDigit (hmonth.digits c hc)
  · decide
  · exact Literal.not_isBlank_of_isDigit (hday.digits c hc)

theorem trimChars_eq (h : Names cs d) : Text.trimChars cs = cs :=
  (Text.trimChars_eq_self_iff cs).2 ⟨fun c hc => h.not_isBlank c (List.mem_of_head? hc),
    fun c hc => h.not_isBlank c (List.mem_of_getLast? hc)⟩

theorem year_lt (h : Names cs d) : d.year < 10000 := by
  obtain ⟨year, month, day, -, hyear, -, -⟩ := h
  exact hyear.lt_pow

/-- The texts of days are in the order of the days. -/
theorem lt_iff (h : Names cs d) (h' : Names cs' e) : cs < cs' ↔ d.Earlier e := by
  obtain ⟨year, month, day, rfl, hyear, hmonth, hday⟩ := h
  obtain ⟨year', month', day', rfl, hyear', hmonth', hday'⟩ := h'
  have hyears : year.length = year'.length := hyear.length.trans hyear'.length.symm
  have hmonths : month.length = month'.length := hmonth.length.trans hmonth'.length.symm
  rw [Text.append_lt_append_iff hyears, List.cons_lt_cons_iff, Text.append_lt_append_iff hmonths,
    List.cons_lt_cons_iff, hyear.lt_iff hyear', hyear.eq_iff hyear', hmonth.lt_iff hmonth',
    hmonth.eq_iff hmonth', hday.lt_iff hday', Day.Earlier]
  simp

end Names

/-- A real day of the years 0 to 9999 can be written. -/
theorem exists_names {d : Day} (h : d.isReal = true) (hyear : d.year < 10000) :
    ∃ cs, Names cs d := by
  have hmonth := (Day.month_of_isReal h).2
  have hday : d.day < 10 ^ 2 := by
    have hlast := ((Day.isReal_iff d).1 h).2
    have hmost := Day.lastDay_le d.year d.month
    omega
  obtain ⟨year, hyear⟩ := Text.exists_written 4 hyear
  obtain ⟨month, hmonth⟩ := Text.exists_written 2 (n := d.month) (by omega)
  obtain ⟨day, hday⟩ := Text.exists_written 2 hday
  exact ⟨year ++ '-' :: (month ++ '-' :: day), year, month, day, rfl, hyear, hmonth, hday⟩

theorem isDay_iff (cs : List Char) :
    isDay cs = true ↔ ∃ d : Day, Names (Text.trimChars cs) d ∧ d.isReal = true := by
  rw [isDay, Option.any_eq_true]
  exact exists_congr fun d => and_congr_left fun _ => Day.read?_eq_some_iff _ d

end Format

/-! ## The rule -/

namespace Rule

open Format (Names Day)

/-- The values that the rule for dates passes, trimmed. -/
def dateTexts : Set String :=
  {text | ∃ value params, Rule.date.check value params = .ok true ∧ Text.trim value = text}

theorem check_date_eq_ok_true_iff (value : String) (params : List String) :
    Rule.date.check value params = .ok true ↔
      ∃ d, Names (Text.trim value).toList d ∧ d.isReal = true := by
  have htrim : (Text.trim value).toList = Text.trimChars value.toList := String.toList_ofList
  rw [htrim, ← Format.isDay_iff]
  exact ⟨Except.ok.inj, congrArg _⟩

theorem mem_dateTexts_iff (text : String) :
    text ∈ dateTexts ↔ ∃ d, Names text.toList d ∧ d.isReal = true := by
  constructor
  · rintro ⟨value, params, hvalue, rfl⟩
    exact (check_date_eq_ok_true_iff value params).1 hvalue
  · rintro ⟨d, hnames, hreal⟩
    have htrim : Text.trim text = text := by
      rw [Text.trim, hnames.trimChars_eq, String.ofList_toList]
    refine ⟨text, [], ?_, htrim⟩
    rw [check_date_eq_ok_true_iff, htrim]
    exact ⟨d, hnames, hreal⟩

/-- Every day of the years 0 to 9999 has a text. -/
theorem exists_mem_dateTexts {n : Nat} (h : n < Day.daysToYear 10000) :
    ∃ text ∈ dateTexts, Names text.toList (Day.next^[n] Day.first) := by
  obtain ⟨hreal, hvalue⟩ := Day.iterate_next n
  have hyear : (Day.next^[n] Day.first).year < 10000 := by
    rwa [Day.year_lt_iff hreal, hvalue]
  obtain ⟨cs, hcs⟩ := Format.exists_names hreal hyear
  have htext : Names (String.ofList cs).toList (Day.next^[n] Day.first) := by
    rwa [String.toList_ofList]
  exact ⟨String.ofList cs, (mem_dateTexts_iff _).2 ⟨_, htext, hreal⟩, htext⟩

/-- The texts are numbered in their order, each by the days before the one that it names. -/
theorem exists_number_dateTexts :
    ∃ number : dateTexts ≃o Fin (Day.daysToYear 10000),
      ∀ text, Names text.1.toList (Day.next^[number text] Day.first) := by
  have hday : ∀ text : dateTexts, ∃ d, Names text.1.toList d ∧ d.isReal = true :=
    fun text => (mem_dateTexts_iff text.1).1 text.2
  choose day hnames hreal using hday
  have hnumber (text : dateTexts) : (day text).number < Day.daysToYear 10000 :=
    (Day.year_lt_iff (hreal text) 10000).1 (hnames text).year_lt
  let number (text : dateTexts) : Fin (Day.daysToYear 10000) := ⟨(day text).number, hnumber text⟩
  have hmono : StrictMono number := by
    intro text text' hlt
    refine (Day.number_lt_iff (hreal text) (hreal text')).2 ?_
    exact ((hnames text).lt_iff (hnames text')).1 (String.lt_iff_toList_lt.1 hlt)
  have hsurjective : Function.Surjective number := by
    intro n
    obtain ⟨text, hmem, htext⟩ := exists_mem_dateTexts n.isLt
    refine ⟨⟨text, hmem⟩, Fin.ext ?_⟩
    have hsame : day ⟨text, hmem⟩ = Day.next^[n] Day.first := (hnames ⟨text, hmem⟩).unique htext
    exact (congrArg Day.number hsame).trans (Day.iterate_next n).2
  refine ⟨StrictMono.orderIsoOfSurjective number hmono hsurjective, fun text => ?_⟩
  have hiterate := Day.iterate_number (hreal text)
  exact hiterate ▸ hnames text

/-- The rule for dates passes exactly the texts of the days that come after the first of January of
the year 0, without regard to blanks around them. The trimmed texts are in the order of the days of
the years 0 to 9999, and there is one for each of these. -/
theorem check_date_iff :
    (∀ value params, ∃ passed, Rule.date.check value params = .ok passed ∧
      (passed = true ↔
        ∃ d, Names (Text.trim value).toList d ∧ ∃ n, Day.next^[n] Day.first = d)) ∧
    (∃ number : dateTexts ≃o Fin (Day.daysToYear 10000),
      ∀ text, Names text.1.toList (Day.next^[number text] Day.first)) ∧
    Day.daysToYear 10000 = 3652425 := by
  have hdays := Day.daysToYear_add 10000
  refine ⟨fun value params => ?_, exists_number_dateTexts, by omega⟩
  refine ⟨Format.isDay value.toList, rfl, ?_⟩
  have hcheck := check_date_eq_ok_true_iff value params
  simp only [Day.isReal_iff_exists] at hcheck
  rw [← hcheck]
  exact ⟨congrArg _, Except.ok.inj⟩

example : Rule.date.check " 2000-02-29\n" [] = .ok true := by decide

example : Rule.date.check "1900-02-29" [] = .ok false := by decide

end Rule

end IntervalRules
