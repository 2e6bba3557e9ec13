import IntervalRules.Message
import IntervalRules.Proofs.PlainText
import Mathlib.Data.List.TakeWhile

/-!
Filling of templates as one pass from left to right. Placeholders are searched for by their form,
which any decimal digits have, and those without a parameter are skipped as a whole. Still the
message is what a pass over the characters gives that stops only at placeholders with a parameter:
a form that is skipped has no such placeholder in it.
-/

namespace IntervalRules.Message

open Text (isDecimal isDigit natOf)

theorem isDecimal_of_isDigit {c : Char} (h : isDigit 10 c = true) : isDecimal c = true := by
  rw [Literal.isDigit_iff] at h
  rw [isDecimal, List.any_eq_true]
  refine ⟨0x30, List.mem_cons_self, ?_⟩
  rw [Bool.and_eq_true, decide_eq_true_eq, decide_eq_true_eq]
  omega

/-! ## Forms -/

namespace Placeholder

/-- Decimal digits stand in the braces. -/
structure WellFormed (p : Placeholder) : Prop where
  ne_nil : p.digits ≠ []
  isDecimal_of_mem : ∀ d ∈ p.digits, isDecimal d = true

/-- The placeholder is that of a parameter: its digits are ASCII, and what they denote fits a
machine word and is the number of the parameter. -/
structure StandsFor (params : List String) (p : Placeholder) (param : String) : Prop where
  ne_nil : p.digits ≠ []
  isDigit_of_mem : ∀ d ∈ p.digits, isDigit 10 d = true
  fits : natOf 10 p.digits < Nat.pow 2 64
  getElem? : params[natOf 10 p.digits]? = some param

variable {params : List String} {p : Placeholder} {param : String}

theorem StandsFor.wellFormed (h : p.StandsFor params param) : p.WellFormed :=
  ⟨h.ne_nil, fun d hd => isDecimal_of_isDigit (h.isDigit_of_mem d hd)⟩

theorem StandsFor.replacement_eq (h : p.StandsFor params param) :
    p.replacement params = param.toList := by
  have hindex : p.index? = some (natOf 10 p.digits) :=
    if_pos ⟨List.all_eq_true.2 h.isDigit_of_mem, h.fits⟩
  rw [replacement, hindex, Option.bind_some, h.getElem?]

theorem WellFormed.replacement_eq (hp : p.WellFormed)
    (hnone : ∀ param, ¬ p.StandsFor params param) : p.replacement params = p.chars := by
  rw [replacement]
  split
  · rename_i param hparam
    obtain ⟨i, hi, hget⟩ := Option.bind_eq_some_iff.1 hparam
    rw [index?] at hi
    split at hi
    · rename_i hdigits
      cases hi
      exact absurd ⟨hp.ne_nil, List.all_eq_true.1 hdigits.1, hdigits.2, hget⟩ (hnone param)
    · cases hi
  · rfl

/-- The front of a placeholder is a `$` or a brace. -/
theorem eq_of_cons {c : Char} {rest after : List Char} (h : c :: rest = p.chars ++ after) :
    (c = '$' ∧ p.dollar = true ∧ rest = (mk false p.digits).chars ++ after) ∨
      (c = '\x7b' ∧ p.dollar = false ∧ rest = (p.digits ++ ['\x7d']) ++ after) := by
  obtain ⟨_ | _, digits⟩ := p
  · right
    simpa [chars] using h
  · left
    simpa [chars] using h

end Placeholder

/-! ## The search -/

variable {params : List String} {p : Placeholder}

theorem braced?_eq_some {digits : List Char} (dollar : Bool)
    (h : (Placeholder.mk dollar digits).WellFormed) (after : List Char) :
    braced? dollar ((Placeholder.mk false digits).chars ++ after) =
      some (⟨dollar, digits⟩, after) := by
  have hclose : ∀ c ∈ ('\x7d' :: after).head?, isDecimal c = false := by
    rintro c ⟨⟩
    decide
  obtain ⟨htake, hdrop⟩ := Text.takeWhile_front ('\x7d' :: after) h.isDecimal_of_mem hclose
  have hchars : (Placeholder.mk false digits).chars ++ after =
      '\x7b' :: (digits ++ '\x7d' :: after) := by
    simp [Placeholder.chars]
  rw [hchars, braced?, hdrop]
  simp only [htake]
  exact if_neg h.ne_nil

theorem wellFormed_of_braced? {dollar : Bool} {cs after : List Char}
    (h : braced? dollar cs = some (p, after)) : p.WellFormed := by
  unfold braced? at h
  split at h
  · split at h
    · dsimp only at h
      split at h
      · cases h
      · rename_i hne
        cases h
        exact ⟨hne, fun d hd => List.mem_takeWhile_imp hd⟩
    · cases h
  · cases h

/-- A placeholder is at the front exactly if the text starts with one. -/
theorem atFront?_eq_some_iff (cs : List Char) (p : Placeholder) (after : List Char) :
    atFront? cs = some (p, after) ↔ p.WellFormed ∧ cs = p.chars ++ after := by
  constructor
  · intro h
    refine ⟨?_, eq_of_atFront? h⟩
    unfold atFront? at h
    split at h
    · rcases Option.or_eq_some_iff.1 h with h | ⟨-, h⟩
      · exact wellFormed_of_braced? h
      · exact wellFormed_of_braced? h
    · exact wellFormed_of_braced? h
  · rintro ⟨hp, rfl⟩
    obtain ⟨_ | _, digits⟩ := p
    · exact braced?_eq_some false hp after
    · have hchars : (Placeholder.mk true digits).chars ++ after =
          '$' :: ((Placeholder.mk false digits).chars ++ after) := rfl
      rw [hchars, atFront?, braced?_eq_some true hp, Option.some_or]

theorem search?_chars (hp : p.WellFormed) (after : List Char) :
    search? (p.chars ++ after) = some ([], p, after) := by
  have hfront := (atFront?_eq_some_iff _ p after).2 ⟨hp, rfl⟩
  cases hcs : p.chars ++ after with
  | nil => simp [Placeholder.chars] at hcs
  | cons c rest =>
    rw [hcs] at hfront
    rw [search?, hfront]

theorem fillChars_chars (params : List String) (hp : p.WellFormed) (after : List Char) :
    fillChars params (p.chars ++ after) = p.replacement params ++ fillChars params after := by
  rw [fillChars, search?_chars hp]
  rfl

theorem fillChars_of_atFront?_eq_none {c : Char} {rest : List Char}
    (h : atFront? (c :: rest) = none) :
    fillChars params (c :: rest) = c :: fillChars params rest := by
  rw [fillChars, search?, h, fillChars.eq_def params rest]
  cases search? rest <;> rfl

/-! ## What is skipped -/

theorem atFront?_eq_none {c : Char} (hdollar : c ≠ '$') (hbrace : c ≠ '\x7b') (rest : List Char) :
    atFront? (c :: rest) = none := by
  rw [Option.eq_none_iff_forall_ne_some]
  rintro ⟨p, after⟩ h
  rcases Placeholder.eq_of_cons (eq_of_atFront? h) with ⟨hc, -⟩ | ⟨hc, -⟩
  · exact hdollar hc
  · exact hbrace hc

theorem fillChars_append {cs : List Char} (h : ∀ c ∈ cs, c ≠ '$' ∧ c ≠ '\x7b') (rest : List Char) :
    fillChars params (cs ++ rest) = cs ++ fillChars params rest := by
  induction cs with
  | nil => rfl
  | cons c cs ih =>
    obtain ⟨hdollar, hbrace⟩ := h c List.mem_cons_self
    rw [List.cons_append, fillChars_of_atFront?_eq_none (atFront?_eq_none hdollar hbrace _),
      ih fun d hd => h d (List.mem_cons_of_mem c hd), List.cons_append]

theorem Placeholder.WellFormed.ne_of_mem (hp : p.WellFormed) :
    ∀ c ∈ p.digits ++ ['\x7d'], c ≠ '$' ∧ c ≠ '\x7b' := by
  intro c hc
  rcases List.mem_append.1 hc with hc | hc
  · have hdecimal := hp.isDecimal_of_mem c hc
    constructor
    · rintro rfl
      exact absurd hdecimal (by decide)
    · rintro rfl
      exact absurd hdecimal (by decide)
  · cases List.mem_singleton.1 hc
    decide

/-- A placeholder without a parameter is kept, and also filled character by character. -/
theorem fillChars_cons_of_kept (hp : p.WellFormed) (hnone : ∀ param, ¬ p.StandsFor params param)
    {c : Char} {rest after : List Char} (h : c :: rest = p.chars ++ after) :
    fillChars params (c :: rest) = c :: fillChars params rest := by
  have hwhole : fillChars params (c :: rest) = p.chars ++ fillChars params after := by
    rw [h, fillChars_chars params hp, hp.replacement_eq hnone]
  rcases Placeholder.eq_of_cons h with ⟨rfl, hdollar, rfl⟩ | ⟨rfl, hdollar, rfl⟩
  · -- without the `$` the rest is a placeholder again, and that one is kept as well
    have hp' : (Placeholder.mk false p.digits).WellFormed := ⟨hp.ne_nil, hp.isDecimal_of_mem⟩
    have hnone' : ∀ param, ¬ (Placeholder.mk false p.digits).StandsFor params param :=
      fun param h => hnone param ⟨h.ne_nil, h.isDigit_of_mem, h.fits, h.getElem?⟩
    rw [hwhole, fillChars_chars params hp', hp'.replacement_eq hnone']
    simp [Placeholder.chars, hdollar]
  · rw [hwhole, fillChars_append hp.ne_of_mem]
    simp [Placeholder.chars, hdollar]

/-! ## The pass -/

/-- A pass over a template. At a placeholder with a parameter the parameter is written and the
whole placeholder is passed, and any other character is written as it is. -/
inductive Pass (params : List String) : List Char → List Char → Prop where
  | done : Pass params [] []
  | insert {p : Placeholder} {param : String} {rest out : List Char}
      (hstands : p.StandsFor params param) (hrest : Pass params rest out) :
      Pass params (p.chars ++ rest) (param.toList ++ out)
  | keep {c : Char} {rest out : List Char}
      (hnone : ∀ (p : Placeholder) (param : String) (after : List Char),
        p.StandsFor params param → c :: rest ≠ p.chars ++ after)
      (hrest : Pass params rest out) : Pass params (c :: rest) (c :: out)

theorem fillChars_cons_of_none {c : Char} {rest : List Char}
    (hnone : ∀ (p : Placeholder) (param : String) (after : List Char),
      p.StandsFor params param → c :: rest ≠ p.chars ++ after) :
    fillChars params (c :: rest) = c :: fillChars params rest := by
  cases hfront : atFront? (c :: rest) with
  | none => exact fillChars_of_atFront?_eq_none hfront
  | some r =>
    obtain ⟨hp, htext⟩ := (atFront?_eq_some_iff _ r.1 r.2).1 hfront
    exact fillChars_cons_of_kept hp (fun param h => hnone r.1 param r.2 h htext) htext

/-- Every pass gives what filling gives. -/
theorem Pass.eq_fillChars {template out : List Char} (h : Pass params template out) :
    out = fillChars params template := by
  induction h with
  | done =>
    rw [fillChars]
    rfl
  | insert hstands _ ih =>
    rw [fillChars_chars params hstands.wellFormed, hstands.replacement_eq, ih]
  | keep hnone _ ih => rw [fillChars_cons_of_none hnone, ih]

/-- There is a pass over every template. -/
theorem exists_pass (params : List String) (template : List Char) :
    ∃ out, Pass params template out := by
  induction hlength : template.length using Nat.strongRecOn generalizing template with
  | ind n ih =>
    subst hlength
    cases template with
    | nil => exact ⟨[], .done⟩
    | cons c rest =>
      by_cases hfront : ∃ (p : Placeholder) (param : String) (after : List Char),
          p.StandsFor params param ∧ c :: rest = p.chars ++ after
      · obtain ⟨p, param, after, hstands, htext⟩ := hfront
        have hshorter : after.length < (c :: rest).length := by
          rw [htext]
          simp only [Placeholder.chars, List.length_append, List.length_cons]
          omega
        obtain ⟨out, hout⟩ := ih _ hshorter after rfl
        rw [htext]
        exact ⟨_, .insert hstands hout⟩
      · obtain ⟨out, hout⟩ := ih _ (Nat.lt_succ_self _) rest rfl
        exact ⟨_, .keep (fun p param after h htext => hfront ⟨p, param, after, h, htext⟩) hout⟩

theorem pass_iff {template out : List Char} :
    Pass params template out ↔ out = fillChars params template := by
  refine ⟨Pass.eq_fillChars, ?_⟩
  rintro rfl
  obtain ⟨out, hout⟩ := exists_pass params template
  exact hout.eq_fillChars ▸ hout

/-- Where nothing stands for a parameter, the template is passed unchanged. -/
theorem pass_self {template : List Char}
    (h : ∀ (before : List Char) (p : Placeholder) (param : String) (after : List Char),
      p.StandsFor params param → template ≠ before ++ (p.chars ++ after)) :
    Pass params template template := by
  induction template with
  | nil => exact .done
  | cons c rest ih =>
    refine .keep (h []) (ih fun before p param after hstands htext => ?_)
    exact h (c :: before) p param after hstands (congrArg (c :: ·) htext)

theorem Placeholder.standsFor_zeros (dollar : Bool) (count : Nat) {digits : List Char}
    (hne : digits ≠ []) (param : String) :
    (mk dollar (List.replicate count '0' ++ digits)).StandsFor params param ↔
      (mk dollar digits).StandsFor params param := by
  have hnumber (hdigits : ∀ d ∈ digits, isDigit 10 d = true) :
      natOf 10 (List.replicate count '0' ++ digits) = natOf 10 digits := by
    rw [Text.natOf_append _ hdigits, Text.natOf_zeros, Nat.zero_mul, Nat.zero_add]
  constructor
  · rintro ⟨-, hdigits, hfits, hget⟩
    have hdigits' : ∀ d ∈ digits, isDigit 10 d = true :=
      fun d hd => hdigits d (List.mem_append_right _ hd)
    exact ⟨hne, hdigits', hnumber hdigits' ▸ hfits, hnumber hdigits' ▸ hget⟩
  · rintro ⟨-, hdigits, hfits, hget⟩
    refine ⟨List.append_ne_nil_of_right_ne_nil _ hne, fun d hd => ?_, ?_, ?_⟩
    · rcases List.mem_append.1 hd with hd | hd
      · exact Layout.isDigit_of_mem_zeros hd
      · exact hdigits d hd
    · exact (hnumber hdigits).symm ▸ hfits
    · exact (hnumber hdigits).symm ▸ hget

/-- A template is filled by one pass from left to right. So an inserted parameter is not looked at
again, a placeholder of any decimal digits that has no parameter is kept as a whole, zeros at the
front of a number do not count, and a template that names no parameter is its own message. -/
theorem fill_iff_pass (params : List String) :
    (∀ template message : String,
      fill template params = message ↔ Pass params template.toList message.toList) ∧
    (∀ (p : Placeholder) (param rest : String), p.StandsFor params param →
      fill (String.ofList p.chars ++ rest) params = param ++ fill rest params) ∧
    (∀ (p : Placeholder) (rest : String), p.WellFormed →
      (∀ param, ¬ p.StandsFor params param) →
        fill (String.ofList p.chars ++ rest) params = String.ofList p.chars ++ fill rest params) ∧
    (∀ (dollar : Bool) (count : Nat) (digits : List Char) (param : String), digits ≠ [] →
      (Placeholder.StandsFor params ⟨dollar, List.replicate count '0' ++ digits⟩ param ↔
        Placeholder.StandsFor params ⟨dollar, digits⟩ param)) ∧
    (∀ template : String,
      (∀ (before : List Char) (p : Placeholder) (param : String) (after : List Char),
        p.StandsFor params param → template.toList ≠ before ++ (p.chars ++ after)) →
        fill template params = template) ∧
    ∀ template : String, fill template [] = template := by
  have hpass (params : List String) (template message : String) :
      fill template params = message ↔ Pass params template.toList message.toList := by
    rw [pass_iff, fill, ← String.toList_inj, String.toList_ofList]
    exact eq_comm
  have hfront {p : Placeholder} {text : String} (hp : p.WellFormed)
      (htext : p.replacement params = text.toList) (rest : String) :
      fill (String.ofList p.chars ++ rest) params = text ++ fill rest params := by
    rw [fill, String.toList_append, String.toList_ofList, fillChars_chars params hp, htext,
      String.ofList_append, String.ofList_toList, fill]
  refine ⟨hpass params, ?_, ?_, ?_, ?_, ?_⟩
  · intro p param rest hstands
    exact hfront hstands.wellFormed hstands.replacement_eq rest
  · intro p rest hp hnone
    exact hfront hp ((hp.replacement_eq hnone).trans String.toList_ofList.symm) rest
  · intro dollar count digits param hne
    exact Placeholder.standsFor_zeros dollar count hne param
  · intro template hnone
    exact (hpass params template template).2 (pass_self hnone)
  · intro template
    refine (hpass [] template template).2 (pass_self fun before p param after hstands => ?_)
    cases hstands.getElem?

/-- The parameter has the form of a placeholder itself. -/
example : fill "\x7b1\x7b0\x7d\x7d $$\x7b0\x7d $\x7b\u0660\x7d" ["$\x7b0\x7d!"] =
    "\x7b1$\x7b0\x7d!\x7d $$\x7b0\x7d! $\x7b\u0660\x7d" := by
  decide +kernel

end IntervalRules.Message
