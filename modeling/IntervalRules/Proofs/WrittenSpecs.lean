import IntervalRules.Proofs.Splitting
import IntervalRules.Proofs.Trimming
import IntervalRules.Validator

/-!
Specs and their texts. The parts of a spec have no colon in them and no blanks around them. Joined
by colons, such parts are what is read from the text again, empty ones at either end included. So
the name and the parameters that a spec is read with do not depend on who reads it: the
registrations of a validator settle nothing but the rule.
-/

namespace IntervalRules

namespace Text

theorem trimChars_eq_self_iff (cs : List Char) :
    trimChars cs = cs ↔
      (∀ c ∈ cs.head?, isBlank c = false) ∧ ∀ c ∈ cs.getLast?, isBlank c = false := by
  constructor
  · intro h
    have hfront : cs.dropWhile isBlank = cs := by
      refine (List.dropWhile_suffix isBlank).eq_of_length_le ?_
      conv => lhs; rw [← h]
      exact (Text.dropEnd_prefix _).length_le
    rw [trimChars, hfront] at h
    constructor
    · intro c hc
      obtain ⟨rest, rfl⟩ := List.head?_eq_some_iff.1 hc
      simpa using hfront
    · intro c hc
      have hne : cs ≠ [] := by
        rintro rfl
        cases hc
      have hlast := List.rdropWhile_eq_self_iff.1 h hne
      rw [List.getLast?_eq_some_getLast hne] at hc
      cases hc
      simpa using hlast
  · rintro ⟨hhead, hlast⟩
    have hfront : cs.dropWhile isBlank = cs := by
      cases cs with
      | nil => rfl
      | cons c rest => exact List.dropWhile_cons_of_neg (by simp [hhead c rfl])
    rw [trimChars, hfront, dropEnd_eq_self hlast]

theorem trimChars_trimChars (cs : List Char) : trimChars (trimChars cs) = trimChars cs := by
  change trimChars (dropEnd isBlank (cs.dropWhile isBlank)) = trimChars cs
  rw [trimChars_dropEnd, trimChars, List.dropWhile_idempotent, trimChars]

theorem mem_of_mem_trimChars {c : Char} {cs : List Char} (h : c ∈ trimChars cs) : c ∈ cs :=
  (List.dropWhile_suffix isBlank).subset ((Text.dropEnd_prefix _).subset h)

/-- Trimmed parts that are joined by something else than a blank need no trimming. -/
theorem trimChars_intercalate {separator : Char} (hseparator : isBlank separator = false)
    {part : List Char} {parts : List (List Char)} (h : ∀ p ∈ part :: parts, trimChars p = p) :
    trimChars ([separator].intercalate (part :: parts)) =
      [separator].intercalate (part :: parts) := by
  induction parts generalizing part with
  | nil =>
    rw [List.intercalate_singleton]
    exact h part List.mem_cons_self
  | cons second parts ih =>
    have hrest := ih fun p hp => h p (List.mem_cons_of_mem part hp)
    obtain ⟨hhead, -⟩ := (trimChars_eq_self_iff part).1 (h part List.mem_cons_self)
    obtain ⟨-, hlast⟩ := (trimChars_eq_self_iff _).1 hrest
    rw [List.intercalate_cons_cons, List.append_assoc, List.singleton_append]
    refine (trimChars_eq_self_iff _).2 ⟨?_, ?_⟩
    · cases part with
      | nil =>
        rintro c ⟨⟩
        exact hseparator
      | cons d part => exact hhead
    · intro c hc
      rw [List.getLast?_append_of_ne_nil _ (List.cons_ne_nil _ _), List.getLast?_cons] at hc
      cases hjoined : ([separator].intercalate (second :: parts)).getLast? with
      | none =>
        rw [hjoined] at hc
        cases hc
        exact hseparator
      | some d =>
        rw [hjoined] at hc
        cases hc
        exact hlast d hjoined

end Text

/-! ## Parts -/

namespace Spec

/-- The text can be a part of a spec as it is: there is no colon in it and no blank around it. -/
def IsPart (text : String) : Prop := ':' ∉ text.toList ∧ Text.trim text = text

theorem IsPart.trimChars_eq {text : String} (h : IsPart text) :
    Text.trimChars text.toList = text.toList := by
  have htrim : (Text.trim text).toList = Text.trimChars text.toList := String.toList_ofList
  rw [← htrim, h.2]

theorem isPart_trim {part : List Char} (h : ':' ∉ part) :
    IsPart (String.ofList (Text.trimChars part)) := by
  refine ⟨?_, ?_⟩
  · rw [String.toList_ofList]
    exact fun hmem => h (Text.mem_of_mem_trimChars hmem)
  · rw [Text.trim, String.toList_ofList, Text.trimChars_trimChars]

theorem parts_of_split {text : String} {part : List Char} {more : List (List Char)}
    (h : Text.split ':' (Text.trimChars text.toList) = part :: more) :
    parts text = (String.ofList (Text.trimChars part),
      more.map fun p => String.ofList (Text.trimChars p)) := by
  rw [parts, h]
  rfl

/-- Whatever is read as a part can be one as it is. -/
theorem isPart_parts (text : String) :
    IsPart (parts text).1 ∧ ∀ param ∈ (parts text).2, IsPart param := by
  obtain ⟨part, more, hsplit⟩ :=
    List.exists_cons_of_ne_nil (Text.split_ne_nil ':' (Text.trimChars text.toList))
  have hcolon : ∀ p ∈ part :: more, ':' ∉ p :=
    fun p hp => Text.not_mem_of_mem_split (hsplit ▸ hp)
  rw [parts_of_split hsplit]
  refine ⟨isPart_trim (hcolon part List.mem_cons_self), fun param hparam => ?_⟩
  obtain ⟨p, hp, rfl⟩ := List.mem_map.1 hparam
  exact isPart_trim (hcolon p (List.mem_cons_of_mem part hp))

/-- The name is what stands before the first colon. -/
theorem name_parts (text : String) : (parts text).1 =
    Text.trim (String.ofList ((Text.trimChars text.toList).takeWhile (· ≠ ':'))) := by
  obtain ⟨more, hsplit⟩ := Text.exists_split ':' (Text.trimChars text.toList)
  rw [parts_of_split hsplit, Text.trim, String.toList_ofList]

/-- Joined parts are read again as they were. -/
theorem parts_intercalate {name : String} {params : List String} (hname : IsPart name)
    (hparams : ∀ param ∈ params, IsPart param) :
    parts (":".intercalate (name :: params)) = (name, params) := by
  have hparts : ∀ part ∈ name :: params, IsPart part := List.forall_mem_cons.2 ⟨hname, hparams⟩
  have hcolon : ∀ p ∈ name.toList :: params.map String.toList, ':' ∉ p := by
    intro p hp
    obtain ⟨part, hpart, rfl⟩ := List.mem_map.1 (List.map_cons ▸ hp)
    exact (hparts part hpart).1
  have htrim : ∀ p ∈ name.toList :: params.map String.toList, Text.trimChars p = p := by
    intro p hp
    obtain ⟨part, hpart, rfl⟩ := List.mem_map.1 (List.map_cons ▸ hp)
    exact (hparts part hpart).trimChars_eq
  have htext : (":".intercalate (name :: params)).toList =
      [':'].intercalate (name.toList :: params.map String.toList) := by
    rw [String.toList_intercalate]
    rfl
  have hblank : Text.isBlank ':' = false := by decide
  have hsplit := Text.split_intercalate hcolon
  rw [← Text.trimChars_intercalate hblank htrim, ← htext] at hsplit
  rw [parts_of_split hsplit, hname.trimChars_eq, String.ofList_toList, List.map_map]
  refine congrArg (Prod.mk name) ?_
  conv => rhs; rw [← List.map_id params]
  refine List.map_congr_left fun param hparam => ?_
  rw [Function.comp_apply, (hparams param hparam).trimChars_eq, String.ofList_toList, id]

example : parts " : 3 :" = ("", ["3", ""]) := by decide +kernel

/-- A spec with the parts of a text has these parts for its own. -/
theorem parts_text {s : Spec} {text : String} (hname : s.rule.name = (parts text).1)
    (hparams : s.params = (parts text).2) : parts s.text = parts text := by
  obtain ⟨hpart, hall⟩ := isPart_parts text
  rw [Spec.text, hname, hparams, parts_intercalate hpart hall]

/-! ## Reading -/

theorem parse_ok_iff (text : String) (s : Spec) :
    parse text = .ok s ↔ ∃ rule : Rule, rule.name = (parts text).1 ∧
      s = ⟨.builtIn rule, (parts text).2, none⟩ := by
  rw [parse]
  constructor
  · intro h
    split at h
    · rename_i rule hrule
      cases h
      exact ⟨rule, by simpa using List.find?_some hrule, rfl⟩
    · cases h
  · rintro ⟨rule, hname, rfl⟩
    rw [← hname, Rule.ofName?_name]

theorem parse_error_iff (text : String) (e : RuleError) :
    parse text = .error e ↔
      e = .unknownRule (parts text).1 ∧ ∀ rule ∈ Rule.all, rule.name ≠ (parts text).1 := by
  have hnone : Rule.ofName? (parts text).1 = none ↔
      ∀ rule ∈ Rule.all, rule.name ≠ (parts text).1 := by
    simp [Rule.ofName?]
  rw [← hnone, parse]
  cases Rule.ofName? (parts text).1 with
  | some rule => simp
  | none => simp [eq_comm]

end Spec

namespace Validator

variable {v v' : Validator}

theorem name_of_find? {name : String} {rule : CustomRule} (h : v.find? name = some rule) :
    rule.name = name := by
  simpa using List.find?_some h

/-- A spec is read by its parts alone. -/
theorem parseRule_eq_of_parts (hfind : ∀ name, v'.find? name = v.find? name)
    {text text' : String} (hparts : Spec.parts text' = Spec.parts text) :
    v'.parseRule text' = v.parseRule text := by
  simp only [parseRule, Spec.parse, hparts, hfind]

/-- Whoever reads a spec, it has the name and the parameters of the text. -/
theorem parts_of_parseRule {text : String} {s : Spec} (h : v.parseRule text = .ok s) :
    s.rule.name = (Spec.parts text).1 ∧ s.params = (Spec.parts text).2 := by
  unfold parseRule at h
  split at h
  · rename_i rule hfind
    cases h
    exact ⟨name_of_find? hfind, rfl⟩
  · obtain ⟨rule, hname, rfl⟩ := (Spec.parse_ok_iff text s).1 h
    exact ⟨hname, rfl⟩

theorem parseRule_of_find? {text : String} {rule : CustomRule}
    (h : v.find? (Spec.parts text).1 = some rule) :
    v.parseRule text = .ok ⟨.custom rule, (Spec.parts text).2, none⟩ := by
  rw [parseRule, h]

theorem parseRule_of_find?_eq_none {text : String} (h : v.find? (Spec.parts text).1 = none) :
    v.parseRule text = Spec.parse text := by
  rw [parseRule, h]

/-- Without registrations a spec is read as one of a built-in rule. -/
theorem parseRule_empty (text : String) : empty.parseRule text = Spec.parse text :=
  parseRule_of_find?_eq_none rfl

/-- A spec that was read is read again from its own text. -/
theorem parseRule_text (hfind : ∀ name, v'.find? name = v.find? name) {text : String} {s : Spec}
    (h : v.parseRule text = .ok s) : v'.parseRule s.text = .ok s := by
  obtain ⟨hname, hparams⟩ := parts_of_parseRule h
  rw [parseRule_eq_of_parts hfind (Spec.parts_text hname hparams), h]

/-- A spec of plain parts whose name is known is read with these parts. -/
theorem exists_parseRule_text {s : Spec} (hname : Spec.IsPart s.rule.name)
    (hparams : ∀ param ∈ s.params, Spec.IsPart param)
    (hknown : (v.find? s.rule.name).isSome = true ∨ ∃ rule : Rule, rule.name = s.rule.name) :
    ∃ s', v.parseRule s.text = .ok s' ∧ s'.rule.name = s.rule.name ∧ s'.params = s.params := by
  have hparts : Spec.parts s.text = (s.rule.name, s.params) :=
    Spec.parts_intercalate hname hparams
  have hread : ∃ s', v.parseRule s.text = .ok s' := by
    cases hfind : v.find? (Spec.parts s.text).1 with
    | some rule => exact ⟨_, parseRule_of_find? hfind⟩
    | none =>
      rw [hparts] at hfind
      obtain ⟨rule, hrule⟩ := hknown.resolve_left (by simp [hfind])
      rw [parseRule_of_find?_eq_none (hparts ▸ hfind)]
      exact ⟨_, (Spec.parse_ok_iff _ _).2 ⟨rule, hparts ▸ hrule, rfl⟩⟩
  obtain ⟨s', hs'⟩ := hread
  have hs := parts_of_parseRule hs'
  rw [hparts] at hs
  exact ⟨s', hs', hs⟩

end Validator

/-- Reading undoes writing. A spec that was read, by itself or by any validator with the same
registrations, is read again from its text. A spec of parts that have no colon in them and no blank
around them is read with the same name and parameters if its name is known. The name of a text is
what stands before its first colon; a registered rule of that name wins over a built-in one, and
the parameters are the same for all readers. -/
theorem spec_read_of_written :
    (∀ (text : String) (s : Spec), Spec.parse text = .ok s → Spec.parse s.text = .ok s) ∧
    (∀ (v v' : Validator) (text : String) (s : Spec),
      (∀ name, v'.find? name = v.find? name) →
        v.parseRule text = .ok s → v'.parseRule s.text = .ok s) ∧
    (∀ s : Spec, Spec.IsPart s.rule.name → (∀ param ∈ s.params, Spec.IsPart param) →
      ((∃ rule : Rule, rule.name = s.rule.name) → ∃ s', Spec.parse s.text = .ok s' ∧
        s'.rule.name = s.rule.name ∧ s'.params = s.params) ∧
      ∀ v : Validator,
        (v.find? s.rule.name).isSome = true ∨ (∃ rule : Rule, rule.name = s.rule.name) →
          ∃ s', v.parseRule s.text = .ok s' ∧
            s'.rule.name = s.rule.name ∧ s'.params = s.params) ∧
    ∀ text : String,
      let name := Text.trim (String.ofList ((Text.trimChars text.toList).takeWhile (· ≠ ':')))
      ∃ params : List String,
        (∀ s, Spec.parse text = .ok s → s.params = params) ∧
        (Spec.parse text = .error (.unknownRule name) ↔ ∀ rule ∈ Rule.all, rule.name ≠ name) ∧
        ∀ v : Validator,
          (∀ rule, v.find? name = some rule →
            v.parseRule text = .ok ⟨.custom rule, params, none⟩) ∧
          (v.find? name = none → v.parseRule text = Spec.parse text) := by
  refine ⟨?_, ?_, ?_, ?_⟩
  · intro text s h
    rw [← Validator.parseRule_empty] at h ⊢
    exact Validator.parseRule_text (fun _ => rfl) h
  · intro v v' text s hfind h
    exact Validator.parseRule_text hfind h
  · intro s hname hparams
    refine ⟨fun hrule => ?_, fun v hknown => Validator.exists_parseRule_text hname hparams hknown⟩
    rw [← Validator.parseRule_empty]
    exact Validator.exists_parseRule_text hname hparams (.inr hrule)
  · intro text
    dsimp only
    rw [← Spec.name_parts]
    refine ⟨(Spec.parts text).2, ?_, ?_, fun v => ⟨?_, ?_⟩⟩
    · intro s h
      rw [← Validator.parseRule_empty] at h
      exact (Validator.parts_of_parseRule h).2
    · rw [Spec.parse_error_iff]
      exact and_iff_right rfl
    · exact fun rule hrule => Validator.parseRule_of_find? hrule
    · exact Validator.parseRule_of_find?_eq_none

end IntervalRules
