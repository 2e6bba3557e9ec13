import IntervalRules.Proofs.Relocation
import IntervalRules.Validator

/-!
What a validator answers. The error of the first faulty rule comes before everything else, also
after a failure. Without a faulty rule the first failure is the answer, and the value is valid if
there is none.
-/

namespace IntervalRules

/-- Whether a rule is an error for a value. -/
def Spec.Faulty (value : String) (spec : Spec) : Prop := ∃ e, spec.check value = .error e

/-- Whether a value fails a rule. -/
def Spec.Fails (value : String) (spec : Spec) : Prop := spec.check value = .ok false

theorem Spec.faulty_of_error {spec : Spec} {value : String} {e : RuleError}
    (h : spec.check value = .error e) : spec.Faulty value :=
  ⟨e, h⟩

theorem Spec.not_faulty_of_ok {spec : Spec} {value : String} {passed : Bool}
    (h : spec.check value = .ok passed) : ¬ spec.Faulty value := by
  rintro ⟨e, he⟩
  rw [h] at he
  cases he

namespace Validator

/-! ## The first of several rules -/

/-- Rule number `i`, which is `spec`, is the first one of a kind. -/
def FirstAt (kind : Spec → Prop) (rules : List Spec) (i : Nat) (spec : Spec) : Prop :=
  rules[i]? = some spec ∧ kind spec ∧ ∀ j < i, ∀ other, rules[j]? = some other → ¬ kind other

variable {kind : Spec → Prop} {first spec : Spec} {rest : List Spec}

theorem firstAt_cons_zero : FirstAt kind (first :: rest) 0 spec ↔ first = spec ∧ kind first := by
  constructor
  · rintro ⟨hget, hkind, -⟩
    cases hget
    exact ⟨rfl, hkind⟩
  · rintro ⟨rfl, hkind⟩
    exact ⟨rfl, hkind, nofun⟩

theorem firstAt_cons_succ {i : Nat} :
    FirstAt kind (first :: rest) (i + 1) spec ↔ ¬ kind first ∧ FirstAt kind rest i spec := by
  constructor
  · rintro ⟨hget, hkind, hbefore⟩
    refine ⟨hbefore 0 (Nat.succ_pos i) first rfl, hget, hkind, ?_⟩
    intro j hj other hother
    exact hbefore (j + 1) (Nat.succ_lt_succ hj) other hother
  · rintro ⟨hfirst, hget, hkind, hbefore⟩
    refine ⟨hget, hkind, ?_⟩
    intro j hj other hother
    cases j with
    | zero =>
      cases hother
      exact hfirst
    | succ j => exact hbefore j (Nat.lt_of_succ_lt_succ hj) other hother

theorem exists_firstAt_cons {p : Spec → Prop} :
    (∃ i spec, FirstAt kind (first :: rest) i spec ∧ p spec) ↔
      kind first ∧ p first ∨ ¬ kind first ∧ ∃ i spec, FirstAt kind rest i spec ∧ p spec := by
  constructor
  · rintro ⟨i, spec, hat, hp⟩
    cases i with
    | zero =>
      obtain ⟨rfl, hkind⟩ := firstAt_cons_zero.1 hat
      exact .inl ⟨hkind, hp⟩
    | succ i =>
      obtain ⟨hfirst, hrest⟩ := firstAt_cons_succ.1 hat
      exact .inr ⟨hfirst, i, spec, hrest, hp⟩
  · rintro (⟨hkind, hp⟩ | ⟨hfirst, i, spec, hrest, hp⟩)
    · exact ⟨0, first, firstAt_cons_zero.2 ⟨rfl, hkind⟩, hp⟩
    · exact ⟨i + 1, spec, firstAt_cons_succ.2 ⟨hfirst, hrest⟩, hp⟩

theorem not_firstAt_nil {i : Nat} : ¬ FirstAt kind [] i spec := nofun

/-! ## One rule -/

variable {value : String}

theorem checkRules_cons_error {e : RuleError} (h : first.check value = .error e) :
    checkRules value (first :: rest) = .error e := by
  simp only [checkRules, h]

theorem checkRules_cons_ok {passed : Bool} (h : first.check value = .ok passed) :
    checkRules value (first :: rest) = (checkRules value rest).map fun later =>
      if passed then later else .invalid first.rule first.failureMessage := by
  simp only [checkRules, h]
  cases checkRules value rest <;> rfl

theorem checkRules_cons_passed (h : first.check value = .ok true) :
    checkRules value (first :: rest) = checkRules value rest := by
  rw [checkRules_cons_ok h]
  cases checkRules value rest <;> rfl

/-! ## All rules -/

theorem checkRules_eq_error_iff (value : String) (rules : List Spec) (e : RuleError) :
    checkRules value rules = .error e ↔
      ∃ i spec, FirstAt (Spec.Faulty value) rules i spec ∧ spec.check value = .error e := by
  induction rules with
  | nil => simp [checkRules, not_firstAt_nil]
  | cons first rest ih =>
    rw [exists_firstAt_cons]
    cases hfirst : first.check value with
    | error e' =>
      rw [checkRules_cons_error hfirst]
      simp [Spec.faulty_of_error hfirst]
    | ok passed =>
      rw [checkRules_cons_ok hfirst]
      have hmap {f : Verdict → Verdict} {x : Except RuleError Verdict} :
          x.map f = .error e ↔ x = .error e := by
        cases x <;> simp [Except.map]
      rw [hmap, ih]
      simp [Spec.not_faulty_of_ok hfirst]

theorem exists_verdict_iff (value : String) (rules : List Spec) :
    (∃ verdict, checkRules value rules = .ok verdict) ↔
      ∀ spec ∈ rules, ∃ passed, spec.check value = .ok passed := by
  induction rules with
  | nil => simp [checkRules]
  | cons first rest ih =>
    rw [List.forall_mem_cons, ← ih]
    cases hfirst : first.check value with
    | error e =>
      rw [checkRules_cons_error hfirst]
      simp
    | ok passed =>
      rw [checkRules_cons_ok hfirst]
      cases checkRules value rest <;> simp [Except.map]

theorem checkRules_eq_valid_iff (value : String) (rules : List Spec) :
    checkRules value rules = .ok .valid ↔ ∀ spec ∈ rules, spec.check value = .ok true := by
  induction rules with
  | nil => simp [checkRules]
  | cons first rest ih =>
    rw [List.forall_mem_cons, ← ih]
    cases hfirst : first.check value with
    | error e =>
      rw [checkRules_cons_error hfirst]
      simp
    | ok passed =>
      rw [checkRules_cons_ok hfirst]
      cases passed <;> cases checkRules value rest <;> simp [Except.map]

theorem checkRules_eq_invalid_iff (value : String) (rules : List Spec) (rule : RuleKind)
    (message : String) :
    checkRules value rules = .ok (.invalid rule message) ↔
      (∀ spec ∈ rules, ∃ passed, spec.check value = .ok passed) ∧
        ∃ i spec, FirstAt (Spec.Fails value) rules i spec ∧
          rule = spec.rule ∧ message = spec.failureMessage := by
  induction rules with
  | nil => simp [checkRules, not_firstAt_nil]
  | cons first rest ih =>
    rw [exists_firstAt_cons, List.forall_mem_cons]
    cases hfirst : first.check value with
    | error e =>
      rw [checkRules_cons_error hfirst]
      simp
    | ok passed =>
      cases passed with
      | true =>
        rw [checkRules_cons_passed hfirst, ih]
        simp [Spec.Fails, hfirst]
      | false =>
        -- the first failure, unless there is a faulty rule further on
        rw [checkRules_cons_ok hfirst, ← exists_verdict_iff]
        cases checkRules value rest <;> simp [Spec.Fails, hfirst, Except.map, eq_comm]

theorem checkRules_append (value : String) (rules more : List Spec) :
    checkRules value (rules ++ more) = (checkRules value rules).bind fun verdict =>
      (checkRules value more).map fun later => if verdict.isValid then later else verdict := by
  induction rules with
  | nil =>
    rw [List.nil_append]
    cases checkRules value more <;> rfl
  | cons first rest ih =>
    rw [List.cons_append]
    cases hfirst : first.check value with
    | error e =>
      rw [checkRules_cons_error hfirst, checkRules_cons_error hfirst]
      rfl
    | ok passed =>
      rw [checkRules_cons_ok hfirst, checkRules_cons_ok hfirst, ih]
      cases passed <;> cases checkRules value rest <;> cases checkRules value more <;> rfl

/-- The error of the first faulty rule is the answer, also after a failure. Without one, the value
is valid if it passes every rule, and otherwise the answer is the first rule that it fails, with
that rule's own message or else its default one, filled with its parameters. Further rules keep a
failure as it is, unless one of them is faulty. -/
theorem check_first_failure (v : Validator) (value : String) :
    (∀ e, v.check value = .error e ↔
      ∃ i spec, FirstAt (Spec.Faulty value) v.rules i spec ∧ spec.check value = .error e) ∧
    (v.check value = .ok .valid ↔ ∀ spec ∈ v.rules, spec.check value = .ok true) ∧
    (∀ rule message, v.check value = .ok (.invalid rule message) ↔
      (∀ spec ∈ v.rules, ∃ passed, spec.check value = .ok passed) ∧
        ∃ i spec, FirstAt (Spec.Fails value) v.rules i spec ∧ rule = spec.rule ∧
          message = Message.fill (spec.message.getD spec.rule.defaultMessage) spec.params) ∧
    ∀ more rule message, v.check value = .ok (.invalid rule message) →
      check { v with rules := v.rules ++ more } value =
        (checkRules value more).map fun _ => .invalid rule message := by
  refine ⟨checkRules_eq_error_iff value v.rules, checkRules_eq_valid_iff value v.rules,
    checkRules_eq_invalid_iff value v.rules, ?_⟩
  intro more rule message hinvalid
  have happend : check { v with rules := v.rules ++ more } value = (v.check value).bind _ :=
    checkRules_append value v.rules more
  rw [happend, hinvalid]
  rfl

/-- A rule that no value passes, and a faulty one after it. -/
theorem check_error_after_failure :
    let never : Spec := ⟨.custom ⟨"never", fun _ _ => false, "not \x7b0\x7d", 0⟩, ["this"], none⟩
    let faulty : Spec := ⟨.builtIn .range, ["[5,2)"], none⟩
    check ⟨[never], []⟩ "" = .ok (.invalid never.rule "not this") ∧
      check ⟨[never, faulty], []⟩ "" = .error (.malformedRange .range
        (.order 0 ⟨.ofNat 5, true, .ofNat 2, false⟩ ⟨0, 5⟩)) := by
  intro never faulty
  have hfaulty : faulty.check "" = .error (.malformedRange .range
      (.order 0 ⟨.ofNat 5, true, .ofNat 2, false⟩ ⟨0, 5⟩)) := by
    decide +kernel
  have hmessage : "not this" = Message.fill "not \x7b0\x7d" ["this"] := by decide +kernel
  have hinvalid : check ⟨[never], []⟩ "" = .ok (.invalid never.rule "not this") :=
    ((check_first_failure ⟨[never], []⟩ "").2.2.1 _ _).2
      ⟨by simp [never, Spec.check, RuleKind.check], 0, never, firstAt_cons_zero.2 ⟨rfl, rfl⟩, rfl,
        hmessage⟩
  refine ⟨hinvalid, ?_⟩
  have hmore := (check_first_failure ⟨[never], []⟩ "").2.2.2 [faulty] _ _ hinvalid
  rw [checkRules_cons_error hfaulty] at hmore
  exact hmore

end Validator

end IntervalRules
