import IntervalRules.Proofs.Commands

/-!
Faulty rules. What is wrong with a rule is found out from its parameters alone (`Rule.settled`),
so a rule, and with it a whole validator, is faulty for every value or for none.
-/

namespace IntervalRules

variable {α : Type}

/-- A check whose error is settled before it sees a value: what is left is a function of the
value. -/
def Settled (check : String → Except RuleError α) : Prop :=
  ∃ prepared : Except RuleError (String → α), ∀ value, check value = prepared.map (· value)

namespace Settled

theorem of_test (test : String → α) : Settled fun value => .ok (test value) :=
  ⟨.ok test, fun _ => rfl⟩

/-- A test that is given something read before, which may be faulty. -/
theorem of_parameter {β : Type} (parameter : Except RuleError β) (test : β → String → α) :
    Settled fun value => parameter >>= fun b => pure (test b value) := by
  cases parameter with
  | error e => exact ⟨.error e, fun _ => rfl⟩
  | ok b => exact ⟨.ok (test b), fun _ => rfl⟩

variable {check : String → Except RuleError α}

theorem both (h : Settled check) (v w : String) :
    (∃ e, check v = .error e ∧ check w = .error e) ∨
      ∃ a b, check v = .ok a ∧ check w = .ok b := by
  obtain ⟨prepared, hprepared⟩ := h
  rw [hprepared v, hprepared w]
  cases prepared with
  | error e => exact .inl ⟨e, rfl, rfl⟩
  | ok test => exact .inr ⟨test v, test w, rfl, rfl⟩

theorem error_iff (h : Settled check) (v w : String) (e : RuleError) :
    check v = .error e ↔ check w = .error e := by
  rcases h.both v w with ⟨e', hv, hw⟩ | ⟨a, b, hv, hw⟩
  · rw [hv, hw]
  · rw [hv, hw]
    exact ⟨nofun, nofun⟩

end Settled

/-- Every built-in rule has its parameters read before it looks at the value. -/
theorem Rule.settled (rule : Rule) (params : List String) :
    Settled fun value => rule.check value params := by
  cases rule with
  | required | email | url | date | number | digits => exact .of_test _
  | minLength | maxLength | min | max => exact .of_parameter (numberParam _ params) _
  | rangeLength | range => exact .of_parameter (rangeParam _ params) _
  | step => exact .of_parameter (stepParam _ params) _
  | equalTo => exact .of_parameter (param _ params 0) _

theorem Spec.settled (spec : Spec) : Settled spec.check := by
  obtain ⟨rule, params, message⟩ := spec
  cases rule with
  | builtIn rule => exact rule.settled params
  | custom rule => exact .of_test _

namespace Validator

theorem settled_checkRules (rules : List Spec) :
    Settled fun value => checkRules value rules := by
  induction rules with
  | nil => exact .of_test _
  | cons spec rest ih =>
    obtain ⟨first, hfirst⟩ := spec.settled
    obtain ⟨later, hlater⟩ := ih
    simp only [checkRules, hfirst, hlater]
    -- the first rule is faulty, or the rest is, or neither
    cases first with
    | error e => exact ⟨.error e, fun _ => rfl⟩
    | ok test =>
      cases later with
      | error e => exact ⟨.error e, fun _ => rfl⟩
      | ok verdict => exact .of_test _

theorem settled (v : Validator) : Settled v.check := settled_checkRules v.rules

end Validator

namespace Command

theorem code_validate_eq_two_iff (value : String) (rules : List String) (message : Option String)
    (json : Bool) (input : ByteArray) :
    (Invocation.run ⟨.validate value rules message, json⟩ input).code = 2 ↔
      ∀ v, addRules message .empty rules = .ok v → ∃ e, v.check value = .error e := by
  rw [Invocation.code_run, perform_validate]
  cases addRules message .empty rules with
  | error e => exact ⟨fun _ => nofun, fun _ => rfl⟩
  | ok v =>
    cases hcheck : v.check value with
    | error e => simp [hcheck, CommandError.exitCode]
    | ok verdict => cases verdict <;> simp [hcheck, Report.passed, Verdict.isValid]

end Command

/-- A fault of a rule does not depend on the value. A built-in rule with its parameters is the same
error for two values or for neither, a validator answers both with the same error or both with a
verdict, and the program ends a validation of the one as it does one of the other if it ends it
with the status of an error. -/
theorem faults_independent_of_value :
    (∀ (rule : Rule) (params : List String) (v w : String) (e : RuleError),
      rule.check v params = .error e ↔ rule.check w params = .error e) ∧
    (∀ (validator : Validator) (v w : String),
      (∃ e, validator.check v = .error e ∧ validator.check w = .error e) ∨
        ∃ a b, validator.check v = .ok a ∧ validator.check w = .ok b) ∧
    ∀ (rules : List String) (message : Option String) (json : Bool) (input : ByteArray)
      (v w : String),
      (Command.Invocation.run ⟨.validate v rules message, json⟩ input).code = 2 ↔
        (Command.Invocation.run ⟨.validate w rules message, json⟩ input).code = 2 := by
  refine ⟨fun rule params v w e => (rule.settled params).error_iff v w e,
    fun validator => validator.settled.both, fun rules message json input v w => ?_⟩
  rw [Command.code_validate_eq_two_iff, Command.code_validate_eq_two_iff]
  refine forall₂_congr fun validator _ => exists_congr fun e => ?_
  exact validator.settled.error_iff v w e

end IntervalRules
