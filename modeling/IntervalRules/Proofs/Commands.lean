import IntervalRules.Command.Output

/-!
What the commands do, one equation each. The exit status is that of the report or of the error.
-/

namespace IntervalRules.Command

/-- The exit status of a run that ends with a report or with an error. -/
theorem Invocation.code_run (i : Invocation) (input : ByteArray) :
    (i.run input).code =
      match i.command.perform input with
      | .ok report => if report.passed then 0 else 1
      | .error e => e.exitCode := by
  unfold run
  cases i.command.perform input with
  | ok report => rfl
  | error e => cases i.json <;> rfl

theorem parseExpression_of_ok {source : String} {expression : Expression}
    (h : Expression.parse source = .ok expression) : parseExpression source = .ok expression := by
  rw [parseExpression, h]
  rfl

/-- The values that are read are checked in their order. -/
theorem perform_check_of_read {values taken : List String} {input : ByteArray}
    (hread : readValues values input = .ok taken) {source : String} {expression : Expression}
    (hparse : Expression.parse source = .ok expression) (length : Bool) :
    perform (.check source values length) input =
      .ok (.check source (taken.map (checkValue expression length))) := by
  rw [perform, hread, parseExpression_of_ok hparse]
  rfl

/-- Values on the command line are checked without the input. -/
theorem perform_check {values : List String} (hvalues : areFromInput values = false)
    {source : String} {expression : Expression} (hparse : Expression.parse source = .ok expression)
    (length : Bool) (input : ByteArray) :
    perform (.check source values length) input =
      .ok (.check source (values.map (checkValue expression length))) := by
  have hread : readValues values input = .ok values := by
    rw [readValues, hvalues]
    rfl
  exact perform_check_of_read hread hparse length

/-- All rules are read before the value is checked. -/
theorem perform_validate (value : String) (rules : List String) (message : Option String)
    (input : ByteArray) :
    perform (.validate value rules message) input =
      match addRules message .empty rules with
      | .error e => .error (.rule e)
      | .ok v =>
        match v.check value with
        | .error e => .error (.rule e)
        | .ok verdict => .ok (.validate value (v.rules.map Spec.text) verdict) := by
  rw [perform]
  cases addRules message .empty rules with
  | error e => rfl
  | ok v =>
    simp only [show Except.mapError CommandError.rule (.ok v) = .ok v from rfl, bind, Except.bind]
    cases v.check value <;> rfl

/-- What a single rule answers. -/
theorem perform_validate_single {texts : List String} {message : Option String} {spec : Spec}
    (hadd : addRules message .empty texts = .ok (Validator.empty.push spec)) {value : String}
    {passed : Bool} (hcheck : spec.check value = .ok passed) (input : ByteArray) :
    perform (.validate value texts message) input =
      .ok (.validate value [spec.text]
        (if passed then .valid else .invalid spec.rule spec.failureMessage)) := by
  have hverdict : (Validator.empty.push spec).check value =
      .ok (if passed then .valid else .invalid spec.rule spec.failureMessage) := by
    rw [Validator.check, show (Validator.empty.push spec).rules = [spec] from rfl,
      Validator.checkRules, hcheck]
    rfl
  rw [perform_validate, hadd]
  dsimp only
  rw [hverdict]
  rfl

end IntervalRules.Command
