import IntervalRules.Proofs.Faults
import IntervalRules.Proofs.FaultyRules
import IntervalRules.Proofs.InputLines
import IntervalRules.Proofs.JsonText
import IntervalRules.Proofs.StepParameters
import IntervalRules.Proofs.Verdicts

/-!
The exit status and the two streams. An input that cannot be read is found first, then a fault of
the expression or of the rules, then values that fail; a run that finds none of these ends with
status 0. Which of the streams is written depends on the status and on the kind of output alone.
-/

namespace IntervalRules

/-! ## Faulty rules -/

/-- Whether the parameters of a rule are unusable, a missing one included. -/
def Rule.Malformed (params : List String) : Rule → Prop
  | .required | .email | .url | .date | .number | .digits => False
  | .minLength | .maxLength | .min | .max =>
    ∀ p, params[0]? = some p → parseNumber? (Text.trim p) = none
  | .rangeLength | .range =>
    ∀ p, params[0]? = some p → ∃ e, Expression.parse (Text.trim p) = .error e
  | .step =>
    ∀ p, params[0]? = some p →
      ∀ x, parseNumber? (Text.trim p) = some x → Step.Unitless (decimalPlaces (Text.trim p)) x
  | .equalTo => params = []

section

variable {ε α β : Type}

theorem exists_error_bind_pure {x : Except ε α} {f : α → β} :
    (∃ e, (x >>= fun a => pure (f a)) = .error e) ↔ ∃ e, x = .error e := by
  cases x with
  | error e => simp [bind, Except.bind]
  | ok a => simp [bind, Except.bind, pure, Except.pure]

end

namespace Rule

theorem exists_numberParam_error_iff (rule : Rule) (params : List String) :
    (∃ e, rule.numberParam params = .error e) ↔
      ∀ p, params[0]? = some p → parseNumber? (Text.trim p) = none := by
  rw [numberParam, param]
  cases params[0]? with
  | none => simp [bind, Except.bind]
  | some p =>
    cases hnumber : parseNumber? (Text.trim p) <;>
      simp [hnumber, bind, Except.bind, pure, Except.pure, throw, throwThe, MonadExceptOf.throw]

theorem exists_rangeParam_error_iff (rule : Rule) (params : List String) :
    (∃ e, rule.rangeParam params = .error e) ↔
      ∀ p, params[0]? = some p → ∃ e, Expression.parse (Text.trim p) = .error e := by
  rw [rangeParam, param]
  cases params[0]? with
  | none => simp [bind, Except.bind]
  | some p =>
    cases hparse : Expression.parse (Text.trim p) <;>
      simp [hparse, bind, Except.bind, pure, Except.pure, throw, throwThe, MonadExceptOf.throw]

theorem exists_stepParam_error_iff (rule : Rule) (params : List String) :
    (∃ e, rule.stepParam params = .error e) ↔
      ∀ p, params[0]? = some p →
        ∀ x, parseNumber? (Text.trim p) = some x →
          Step.Unitless (decimalPlaces (Text.trim p)) x := by
  simp only [← Step.ofText?_eq_none_iff]
  rw [stepParam, numberParam, param]
  cases params[0]? with
  | none => simp [bind, Except.bind]
  | some p =>
    cases hnumber : parseNumber? (Text.trim p) with
    | none => simp [hnumber, bind, Except.bind, throw, throwThe, MonadExceptOf.throw]
    | some x =>
      cases hstep : Step.ofText? (Text.trim p) x <;>
        simp [hnumber, hstep, bind, Except.bind, pure, Except.pure, throw, throwThe,
          MonadExceptOf.throw]

/-- A rule is an error for a value exactly if its parameters are unusable. -/
theorem exists_check_error_iff (rule : Rule) (value : String) (params : List String) :
    (∃ e, rule.check value params = .error e) ↔ rule.Malformed params := by
  cases rule with
  | required | email | url | date | number | digits => simp [check, Malformed, pure, Except.pure]
  | minLength | maxLength | min | max =>
    exact exists_error_bind_pure.trans (exists_numberParam_error_iff _ params)
  | rangeLength | range =>
    exact exists_error_bind_pure.trans (exists_rangeParam_error_iff _ params)
  | step => exact exists_error_bind_pure.trans (exists_stepParam_error_iff _ params)
  | equalTo =>
    refine exists_error_bind_pure.trans ?_
    cases params <;> simp [param, Malformed]

end Rule

namespace Spec

/-- Whether no built-in rule has the name of a written spec. -/
def Unknown (text : String) : Prop := Rule.ofName? (parts text).1 = none

/-- Whether a written spec is of a rule whose parameters are unusable. -/
def Malformed (text : String) : Prop :=
  ∃ rule, Rule.ofName? (parts text).1 = some rule ∧ rule.Malformed (parts text).2

/-- Whether a value does not pass the rule of a written spec. -/
def RejectedBy (text value : String) : Prop :=
  ∃ rule, Rule.ofName? (parts text).1 = some rule ∧ rule.check value (parts text).2 = .ok false

/-- The spec of a built-in rule with a message. -/
def written? (message : Option String) (text : String) : Option Spec :=
  (Rule.ofName? (parts text).1).map fun rule => ⟨.builtIn rule, (parts text).2, message⟩

theorem exists_written {text : String} (h : ¬ Unknown text) (message : Option String) :
    ∃ rule, Rule.ofName? (parts text).1 = some rule ∧
      written? message text = some ⟨.builtIn rule, (parts text).2, message⟩ := by
  obtain ⟨rule, hrule⟩ := Option.ne_none_iff_exists'.1 h
  exact ⟨rule, hrule, by rw [written?, hrule]; rfl⟩

end Spec

/-! ## Reading the rules -/

namespace Validator

variable {v : Validator} {text : String}

theorem addRule_of_unknown (hv : v.registered = []) (h : Spec.Unknown text)
    (message : Option String) :
    v.addRule text message = .error (.unknownRule (Spec.parts text).1) := by
  rw [addRule, parseRule, find?, hv, List.find?_nil]
  dsimp only
  rw [Spec.parse, h]
  rfl

theorem addRule_of_written (hv : v.registered = []) {message : Option String} {spec : Spec}
    (h : Spec.written? message text = some spec) : v.addRule text message = .ok (v.push spec) := by
  obtain ⟨rule, hrule, rfl⟩ := Option.map_eq_some_iff.1 h
  rw [addRule, parseRule, find?, hv, List.find?_nil]
  dsimp only
  rw [Spec.parse, hrule]
  rfl

/-- A verdict is against a value exactly if the value fails one of the rules. -/
theorem isValid_eq_false_iff {value : String} {rules : List Spec} {verdict : Verdict}
    (h : checkRules value rules = .ok verdict) :
    verdict.isValid = false ↔ ∃ spec ∈ rules, spec.check value = .ok false := by
  have hall := (exists_verdict_iff value rules).1 ⟨verdict, h⟩
  have hvalid : verdict = .valid ↔ ∀ spec ∈ rules, spec.check value = .ok true := by
    rw [← checkRules_eq_valid_iff, h, Except.ok.injEq]
  constructor
  · intro hinvalid
    refine Classical.byContradiction fun hnone => ?_
    have hpasses : ∀ spec ∈ rules, spec.check value = .ok true := by
      intro spec hspec
      obtain ⟨passed, hpassed⟩ := hall spec hspec
      cases passed with
      | true => exact hpassed
      | false => exact absurd ⟨spec, hspec, hpassed⟩ hnone
    rw [hvalid.2 hpasses] at hinvalid
    cases hinvalid
  · rintro ⟨spec, hspec, hrejected⟩
    cases verdict with
    | invalid rule message => rfl
    | valid =>
      have hpassed := hvalid.1 rfl spec hspec
      rw [hrejected] at hpassed
      cases hpassed

end Validator

namespace Command

variable {v : Validator} {rules : List String}

/-- Without an unknown name all rules are added, in their order. -/
theorem addRules_of_known (hv : v.registered = []) (h : ∀ text ∈ rules, ¬ Spec.Unknown text)
    (message : Option String) :
    addRules message v rules =
      .ok { v with rules := v.rules ++ rules.filterMap (Spec.written? message) } := by
  induction rules generalizing v with
  | nil => rw [List.filterMap_nil, List.append_nil, addRules]
  | cons text rest ih =>
    obtain ⟨htext, hrest⟩ := List.forall_mem_cons.1 h
    obtain ⟨rule, -, hwritten⟩ := Spec.exists_written htext message
    rw [addRules, Validator.addRule_of_written hv hwritten]
    dsimp only
    rw [ih (v := v.push _) hv hrest, List.filterMap_cons_some hwritten, Validator.push,
      List.append_assoc, List.singleton_append]

/-- The first unknown name ends the reading. -/
theorem addRules_of_unknown (hv : v.registered = []) {front back : List String} {text : String}
    (hfront : ∀ other ∈ front, ¬ Spec.Unknown other) (htext : Spec.Unknown text)
    (message : Option String) :
    addRules message v (front ++ text :: back) = .error (.unknownRule (Spec.parts text).1) := by
  induction front generalizing v with
  | nil => rw [List.nil_append, addRules, Validator.addRule_of_unknown hv htext]
  | cons other front ih =>
    obtain ⟨hother, hfront⟩ := List.forall_mem_cons.1 hfront
    obtain ⟨rule, -, hwritten⟩ := Spec.exists_written hother message
    rw [List.cons_append, addRules, Validator.addRule_of_written hv hwritten]
    exact ih (v := v.push _) hv hfront

theorem perform_validate_unknown (value : String) {front back : List String} {text : String}
    (hfront : ∀ other ∈ front, ¬ Spec.Unknown other) (htext : Spec.Unknown text)
    (message : Option String) (input : ByteArray) :
    perform (.validate value (front ++ text :: back) message) input =
      .error (.rule (.unknownRule (Spec.parts text).1)) := by
  rw [perform_validate, addRules_of_unknown rfl hfront htext]

theorem perform_validate_known (value : String) (h : ∀ text ∈ rules, ¬ Spec.Unknown text)
    (message : Option String) (input : ByteArray) :
    ∃ texts, perform (.validate value rules message) input =
      match Validator.checkRules value (rules.filterMap (Spec.written? message)) with
      | .error e => .error (.rule e)
      | .ok verdict => .ok (.validate value texts verdict) := by
  refine ⟨(rules.filterMap (Spec.written? message)).map Spec.text, ?_⟩
  rw [perform_validate, addRules_of_known rfl h]
  rfl

/-! ## What decides the status -/

/-- Whether the command takes its values from an input that is not UTF-8. -/
def Unreadable (input : ByteArray) : Command → Prop
  | .check _ values _ => (values = [] ∨ values = ["-"]) ∧ ¬ input.IsValidUTF8
  | _ => False

/-- Whether the expression is not one, or one of the rules is unknown or has unusable
parameters. -/
def Faulty : Command → Prop
  | .check source _ _ => ∃ e, Expression.parse source = .error e
  | .explain source _ => ∃ e, Expression.parse source = .error e
  | .validate _ rules _ => ∃ text ∈ rules, Spec.Unknown text ∨ Spec.Malformed text

/-- The values to check: those that are given, or else the ones on the lines of the input. -/
def Takes (values : List String) (input : ByteArray) (value : String) : Prop :=
  if values = [] ∨ values = ["-"] then
    ∃ text, String.fromUTF8? input = some text ∧ value ∈ valueLines text
  else value ∈ values

/-- Whether the number of a value, or its length, is in the expression. -/
def Passes (expression : Expression) (length : Bool) (value : String) : Prop :=
  ∃ x, (if length then x = Rule.lengthOf value else parseNumber? value = some x) ∧
    expression.contains x = true

/-- Whether a checked value does not pass. -/
def Failing (input : ByteArray) : Command → Prop
  | .check source values length =>
    ∃ expression, Expression.parse source = .ok expression ∧
      ∃ value, Takes values input value ∧ ¬ Passes expression length value
  | .explain _ _ => False
  | .validate value rules _ => ∃ text ∈ rules, Spec.RejectedBy text value

theorem areFromInput_iff (values : List String) :
    areFromInput values = true ↔ values = [] ∨ values = ["-"] := by
  simp [areFromInput]

theorem fromUTF8?_eq_none_iff (input : ByteArray) :
    String.fromUTF8? input = none ↔ ¬ input.IsValidUTF8 := by
  rw [String.fromUTF8?]
  split <;> simp_all

/-! ## Checking -/

theorem readValues_of_unreadable {values : List String} {input : ByteArray}
    (hvalues : values = [] ∨ values = ["-"]) (hinput : ¬ input.IsValidUTF8) :
    readValues values input = .error .unreadableInput := by
  rw [readValues, if_pos ((areFromInput_iff values).2 hvalues), readLines_split,
    (fromUTF8?_eq_none_iff input).2 hinput]

theorem exists_readValues {values : List String} {input : ByteArray}
    (h : ¬ ((values = [] ∨ values = ["-"]) ∧ ¬ input.IsValidUTF8)) :
    ∃ taken, readValues values input = .ok taken ∧
      ∀ value, value ∈ taken ↔ Takes values input value := by
  by_cases hvalues : values = [] ∨ values = ["-"]
  · have hvalid : String.fromUTF8? input ≠ none := fun hnone =>
      h ⟨hvalues, (fromUTF8?_eq_none_iff input).1 hnone⟩
    obtain ⟨text, htext⟩ := Option.ne_none_iff_exists'.1 hvalid
    refine ⟨valueLines text, ?_, fun value => ?_⟩
    · rw [readValues, if_pos ((areFromInput_iff values).2 hvalues), readLines_split, htext]
    · rw [Takes, if_pos hvalues, htext]
      simp
  · refine ⟨values, ?_, fun value => ?_⟩
    · rw [readValues, if_neg (mt (areFromInput_iff values).1 hvalues)]
    · rw [Takes, if_neg hvalues]

theorem passed_checkValue_iff (expression : Expression) (length : Bool) (value : String) :
    (checkValue expression length value).passed = true ↔ Passes expression length value := by
  cases length <;> simp [checkValue, Passes, Option.any_eq_true]

theorem parseExpression_of_error {source : String} {e : ExpressionError}
    (h : Expression.parse source = .error e) :
    parseExpression source = .error (.expression source e) := by
  rw [parseExpression, h]
  rfl

/-! ## The three ends -/

/-- How a command ends. -/
inductive Ends (c : Command) (input : ByteArray) : Except CommandError Report → Prop
  | unreadable : c.Unreadable input → Ends c input (.error .unreadableInput)
  | faulty {e : CommandError} : ¬ c.Unreadable input → c.Faulty → e.exitCode = 2 →
      Ends c input (.error e)
  | report {report : Report} : ¬ c.Unreadable input → ¬ c.Faulty →
      (report.passed = false ↔ c.Failing input) → Ends c input (.ok report)

theorem ends_check (source : String) (values : List String) (length : Bool) (input : ByteArray) :
    Ends (.check source values length) input (perform (.check source values length) input) := by
  by_cases hinput : (values = [] ∨ values = ["-"]) ∧ ¬ input.IsValidUTF8
  · have hperform : perform (.check source values length) input = .error .unreadableInput := by
      rw [perform, readValues_of_unreadable hinput.1 hinput.2]
      rfl
    rw [hperform]
    exact .unreadable hinput
  · obtain ⟨taken, hread, htaken⟩ := exists_readValues hinput
    cases hparse : Expression.parse source with
    | error e =>
      have hperform : perform (.check source values length) input =
          .error (.expression source e) := by
        rw [perform, hread, parseExpression_of_error hparse]
        rfl
      rw [hperform]
      exact .faulty hinput ⟨e, hparse⟩ rfl
    | ok expression =>
      rw [perform_check_of_read hread hparse length]
      refine .report hinput ?_ ?_
      · rintro ⟨e, he⟩
        rw [hparse] at he
        cases he
      · have hpassed : ∀ value, (checkValue expression length value).passed = false ↔
            ¬ Passes expression length value := fun value => by
          rw [← passed_checkValue_iff, Bool.not_eq_true]
        simp [Report.passed, Failing, hparse, htaken, hpassed]

/-- An explanation that is given passes. -/
theorem passed_of_perform_explain {source : String} {tokens : Bool} {input : ByteArray}
    {report : Report} (h : perform (.explain source tokens) input = .ok report) :
    report.passed = true := by
  simp only [perform, bind, Except.bind] at h
  cases hparse : parseExpression source with
  | error e =>
    rw [hparse] at h
    cases h
  | ok expression =>
    rw [hparse] at h
    cases tokens with
    | false =>
      cases h
      rfl
    | true =>
      simp only [if_true] at h
      cases htokens : (Token.tokenize source).mapError
          fun e => CommandError.expression source (.token e) with
      | error e =>
        rw [htokens] at h
        cases h
      | ok tokens =>
        rw [htokens] at h
        cases h
        rfl

theorem ends_explain (source : String) (tokens : Bool) (input : ByteArray) :
    Ends (.explain source tokens) input (perform (.explain source tokens) input) := by
  have herror := Grammar.explain_eq_error_iff source tokens input
  cases hperform : perform (.explain source tokens) input with
  | error e =>
    obtain ⟨e', hparse, rfl⟩ := (herror e).1 hperform
    exact .faulty not_false ⟨e', hparse⟩ rfl
  | ok report =>
    refine .report not_false ?_ ?_
    · rintro ⟨e, he⟩
      have hfails := (herror _).2 ⟨e, he, rfl⟩
      rw [hperform] at hfails
      cases hfails
    · rw [passed_of_perform_explain hperform]
      simp [Failing]

/-- The first unknown name, if there is one. -/
theorem exists_first_unknown (h : ∃ text ∈ rules, Spec.Unknown text) :
    ∃ front text back, rules = front ++ text :: back ∧ (∀ other ∈ front, ¬ Spec.Unknown other) ∧
      Spec.Unknown text := by
  classical
  obtain ⟨text, htext, hunknown⟩ := h
  have hfound : (rules.find? fun text => Spec.Unknown text).isSome :=
    List.find?_isSome.2 ⟨text, htext, decide_eq_true hunknown⟩
  obtain ⟨first, hfirst⟩ := Option.isSome_iff_exists.1 hfound
  obtain ⟨hunknown, front, back, hrules, hfront⟩ := List.find?_eq_some_iff_append.1 hfirst
  exact ⟨front, first, back, hrules, fun other hother => by simpa using hfront other hother,
    of_decide_eq_true hunknown⟩

theorem mem_written_iff {message : Option String} {spec : Spec} :
    spec ∈ rules.filterMap (Spec.written? message) ↔
      ∃ text ∈ rules, ∃ rule, Rule.ofName? (Spec.parts text).1 = some rule ∧
        ⟨.builtIn rule, (Spec.parts text).2, message⟩ = spec := by
  simp only [List.mem_filterMap, Spec.written?, Option.map_eq_some_iff]

theorem ends_validate (value : String) (rules : List String) (message : Option String)
    (input : ByteArray) :
    Ends (.validate value rules message) input (perform (.validate value rules message) input) := by
  by_cases hunknown : ∃ text ∈ rules, Spec.Unknown text
  · obtain ⟨front, text, back, rfl, hfront, htext⟩ := exists_first_unknown hunknown
    rw [perform_validate_unknown value hfront htext]
    exact .faulty not_false ⟨text, List.mem_append_cons_self, .inl htext⟩ rfl
  have hknown : ∀ text ∈ rules, ¬ Spec.Unknown text := fun text htext h =>
    hunknown ⟨text, htext, h⟩
  obtain ⟨texts, hperform⟩ := perform_validate_known value hknown message input
  rw [hperform]
  cases hcheck : Validator.checkRules value (rules.filterMap (Spec.written? message)) with
  | error e =>
    obtain ⟨i, spec, ⟨hget, hfaulty, -⟩, -⟩ := (Validator.checkRules_eq_error_iff _ _ _).1 hcheck
    obtain ⟨text, htext, rule, hrule, rfl⟩ := mem_written_iff.1 (List.mem_of_getElem? hget)
    exact .faulty not_false
      ⟨text, htext, .inr ⟨rule, hrule, (rule.exists_check_error_iff value _).1 hfaulty⟩⟩ rfl
  | ok verdict =>
    have hall := (Validator.exists_verdict_iff _ _).1 ⟨verdict, hcheck⟩
    refine .report not_false ?_ ?_
    · rintro ⟨text, htext, h | ⟨rule, hrule, hmalformed⟩⟩
      · exact hknown text htext h
      · obtain ⟨e, he⟩ := (rule.exists_check_error_iff value _).2 hmalformed
        obtain ⟨passed, hpassed⟩ := hall _ (mem_written_iff.2 ⟨text, htext, rule, hrule, rfl⟩)
        rw [Spec.check, RuleKind.check, he] at hpassed
        cases hpassed
    · rw [Report.passed, Validator.isValid_eq_false_iff hcheck]
      constructor
      · rintro ⟨spec, hspec, hrejected⟩
        obtain ⟨text, htext, rule, hrule, rfl⟩ := mem_written_iff.1 hspec
        exact ⟨text, htext, rule, hrule, hrejected⟩
      · rintro ⟨text, htext, rule, hrule, hrejected⟩
        exact ⟨_, mem_written_iff.2 ⟨text, htext, rule, hrule, rfl⟩, hrejected⟩

theorem ends (c : Command) (input : ByteArray) : Ends c input (c.perform input) := by
  cases c with
  | check source values length => exact ends_check source values length input
  | explain source tokens => exact ends_explain source tokens input
  | validate value rules message => exact ends_validate value rules message input

/-! ## Status and streams -/

theorem Invocation.code_iff (i : Invocation) (input : ByteArray) :
    ((i.run input).code = 3 ↔ i.command.Unreadable input) ∧
      ((i.run input).code = 2 ↔ ¬ i.command.Unreadable input ∧ i.command.Faulty) ∧
      ((i.run input).code = 1 ↔
        ¬ i.command.Unreadable input ∧ ¬ i.command.Faulty ∧ i.command.Failing input) ∧
      ((i.run input).code = 0 ↔
        ¬ i.command.Unreadable input ∧ ¬ i.command.Faulty ∧ ¬ i.command.Failing input) := by
  rw [Invocation.code_run]
  have hends := ends i.command input
  generalize i.command.perform input = result at hends
  cases hends with
  | unreadable hinput => simp [hinput, CommandError.exitCode]
  | faulty hinput hfaulty he => simp [hinput, hfaulty, he]
  | report hinput hfaulty hfailing =>
    rename_i report
    rw [← hfailing]
    cases hpassed : report.passed <;> simp [hpassed, hinput, hfaulty]

theorem exitCode_eq (e : CommandError) : e.exitCode = 2 ∨ e.exitCode = 3 := by
  cases e with
  | unreadableInput => exact .inr rfl
  | expression source e => exact .inl rfl
  | rule e => exact .inl rfl

theorem plain_ne_empty (e : CommandError) : e.plain ≠ "" := by
  intro h
  have hchars := congrArg String.toList h
  simp [CommandError.plain] at hchars

/-- The streams of a run. What an error writes goes to the standard error alone, or else to the
standard output alone as one JSON object; otherwise the standard error stays empty. -/
theorem Invocation.streams (i : Invocation) (input : ByteArray) :
    ((i.run input).code = 2 ∨ (i.run input).code = 3 →
      ∃ e, i.command.perform input = .error e ∧
        (i.json = false → (i.run input).stdout = "" ∧ (i.run input).stderr ≠ "") ∧
        (i.json = true → (i.run input).stderr = "" ∧
          ∃ body fields object, Json.Quotes body e.message.toList ∧
            Json.IsObject (("error".toList, '"' :: body ++ ['"']) :: fields) object ∧
            (i.run input).stdout = String.ofList (object ++ ['\n']))) ∧
    ((i.run input).code = 0 ∨ (i.run input).code = 1 → (i.run input).stderr = "") := by
  cases hperform : i.command.perform input with
  | ok report =>
    have hcode : (i.run input).code = if report.passed then 0 else 1 := by
      rw [Invocation.code_run, hperform]
    refine ⟨fun h => ?_, fun _ => by rw [Invocation.run, hperform]⟩
    rw [hcode] at h
    cases hpassed : report.passed <;> simp [hpassed] at h
  | error e =>
    have hcode : (i.run input).code = e.exitCode := by rw [Invocation.code_run, hperform]
    refine ⟨fun _ => ⟨e, rfl, fun hjson => ?_, fun hjson => ?_⟩, fun h => ?_⟩
    · rw [Invocation.run, hperform]
      simp [hjson, plain_ne_empty]
    · obtain ⟨body, fields, hbody, hobject⟩ := Json.isObject_write_error e
      refine ⟨?_, body, fields, _, hbody, hobject, ?_⟩
      · rw [Invocation.run, hperform]
        simp [hjson]
      · rw [Invocation.run, hperform]
        simp [hjson, Json.line]
    · rw [hcode] at h
      rcases exitCode_eq e with he | he <;> simp [he] at h

/-- The exit status of an invocation. It is 3 exactly if the values are to be taken from an input
that is not UTF-8; otherwise 2 exactly if the expression is none, or a rule is unknown or has
unusable parameters, and the first unknown name is reported before all else; otherwise 1 exactly
if a value fails; otherwise 0. JSON makes no difference to it. With 2 and 3 an error is written, to
the standard error alone or as one JSON object with an `error` field to the standard output alone;
with 0 and 1 nothing is written to the standard error. -/
theorem exit_status (i : Invocation) (input : ByteArray) :
    (((i.run input).code = 3 ↔ i.command.Unreadable input) ∧
      ((i.run input).code = 2 ↔ ¬ i.command.Unreadable input ∧ i.command.Faulty) ∧
      ((i.run input).code = 1 ↔
        ¬ i.command.Unreadable input ∧ ¬ i.command.Faulty ∧ i.command.Failing input) ∧
      ((i.run input).code = 0 ↔
        ¬ i.command.Unreadable input ∧ ¬ i.command.Faulty ∧ ¬ i.command.Failing input)) ∧
    (∀ json, (Invocation.run ⟨i.command, json⟩ input).code = (i.run input).code) ∧
    (∀ value front text back message,
      i.command = .validate value (front ++ text :: back) message →
      (∀ other ∈ front, ¬ Spec.Unknown other) → Spec.Unknown text →
      i.command.perform input = .error (.rule (.unknownRule (Spec.parts text).1))) ∧
    ((i.run input).code = 2 ∨ (i.run input).code = 3 →
      ∃ e, i.command.perform input = .error e ∧
        (i.json = false → (i.run input).stdout = "" ∧ (i.run input).stderr ≠ "") ∧
        (i.json = true → (i.run input).stderr = "" ∧
          ∃ body fields object, Json.Quotes body e.message.toList ∧
            Json.IsObject (("error".toList, '"' :: body ++ ['"']) :: fields) object ∧
            (i.run input).stdout = String.ofList (object ++ ['\n']))) ∧
    ((i.run input).code = 0 ∨ (i.run input).code = 1 → (i.run input).stderr = "") := by
  refine ⟨i.code_iff input, fun json => ?_, ?_, i.streams input⟩
  · rw [Invocation.code_run, Invocation.code_run]
  · intro value front text back message hcommand hfront htext
    rw [hcommand]
    exact perform_validate_unknown value hfront htext message input

end Command

end IntervalRules
