import IntervalRules.Proofs.Commands
import IntervalRules.Proofs.Trimming

/-!
An expression on its own and as the parameter of a rule. A rule is split at its colons and its
parts are trimmed, and the parameter is trimmed once more before it is read; for an expression
without a colon this changes nothing, so the two commands have the same answer.
-/

namespace IntervalRules

/-! ## A rule with one parameter -/

/-- Neither end of a name is blank, and no name has a colon in it. -/
theorem Rule.facts_of_name (rule : Rule) :
    ':' ∉ rule.name.toList ∧ Text.trimChars rule.name.toList = rule.name.toList ∧
      ∀ cs, (rule.name.toList ++ cs).dropWhile Text.isBlank = rule.name.toList ++ cs := by
  cases rule <;> exact ⟨by decide, by decide, fun _ => rfl⟩

theorem Spec.parts_of_name (rule : Rule) {param : String} (hparam : ':' ∉ param.toList) :
    Spec.parts (rule.name ++ ":" ++ param) = (rule.name, [Text.trim param]) := by
  obtain ⟨hcolon, hname, hfront⟩ := rule.facts_of_name
  have htext : (rule.name ++ ":" ++ param).toList =
      (rule.name.toList ++ [':']) ++ param.toList := by simp
  have hparam' : ':' ∉ Text.dropEnd Text.isBlank param.toList :=
    fun hmem => hparam ((Text.dropEnd_prefix _).subset hmem)
  have hlast : ∀ c ∈ (rule.name.toList ++ [':']).getLast?, Text.isBlank c = false := by
    rw [List.getLast?_concat]
    rintro _ ⟨⟩
    decide
  have htrim : Text.trimChars (rule.name ++ ":" ++ param).toList =
      rule.name.toList ++ ':' :: Text.dropEnd Text.isBlank param.toList := by
    rw [Text.trimChars, htext, List.append_assoc, hfront, ← List.append_assoc,
      Text.dropEnd_append hlast, List.append_assoc, List.singleton_append]
  rw [Spec.parts, htrim, Text.split_append hcolon, Text.split_of_not_mem hparam']
  simp only [List.map_cons, List.map_nil, hname, Text.trimChars_dropEnd, String.ofList_toList,
    Text.trim]

/-! ## The rules with a range -/

/-- The rule that tests the number of a value, or else its length. -/
def Rule.ranged (length : Bool) : Rule := if length then .rangeLength else .range

theorem Rule.check_ranged {param : String} {e : Expression} (h : Expression.parse param = .ok e)
    (length : Bool) (value : String) :
    (ranged length).check value [param] = .ok (Command.checkValue e length value).passed := by
  have hrange (rule : Rule) : rule.rangeParam [param] = .ok e := by
    simp only [rangeParam, Rule.param, List.getElem?_cons_zero, bind, Except.bind,
      Expression.parse_trim h, pure, Except.pure]
  cases length with
  | true =>
    change rangeLength.rangeParam [param] >>= (fun e => pure (e.contains (lengthOf value))) = _
    rw [hrange]
    rfl
  | false =>
    change range.rangeParam [param] >>=
      (fun e => pure ((parseNumber? value).any e.contains)) = _
    rw [hrange]
    rfl

namespace Command

theorem addRules_of_name (rule : Rule) {param : String} (hparam : ':' ∉ param.toList)
    (message : Option String) :
    addRules message .empty [rule.name ++ ":" ++ param] =
      .ok (Validator.empty.push ⟨.builtIn rule, [Text.trim param], message⟩) := by
  have hparse : Validator.empty.parseRule (rule.name ++ ":" ++ param) =
      .ok ⟨.builtIn rule, [Text.trim param], none⟩ := by
    simp only [Validator.parseRule, Validator.find?, Validator.empty, List.find?_nil, Spec.parse,
      Spec.parts_of_name rule hparam, Rule.ofName?_name]
  rw [addRules, Validator.addRule, hparse]
  rfl

/-- The written rule that has an expression for its parameter. -/
def rangeSpec (length : Bool) (source : String) : String :=
  (if length then "rangelength:" else "range:") ++ source

theorem rangeSpec_eq (length : Bool) (source : String) :
    rangeSpec length source = (Rule.ranged length).name ++ ":" ++ source := by
  cases length <;> rfl

/-- The rule is read and reported without the blanks around the expression, and fails a value that
does not pass the check of the expression as it is. -/
theorem perform_validate_ranged {source : String} {expression : Expression}
    (hparse : Expression.parse source = .ok expression) (hcolon : ':' ∉ source.toList)
    (length : Bool) (value : String) (message : Option String) (input : ByteArray) :
    perform (.validate value [rangeSpec length source] message) input =
      .ok (.validate value [rangeSpec length (Text.trim source)]
        (if (checkValue expression length value).passed then .valid
        else .invalid (.builtIn (.ranged length))
          (Message.fill (message.getD (Rule.ranged length).defaultMessage)
            [Text.trim source]))) := by
  have hcheck : Spec.check ⟨.builtIn (.ranged length), [Text.trim source], message⟩ value =
      .ok (checkValue expression length value).passed :=
    Rule.check_ranged (Expression.parse_trim hparse) length value
  have hadd := addRules_of_name (.ranged length) hcolon message
  rw [rangeSpec_eq, rangeSpec_eq]
  exact perform_validate_single hadd hcheck input

/-- An expression without a colon gives the same answer on its own and as the parameter of a rule,
for numbers and for lengths. A value passes the check of the expression exactly if it is valid by
the rule, and the two runs end with the same exit status. -/
theorem check_iff_validate {source : String} {expression : Expression}
    (hparse : Expression.parse source = .ok expression) (hcolon : ':' ∉ source.toList)
    {value : String} (hvalue : value ≠ "-") (length : Bool) (message : Option String)
    (input input' : ByteArray) :
    ∃ (result : CheckedValue) (rules : List String) (verdict : Verdict),
      perform (.check source [value] length) input = .ok (.check source [result]) ∧
      perform (.validate value [rangeSpec length source] message) input' =
        .ok (.validate value rules verdict) ∧
      result.value = value ∧ (result.passed = true ↔ verdict = .valid) ∧
      ∀ json json',
        (Invocation.run ⟨.check source [value] length, json⟩ input).code =
          (if result.passed then 0 else 1) ∧
        (Invocation.run ⟨.validate value [rangeSpec length source] message, json'⟩ input').code =
          if result.passed then 0 else 1 := by
  have hvalues : areFromInput [value] = false := by
    simp [areFromInput, hvalue]
  have hcheck := perform_check hvalues hparse length input
  have hvalidate := perform_validate_ranged hparse hcolon length value message input'
  refine ⟨checkValue expression length value, _, _, hcheck, hvalidate, rfl, ?_, ?_⟩
  · cases (checkValue expression length value).passed with
    | true => exact ⟨fun _ => rfl, fun _ => rfl⟩
    | false => exact ⟨nofun, nofun⟩
  · intro json json'
    rw [Invocation.code_run, Invocation.code_run]
    dsimp only
    rw [hcheck, hvalidate]
    simp only [Report.passed, List.map_cons, List.map_nil, List.all_cons, List.all_nil,
      Bool.and_true, true_and]
    cases (checkValue expression length value).passed <;> rfl

/-- An expression with a wide blank in front and a comment at its end. The last character is a
blank, but it could not stand between tokens. -/
theorem check_iff_validate_in_comment :
    Expression.parse "\u3000[1,10) // ten\u0085" = .ok ⟨[⟨.ofNat 1, true, .ofNat 10, false⟩]⟩ ∧
      (Invocation.run ⟨.check "\u3000[1,10) // ten\u0085" ["9.5"] false, false⟩ .empty).code = 0 ∧
      (Invocation.run ⟨.validate "9.5" ["range:\u3000[1,10) // ten\u0085"] none, false⟩
        .empty).code = 0 := by
  have hparse : Expression.parse "\u3000[1,10) // ten\u0085" =
      .ok ⟨[⟨.ofNat 1, true, .ofNat 10, false⟩]⟩ := by
    decide +kernel
  have hcheck : (Invocation.run ⟨.check "\u3000[1,10) // ten\u0085" ["9.5"] false, false⟩
      .empty).code = 0 := by
    decide +kernel
  obtain ⟨result, rules, verdict, -, -, -, -, hcode⟩ := check_iff_validate hparse (by decide)
    (show "9.5" ≠ "-" by decide) false none .empty .empty
  exact ⟨hparse, hcheck, (hcode false false).2.trans ((hcode false false).1.symm.trans hcheck)⟩

end Command

end IntervalRules
