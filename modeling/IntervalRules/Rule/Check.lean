import IntervalRules.Rule.Basic
import IntervalRules.Rule.Step
import IntervalRules.Format.Email
import IntervalRules.Format.Url
import IntervalRules.Format.Numeral
import IntervalRules.Format.Day

/-!
Checking of a value by a built-in rule. Parameters are looked at before the value, so a
faulty rule is an error for every value.
-/

namespace IntervalRules

namespace Rule

/-- A parameter as given. -/
def param (rule : Rule) (params : List String) (index : Nat) : Except RuleError String :=
  match params[index]? with
  | some p => .ok p
  | none => .error (.missingParam rule index)

/-- The first parameter, trimmed, as a number together with its text. -/
def numberParam (rule : Rule) (params : List String) : Except RuleError (String × Binary64) := do
  let text := Text.trim (← rule.param params 0)
  match parseNumber? text with
  | some x => pure (text, x)
  | none => throw (.invalidParam rule text)

/-- The first parameter, trimmed, as a range expression. -/
def rangeParam (rule : Rule) (params : List String) : Except RuleError Expression := do
  let text ← rule.param params 0
  match Expression.parse (Text.trim text) with
  | .ok e => pure e
  | .error e => throw (.malformedRange rule e)

/-- The first parameter as a step. -/
def stepParam (rule : Rule) (params : List String) : Except RuleError Step := do
  let (text, x) ← rule.numberParam params
  match Step.ofText? text x with
  | some unit => pure unit
  | none => throw (.invalidParam rule text)

/-- Whether a second parameter asks for the bound itself to pass: one that is there and is
neither blank nor `false`. -/
def isInclusive (params : List String) : Bool :=
  params[1]?.any fun p => Text.trim p != "" && Text.trim p != "false"

/-- Whether a number is above a bound, or at it if that is asked for. -/
def isAbove (params : List String) (bound x : Binary64) : Bool :=
  if isInclusive params then bound.le x else bound.lt x

def isBelow (params : List String) (bound x : Binary64) : Bool :=
  if isInclusive params then x.le bound else x.lt bound

/-- The length of a value in characters. -/
def lengthOf (value : String) : Binary64 := Binary64.ofNat value.length

/-- Whether a value passes the rule. -/
def check (rule : Rule) (value : String) (params : List String) : Except RuleError Bool :=
  match rule with
  | .required => pure (!Text.isBlankText value)
  | .email => pure (Format.isEmail value.toList)
  | .url => pure (Format.isUrl value.toList)
  | .date => pure (Format.isDay value.toList)
  | .number => pure (Format.isNumeral value.toList)
  | .digits => pure (Format.isDigits value.toList)
  | .minLength => do
    let (_, bound) ← rule.numberParam params
    pure (isAbove params bound (lengthOf value))
  | .maxLength => do
    let (_, bound) ← rule.numberParam params
    pure (isBelow params bound (lengthOf value))
  | .rangeLength => do
    let e ← rule.rangeParam params
    pure (e.contains (lengthOf value))
  | .min => do
    let (_, bound) ← rule.numberParam params
    pure ((parseNumber? value).any (isAbove params bound))
  | .max => do
    let (_, bound) ← rule.numberParam params
    pure ((parseNumber? value).any (isBelow params bound))
  | .range => do
    let e ← rule.rangeParam params
    pure ((parseNumber? value).any e.contains)
  | .step => do
    let unit ← rule.stepParam params
    pure (unit.divides value)
  | .equalTo => do
    let text ← rule.param params 0
    pure (value == text)

/-- Checks a value by the rule of a name. -/
def evaluate (name value : String) (params : List String) : Except RuleError Bool :=
  match ofName? name with
  | some rule => rule.check value params
  | none => .error (.unknownRule name)

end Rule

end IntervalRules
