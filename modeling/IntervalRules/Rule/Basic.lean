import IntervalRules.Expression.Basic

/-!
The built-in rules: their names, the messages of values that fail them, and what can be
wrong with a rule itself.
-/

namespace IntervalRules

inductive Rule where
  | required
  | email
  | url
  | date
  | number
  | digits
  | minLength
  | maxLength
  | rangeLength
  | min
  | max
  | range
  | step
  | equalTo
  deriving DecidableEq

namespace Rule

def all : List Rule :=
  [.required, .email, .url, .date, .number, .digits, .minLength, .maxLength, .rangeLength,
    .min, .max, .range, .step, .equalTo]

def name : Rule → String
  | .required => "required"
  | .email => "email"
  | .url => "url"
  | .date => "date"
  | .number => "number"
  | .digits => "digits"
  | .minLength => "minlength"
  | .maxLength => "maxlength"
  | .rangeLength => "rangelength"
  | .min => "min"
  | .max => "max"
  | .range => "range"
  | .step => "step"
  | .equalTo => "equalTo"

/-- The template of the message for a value that fails the rule. -/
def defaultMessage : Rule → String
  | .required => "This field is required"
  | .email => "Please enter a valid email address"
  | .url => "Please enter a valid URL"
  | .date => "Please enter a valid date"
  | .number => "Please enter a valid number"
  | .digits => "Please enter only digits"
  | .minLength => "Please enter at least \x7b0\x7d characters"
  | .maxLength => "Please enter no more than \x7b0\x7d characters"
  | .rangeLength => "Please enter a value whose length is within \x7b0\x7d"
  | .min => "Please enter a value no less than \x7b0\x7d"
  | .max => "Please enter a value no greater than \x7b0\x7d"
  | .range => "Please enter a value within \x7b0\x7d"
  | .step => "Please enter a multiple of \x7b0\x7d"
  | .equalTo => "Please enter the same value again"

/-- The rule of a name, which has to match exactly. -/
def ofName? (name : String) : Option Rule := all.find? (·.name == name)

theorem ofName?_name (r : Rule) : ofName? r.name = some r := by
  cases r <;> decide

end Rule

/-- What is wrong with a rule, whatever value it is to check. -/
inductive RuleError where
  | unknownRule (name : String)
  | missingParam (rule : Rule) (index : Nat)
  | invalidParam (rule : Rule) (param : String)
  | malformedRange (rule : Rule) (e : ExpressionError)
  deriving DecidableEq

def RuleError.message : RuleError → String
  | .unknownRule name => "unknown rule '" ++ name ++ "'"
  | .missingParam rule index =>
    "rule '" ++ rule.name ++ "' requires parameter " ++ toString index
  | .invalidParam rule param =>
    "rule '" ++ rule.name ++ "' has invalid parameter '" ++ param ++ "'"
  | .malformedRange rule e => "rule '" ++ rule.name ++ "' has a malformed range: " ++ e.message

end IntervalRules
