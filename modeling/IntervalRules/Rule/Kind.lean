import IntervalRules.Rule.Check

/-!
Rules of either kind: built in, or registered with a check of their own. A registered
rule carries the number of the registration it comes from; two of them are the same rule
only if they come from the same one.
-/

namespace IntervalRules

/-- A check of a value against parameters. -/
abbrev CustomCheck := String → List String → Bool

/-- A rule made by a registration. -/
structure CustomRule where
  name : String
  check : CustomCheck
  message : String
  registration : Nat

namespace CustomRule

/-- The message of a rule that was registered without one: that of the built-in rule of the
same name if there is one. -/
def fallbackMessage (name : String) : String :=
  ((Rule.ofName? name).map Rule.defaultMessage).getD "Please enter a valid value"

/-- The fields shown when a rule is inspected. -/
def inspect (c : CustomRule) : String :=
  "CustomRule \x7b name: " ++ Text.quotedText c.name ++ ", message: " ++
    Text.quotedText c.message ++ ", .. \x7d"

end CustomRule

inductive RuleKind where
  | builtIn (rule : Rule)
  | custom (rule : CustomRule)

namespace RuleKind

def name : RuleKind → String
  | .builtIn rule => rule.name
  | .custom rule => rule.name

def defaultMessage : RuleKind → String
  | .builtIn rule => rule.defaultMessage
  | .custom rule => rule.message

def isCustom : RuleKind → Bool
  | .builtIn _ => false
  | .custom _ => true

/-- Whether a value passes; a registered check has no errors of its own. -/
def check (kind : RuleKind) (value : String) (params : List String) : Except RuleError Bool :=
  match kind with
  | .builtIn rule => rule.check value params
  | .custom rule => .ok (rule.check value params)

/-- Whether two rules are the same one. -/
def same : RuleKind → RuleKind → Bool
  | .builtIn r, .builtIn s => r = s
  | .custom r, .custom s => r.name == s.name && r.registration == s.registration
  | _, _ => false

end RuleKind

end IntervalRules
