import IntervalRules.Spec

/-!
Validators: rules in the order in which they were added, and the checks that are
registered under names of their own. A registered name hides the built-in rule of that
name from specs read later; rules already added keep what they had.
-/

namespace IntervalRules

inductive Verdict where
  | valid
  | invalid (rule : RuleKind) (message : String)

def Verdict.isValid : Verdict → Bool
  | .valid => true
  | .invalid _ _ => false

structure Validator where
  rules : List Spec
  /-- The registrations, the latest first. -/
  registered : List CustomRule

namespace Validator

def empty : Validator := ⟨[], []⟩

/-- The latest registration of a name. -/
def find? (v : Validator) (name : String) : Option CustomRule :=
  v.registered.find? (·.name == name)

/-- Registers a check. Without a message the name keeps the one it had. -/
def register (v : Validator) (registration : Nat) (name : String) (check : CustomCheck)
    (message : Option String) : Validator :=
  let kept := (v.find? name).map CustomRule.message
  let message := (message.or kept).getD (CustomRule.fallbackMessage name)
  { v with registered := ⟨name, check, message, registration⟩ :: v.registered }

/-- Reads a spec; a registered name wins over a built-in rule. -/
def parseRule (v : Validator) (text : String) : Except RuleError Spec :=
  match v.find? (Spec.parts text).1 with
  | some rule => .ok ⟨.custom rule, (Spec.parts text).2, none⟩
  | none => Spec.parse text

/-- Adds a rule after the others. -/
def push (v : Validator) (spec : Spec) : Validator := { v with rules := v.rules ++ [spec] }

/-- Reads a spec and adds it with a message of its own, if there is one. -/
def addRule (v : Validator) (text : String) (message : Option String) :
    Except RuleError Validator :=
  (v.parseRule text).map fun spec => v.push { spec with message := message }

/-- The first failure among the rules. Every rule is checked: a faulty one is an error even
after a failure. -/
def checkRules (value : String) : List Spec → Except RuleError Verdict
  | [] => .ok .valid
  | spec :: rest =>
    match spec.check value with
    | .error e => .error e
    | .ok passed =>
      match checkRules value rest with
      | .error e => .error e
      | .ok later =>
        .ok (if passed then later else .invalid spec.rule spec.failureMessage)

def check (v : Validator) (value : String) : Except RuleError Verdict :=
  checkRules value v.rules

end Validator

end IntervalRules
