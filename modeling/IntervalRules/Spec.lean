import IntervalRules.Rule.Kind
import IntervalRules.Text.Split
import IntervalRules.Message

/-!
Rule specs: a rule with its parameters and perhaps a message of its own, written as a
name and parameters with colons between them. Blanks around each part do not count.
-/

namespace IntervalRules

structure Spec where
  rule : RuleKind
  params : List String
  message : Option String

namespace Spec

/-- The name and the parameters of a written spec. -/
def parts (text : String) : String × List String :=
  match (Text.split ':' (Text.trimChars text.toList)).map
      fun part => String.ofList (Text.trimChars part) with
  | name :: params => (name, params)
  | [] => ("", [])

/-- Reads a spec of a built-in rule. -/
def parse (text : String) : Except RuleError Spec :=
  match Rule.ofName? (parts text).1 with
  | some rule => .ok ⟨.builtIn rule, (parts text).2, none⟩
  | none => .error (.unknownRule (parts text).1)

def addParam (spec : Spec) (param : String) : Spec := { spec with params := spec.params ++ [param] }

def withMessage (spec : Spec) (message : String) : Spec := { spec with message := some message }

/-- The written form. -/
def text (spec : Spec) : String := ":".intercalate (spec.rule.name :: spec.params)

def check (spec : Spec) (value : String) : Except RuleError Bool :=
  spec.rule.check value spec.params

/-- The message for a value that fails: its own or else the rule's, with the parameters filled
in. -/
def failureMessage (spec : Spec) : String :=
  Message.fill (spec.message.getD spec.rule.defaultMessage) spec.params

/-- Whether two specs have the same rule, parameters and message. -/
def same (s t : Spec) : Bool :=
  s.rule.same t.rule && s.params == t.params && s.message == t.message

end Spec

example :
    (Spec.parse " minlength : 3 : true ").toOption.map Spec.text = some "minlength:3:true" := by
  decide +kernel

end IntervalRules
