import IntervalRules.Validator

/-!
Sessions of work on a validator that can be saved and taken up again. Registrations are
numbered through the whole session, so that no two of them, even on different copies,
share a number.
-/

namespace IntervalRules

structure Session where
  /-- How many registrations there have been on any copy. -/
  registrations : Nat
  current : Validator
  saved : Option Validator

namespace Session

def empty : Session := ⟨0, Validator.empty, none⟩

inductive Action where
  | addRule (text : String) (message : Option String)
  | pushBuiltIn (text : String)
  /-- Adds a built-in rule that is not written as text. -/
  | push (rule : Rule) (params : List String) (message : Option String)
  | register (name : String) (check : CustomCheck) (message : Option String)
  | parseRule (text : String)
  | check (value : String)
  | save
  | swap

/-- What an action answers. -/
inductive Answer where
  /-- The number of rules of the current validator. -/
  | ruleCount (n : Nat)
  | registered
  | spec (s : Spec)
  | verdict (v : Verdict)
  | saved

/-- The current validator replaced, with the number of its rules as the answer. -/
def withCurrent (s : Session) (v : Validator) : Session × Except RuleError Answer :=
  ({ s with current := v }, .ok (.ruleCount v.rules.length))

/-- Takes one action. One that fails changes nothing. -/
def run (s : Session) : Action → Session × Except RuleError Answer
  | .addRule text message =>
    match s.current.addRule text message with
    | .ok v => s.withCurrent v
    | .error e => (s, .error e)
  | .pushBuiltIn text =>
    match Spec.parse text with
    | .ok spec => s.withCurrent (s.current.push spec)
    | .error e => (s, .error e)
  | .push rule params message => s.withCurrent (s.current.push ⟨.builtIn rule, params, message⟩)
  | .register name check message =>
    ({ s with
        registrations := s.registrations + 1
        current := s.current.register s.registrations name check message }, .ok .registered)
  | .parseRule text => (s, (s.current.parseRule text).map .spec)
  | .check value => (s, (s.current.check value).map .verdict)
  | .save => ({ s with saved := some s.current }, .ok .saved)
  | .swap =>
    { s with saved := some s.current }.withCurrent (s.saved.getD Validator.empty)

/-- The session after actions in a row. -/
def runAll (s : Session) (actions : List Action) : Session :=
  actions.foldl (fun s action => (s.run action).1) s

end Session

end IntervalRules
