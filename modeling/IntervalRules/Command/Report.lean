import IntervalRules.Command.Arguments
import IntervalRules.Validator

/-!
What the commands find out: the marks of the checked values, the parts of an expression,
or the verdict on a value. A command fails if its input, its expression or one of its
rules cannot be read.
-/

namespace IntervalRules

/-- A checked value with the number that was tested, if it has one. -/
structure CheckedValue where
  value : String
  measured : Option Binary64
  passed : Bool

inductive Report where
  | check (expression : String) (results : List CheckedValue)
  | explain (source : String) (expression : Expression) (tokens : Option (List Token))
  | validate (value : String) (rules : List String) (verdict : Verdict)

/-- Whether everything that was tested passed. -/
def Report.passed : Report → Bool
  | .check _ results => results.all CheckedValue.passed
  | .explain _ _ _ => true
  | .validate _ _ verdict => verdict.isValid

inductive CommandError where
  | unreadableInput
  | expression (source : String) (e : ExpressionError)
  | rule (e : RuleError)

namespace CommandError

def message : CommandError → String
  | .unreadableInput => "Failed to read values from stdin"
  | .expression source e => "Invalid range expression '" ++ source ++ "': " ++ e.message
  | .rule e => "Invalid rule: " ++ e.message

/-- The part of the expression that is at fault, if it is known. -/
def location? : CommandError → Option (String × Span)
  | .expression source e => e.span?.map (source, ·)
  | _ => none

/-- The exit status; 1 is left for values that fail. -/
def exitCode : CommandError → UInt8
  | .unreadableInput => 3
  | .expression _ _ => 2
  | .rule _ => 2

end CommandError

namespace Command

/-- The value on a line of the input: without the carriage returns at its end, and none on a blank
line. -/
def lineValue? (line : String) : Option String :=
  let value := String.ofList (Text.dropEnd (· == '\r') line.toList)
  if Text.isBlankText value then none else some value

/-- The values on lines of bytes. Each line is decoded on its own; the first one that cannot be is
the end of it. -/
def readLines : List (List UInt8) → Except CommandError (List String)
  | [] => .ok []
  | line :: rest =>
    match String.fromUTF8? line.toByteArray with
    | none => .error .unreadableInput
    | some text => (readLines rest).map ((lineValue? text).toList ++ ·)

/-- The values to check: the given ones, or else those on the lines of the input. -/
def readValues (values : List String) (input : ByteArray) : Except CommandError (List String) :=
  if areFromInput values then readLines (Text.split 10 input.data.toList) else .ok values

def parseExpression (source : String) : Except CommandError Expression :=
  (Expression.parse source).mapError (.expression source)

/-- Tests the number that a value holds, or its length. -/
def checkValue (expression : Expression) (length : Bool) (value : String) : CheckedValue :=
  let measured := if length then some (Rule.lengthOf value) else parseNumber? value
  ⟨value, measured, measured.any expression.contains⟩

/-- Adds rules to a validator, each with the same message. -/
def addRules (message : Option String) (v : Validator) :
    List String → Except RuleError Validator
  | [] => .ok v
  | text :: rest =>
    match v.addRule text message with
    | .error e => .error e
    | .ok v => addRules message v rest

/-- Carries out a command. Values are read before the expression is, and all rules before any
is checked. -/
def perform (command : Command) (input : ByteArray) : Except CommandError Report :=
  match command with
  | .check source values length => do
    let values ← readValues values input
    let expression ← parseExpression source
    pure (.check source (values.map (checkValue expression length)))
  | .explain source tokens => do
    let expression ← parseExpression source
    if tokens then
      let tokens ← (Token.tokenize source).mapError fun e => .expression source (.token e)
      pure (.explain source expression (some tokens))
    else pure (.explain source expression none)
  | .validate value rules message => do
    let v ← (addRules message .empty rules).mapError .rule
    let verdict ← (v.check value).mapError .rule
    pure (.validate value (v.rules.map Spec.text) verdict)

end Command

end IntervalRules
