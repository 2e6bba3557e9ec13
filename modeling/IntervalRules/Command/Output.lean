import IntervalRules.Command.Caret
import IntervalRules.Command.Report
import IntervalRules.Json

/-!
What the program writes: reports and errors, as plain lines or as one line of JSON with
the fields in alphabetical order.
-/

namespace IntervalRules

/-- The mark before a value. -/
def mark (passed : Bool) : String := if passed then "✓" else "✗"

namespace CheckedValue

def line (r : CheckedValue) : String :=
  mark r.passed ++ " " ++ r.value ++ (if r.measured.isNone then " (not a number)" else "") ++ "\n"

def json (r : CheckedValue) : Json :=
  .object [("measured", Json.ofNumber? r.measured), ("passed", .bool r.passed),
    ("value", .text r.value)]

end CheckedValue

namespace Report

/-- A text moved to the right end of at least eight columns. -/
def alignRight (text : String) : String :=
  String.ofList (List.replicate (8 - text.length) ' ') ++ text

def clauseLines (index : Nat) : List Interval → String
  | [] => ""
  | i :: rest =>
    "  clause " ++ toString index ++ ": " ++ i.text ++ "  " ++ i.description ++ "\n" ++
      clauseLines (index + 1) rest

def tokenLine (t : Token) : String :=
  "  " ++ alignRight t.span.text ++ " " ++ t.kind.text ++ "\n"

/-- The report as plain lines. -/
def plain : Report → String
  | .check _ results => String.join (results.map CheckedValue.line)
  | .explain _ expression tokens =>
    expression.text ++ "\n" ++ clauseLines 0 expression.intervals ++
      match tokens with
      | none => ""
      | some tokens => "tokens:\n" ++ String.join (tokens.map tokenLine)
  | .validate value _ .valid => mark true ++ " " ++ value ++ "\n"
  | .validate value _ (.invalid rule message) =>
    mark false ++ " " ++ value ++ ": " ++ message ++ " (" ++ rule.name ++ ")\n"

def clauseJson (i : Interval) : Json :=
  .object [("lower", if i.isLowerUnbounded then .null else .number i.lower),
    ("lower_inclusive", .bool i.lowerInclusive), ("text", .text i.text),
    ("upper", if i.isUpperUnbounded then .null else .number i.upper),
    ("upper_inclusive", .bool i.upperInclusive)]

def tokenJson (t : Token) : Json :=
  .object [("end", .natural t.span.stop), ("kind", .text t.kind.text),
    ("start", .natural t.span.start)]

def json : Report → Json
  | .check source results =>
    .object [("expression", .text source), ("passed", .bool (results.all CheckedValue.passed)),
      ("results", .list (results.map CheckedValue.json))]
  | .explain source expression tokens =>
    .object ([("canonical", .text expression.text),
      ("clauses", .list (expression.intervals.map clauseJson)), ("expression", .text source)] ++
      match tokens with
      | none => []
      | some tokens => [("tokens", .list (tokens.map tokenJson))])
  | .validate value rules .valid =>
    .object [("rules", Json.ofTexts rules), ("valid", .bool true), ("value", .text value)]
  | .validate value rules (.invalid rule message) =>
    .object [("message", .text message), ("rule", .text rule.name), ("rules", Json.ofTexts rules),
      ("valid", .bool false), ("value", .text value)]

end Report

namespace CommandError

/-- The hint after the error of an empty expression. -/
def hint : CommandError → String
  | .expression _ .empty => "  an expression needs at least one clause such as [0,10)\n"
  | _ => ""

/-- The error as plain lines, with the fault marked in its expression. -/
def plain (e : CommandError) : String :=
  "error: " ++ e.message ++ "\n" ++
    (e.location?.elim "" fun (source, span) => (Caret.ofSpan source span).text) ++ e.hint

def json (e : CommandError) : Json :=
  .object (("error", .text e.message) ::
    (e.location?.map fun (_, span) =>
      ("span", Json.list [.natural span.start, .natural span.stop])).toList)

end CommandError

/-- What a run of the program leaves behind. -/
structure Outcome where
  code : UInt8
  stdout : String
  stderr : String

/-- The outcome of arguments that are not run: a text that was asked for, or an error. -/
def Command.Usage.outcome (u : Usage) : Outcome :=
  if u.isRequested then ⟨0, u.message, ""⟩ else ⟨2, "", u.message⟩

namespace Command.Invocation

/-- The outcome of an invocation. Errors are JSON on the standard output if that is asked for,
and otherwise plain lines on the standard error. -/
def run (i : Invocation) (input : ByteArray) : Outcome :=
  match i.command.perform input with
  | .ok report =>
    ⟨if report.passed then 0 else 1, if i.json then report.json.line else report.plain, ""⟩
  | .error e =>
    if i.json then ⟨e.exitCode, e.json.line, ""⟩ else ⟨e.exitCode, "", e.plain⟩

end Command.Invocation

end IntervalRules
