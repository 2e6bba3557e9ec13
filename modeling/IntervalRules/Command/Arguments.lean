import IntervalRules.Text.Digits

/-!
Command-line arguments. Each command has switches, options with a value and positional
arguments. Flags may come in any order; `--` ends them. Short flags can be joined, and a
value can be attached to its option. A negative number is an argument where the command
expects a value there.
-/

namespace IntervalRules.Command

inductive Switch where
  | json
  | noColor
  | length
  | tokens
  | help
  | version
  deriving DecidableEq

inductive ValueOption where
  | rule
  | message
  deriving DecidableEq

inductive Flag where
  | switch (s : Switch)
  | option (o : ValueOption)

/-- A flag with its long name and its letter. -/
structure FlagName where
  long : String
  short : Option Char
  flag : Flag

/-- What a command accepts. -/
structure Grammar where
  flags : List FlagName
  /-- How many positional arguments there may be. -/
  limit : Option Nat
  /-- The first positional argument that may be a negative number. -/
  negativeFrom : Nat

/-- Why arguments are not run as a command. -/
inductive Usage where
  | help
  | version
  | noArguments
  | missingSubcommand
  | unknownSubcommand
  | unknownArgument
  | missingRequired
  | repeated
  | missingValue
  | unexpectedValue
  deriving DecidableEq

/-- How the program is called. -/
def usageText : String :=
  "Check values against range expressions and validation rules\n\n" ++
    "  check EXPRESSION [VALUE...] [--length]\n" ++
    "  explain EXPRESSION [--tokens]\n" ++
    "  validate VALUE --rule RULE... [--message MESSAGE]\n\n" ++
    "  --json      Print results as JSON\n" ++
    "  --no-color  Disable colored output\n"

namespace Usage

def message : Usage → String
  | .help => usageText
  | .version => "0.1.0\n"
  | .noArguments => usageText
  | .missingSubcommand => "error: a subcommand is required\n"
  | .unknownSubcommand => "error: unrecognized subcommand\n"
  | .unknownArgument => "error: unexpected argument\n"
  | .missingRequired => "error: a required argument is missing\n"
  | .repeated => "error: an argument cannot be used multiple times\n"
  | .missingValue => "error: an option has no value\n"
  | .unexpectedValue => "error: a switch takes no value\n"

/-- Whether the text was asked for and is no error. -/
def isRequested (u : Usage) : Bool := u = .help || u = .version

end Usage

/-- The arguments taken so far. An option is pending until the next argument that is not its
value; only then it counts. -/
structure Collected where
  switches : List Switch
  positionals : List String
  rules : List String
  message : Option String
  pending : Option (ValueOption × Option String)

namespace Collected

def empty : Collected := ⟨[], [], [], none, none⟩

/-- Gives an option its value; only rules may be repeated. -/
def store (c : Collected) (o : ValueOption) (value : String) : Except Usage Collected :=
  match o with
  | .rule => .ok { c with rules := c.rules ++ [value], pending := none }
  | .message =>
    if c.message.isSome then .error .repeated
    else .ok { c with message := some value, pending := none }

/-- Completes the pending option. -/
def settle (c : Collected) : Except Usage Collected :=
  match c.pending with
  | none => .ok c
  | some (_, none) => .error .missingValue
  | some (o, some value) => c.store o value

def turnOn (c : Collected) (s : Switch) : Except Usage Collected := do
  let c ← c.settle
  match s with
  | .help => throw .help
  | .version => throw .version
  | s =>
    if c.switches.contains s then throw .repeated
    else pure { c with switches := s :: c.switches }

/-- Takes an option, with its value if that is attached. -/
def takeOption (c : Collected) (o : ValueOption) (attached : Option String) :
    Except Usage Collected := do
  let c ← c.settle
  match attached with
  | some value => c.store o value
  | none => pure { c with pending := some (o, none) }

end Collected

/-- Whether a text is digits, perhaps with a point after the first of them, and perhaps with an
exponent of digits; a letter `e` of either case marks the exponent. -/
def isUnsignedNumber (cs : List Char) : Bool :=
  let integer := cs.takeWhile (Text.isDigit 10)
  let rest := cs.dropWhile (Text.isDigit 10)
  let rest := if rest.head? = some '.' then rest.tail.dropWhile (Text.isDigit 10) else rest
  integer != [] &&
    match rest with
    | [] => true
    | mark :: exponent =>
      (mark = 'e' || mark = 'E') && exponent != [] && exponent.all (Text.isDigit 10)

namespace Grammar

def allows (g : Grammar) (count : Nat) : Bool := g.limit.all (count < ·)

/-- Takes a flag by its long name; `body` follows the two hyphens. -/
def takeLong (g : Grammar) (c : Collected) (body : List Char) : Except Usage Collected :=
  let name := String.ofList (body.takeWhile (· != '='))
  let attached :=
    match body.dropWhile (· != '=') with
    | [] => none
    | _ :: value => some (String.ofList value)
  match (g.flags.find? (·.long == name)).map FlagName.flag with
  | none => .error .unknownArgument
  | some (.switch s) => if attached.isSome then .error .unexpectedValue else c.turnOn s
  | some (.option o) => c.takeOption o attached

/-- Takes joined flags by their letters. What follows an option's letter is its value. -/
def takeShort (g : Grammar) (c : Collected) : List Char → Except Usage Collected
  | [] => .ok c
  | letter :: rest =>
    match (g.flags.find? (·.short == some letter)).map FlagName.flag with
    | none => .error .unknownArgument
    | some (.switch s) =>
      match c.turnOn s with
      | .error u => .error u
      | .ok c => g.takeShort c rest
    | some (.option o) =>
      match rest with
      | [] => c.takeOption o none
      | '=' :: value => c.takeOption o (some (String.ofList value))
      | value => c.takeOption o (some (String.ofList value))

def takePositional (g : Grammar) (c : Collected) (arg : String) : Except Usage Collected :=
  if g.allows c.positionals.length then do
    let c ← c.settle
    pure { c with positionals := c.positionals ++ [arg] }
  else .error .unknownArgument

/-- Takes the value of an option that waits for one, or else a positional argument. -/
def takePlain (g : Grammar) (c : Collected) (arg : String) : Except Usage Collected :=
  match c.pending with
  | some (o, none) => .ok { c with pending := some (o, some arg) }
  | _ => g.takePositional c arg

/-- Takes one argument that is not `--`, before any `--`. -/
def take (g : Grammar) (c : Collected) (arg : String) : Except Usage Collected :=
  match arg.toList with
  | '-' :: '-' :: body => g.takeLong c body
  | '-' :: letter :: rest =>
    let count := c.positionals.length
    if g.negativeFrom ≤ count && g.allows count && isUnsignedNumber (letter :: rest) then
      g.takePlain c arg
    else g.takeShort c (letter :: rest)
  | _ => g.takePlain c arg

/-- Takes all arguments of a command. -/
def collect (g : Grammar) (c : Collected) : List String → Except Usage Collected
  | [] => c.settle
  | arg :: rest =>
    if arg = "--" then
      (rest.foldlM g.takePositional c).bind Collected.settle
    else
      match g.take c arg with
      | .error u => .error u
      | .ok c => g.collect c rest

end Grammar

def commonFlags : List FlagName :=
  [⟨"json", none, .switch .json⟩, ⟨"no-color", none, .switch .noColor⟩,
    ⟨"help", some 'h', .switch .help⟩]

def programGrammar : Grammar := ⟨⟨"version", some 'V', .switch .version⟩ :: commonFlags, some 0, 0⟩

def checkGrammar : Grammar := ⟨⟨"length", some 'l', .switch .length⟩ :: commonFlags, none, 1⟩

def explainGrammar : Grammar := ⟨⟨"tokens", some 't', .switch .tokens⟩ :: commonFlags, some 1, 1⟩

def validateGrammar : Grammar :=
  ⟨⟨"rule", some 'r', .option .rule⟩ :: ⟨"message", some 'm', .option .message⟩ :: commonFlags,
    some 1, 0⟩

end Command

/-- What the program is asked to do. -/
inductive Command where
  | check (expression : String) (values : List String) (length : Bool)
  | explain (expression : String) (tokens : Bool)
  | validate (value : String) (rules : List String) (message : Option String)

namespace Command

/-- Whether values are to be taken from the standard input: none are given, or only `-`. -/
def areFromInput (values : List String) : Bool := values = [] || values = ["-"]

/-- Whether the command needs the standard input. -/
def readsInput : Command → Bool
  | .check _ values _ => areFromInput values
  | _ => false

/-- A command and whether its report is to be JSON. -/
structure Invocation where
  command : Command
  json : Bool

def subcommands : List String := ["check", "explain", "validate", "help"]

/-- The command of a name and its arguments. -/
def ofSubcommand (name : String) (args : List String) : Except Usage Invocation :=
  match name with
  | "check" => do
    let c ← checkGrammar.collect .empty args
    match c.positionals with
    | [] => throw .missingRequired
    | expression :: values =>
      pure ⟨.check expression values (c.switches.contains .length), c.switches.contains .json⟩
  | "explain" => do
    let c ← explainGrammar.collect .empty args
    match c.positionals with
    | [] => throw .missingRequired
    | expression :: _ =>
      pure ⟨.explain expression (c.switches.contains .tokens), c.switches.contains .json⟩
  | "validate" => do
    let c ← validateGrammar.collect .empty args
    match c.positionals, c.rules with
    | value :: _, _ :: _ => pure ⟨.validate value c.rules c.message, c.switches.contains .json⟩
    | _, _ => throw .missingRequired
  | "help" =>
    match args with
    | [] => .error .help
    | [topic] => .error (if subcommands.contains topic then .help else .unknownSubcommand)
    | _ => .error .unknownSubcommand
  | _ => .error .unknownSubcommand

/-- What is wrong with arguments that end before a subcommand. -/
def withoutSubcommand (c : Collected) : Usage :=
  if c.switches = [] then .noArguments else .missingSubcommand

/-- Reads the program's arguments: its own switches, then a subcommand with the rest. -/
def ofArguments (c : Collected) : List String → Except Usage Invocation
  | [] => .error (withoutSubcommand c)
  | arg :: rest =>
    if subcommands.contains arg then
      (ofSubcommand arg rest).map fun i => { i with json := i.json || c.switches.contains .json }
    else if arg = "--" then
      match rest with
      | [] => .error (withoutSubcommand c)
      | name :: _ =>
        .error (if subcommands.contains name then .unknownArgument else .unknownSubcommand)
    else
      match arg.toList with
      | '-' :: '-' :: body =>
        match programGrammar.takeLong c body with
        | .error u => .error u
        | .ok c => ofArguments c rest
      | '-' :: letter :: more =>
        match programGrammar.takeShort c (letter :: more) with
        | .error u => .error u
        | .ok c => ofArguments c rest
      | _ => .error .unknownSubcommand

end Command

end IntervalRules
