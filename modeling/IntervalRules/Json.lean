import IntervalRules.Binary64.Layout

/-!
JSON values and their compact text. Numbers have the digits and layout of `Layout.json`;
one that is not finite is written as `null`.
-/

namespace IntervalRules

inductive Json where
  | null
  | bool (b : Bool)
  | number (x : Binary64)
  | natural (n : Nat)
  | text (s : String)
  | list (items : List Json)
  | object (fields : List (String × Json))

namespace Json

/-- A number, or `null` where there is none. -/
def ofNumber? (x : Option Binary64) : Json := x.elim .null .number

def ofTexts (items : List String) : Json := .list (items.map .text)

/-- A character inside a JSON string. -/
def escapeChar (c : Char) : List Char :=
  if c = '"' ∨ c = '\\' then ['\\', c]
  else if c = '\x08' then ['\\', 'b']
  else if c = '\t' then ['\\', 't']
  else if c = '\n' then ['\\', 'n']
  else if c = '\x0c' then ['\\', 'f']
  else if c = '\r' then ['\\', 'r']
  else if c.toNat < 0x20 then
    "\\u00".toList ++ [Nat.digitChar (c.toNat / 16), Nat.digitChar (c.toNat % 16)]
  else [c]

def quote (s : String) : List Char := '"' :: s.toList.flatMap escapeChar ++ ['"']

def writeNumber (x : Binary64) : List Char :=
  match x with
  | .finite _ _ _ => Layout.json.write x
  | _ => "null".toList

mutual

/-- The text of a value, without blanks. -/
def write : Json → List Char
  | .null => "null".toList
  | .bool b => if b then "true".toList else "false".toList
  | .number x => writeNumber x
  | .natural n => Nat.toDigits 10 n
  | .text s => quote s
  | .list items => '[' :: writeItems items ++ [']']
  | .object fields => '\x7b' :: writeFields fields ++ ['\x7d']

def writeItems : List Json → List Char
  | [] => []
  | [item] => write item
  | item :: items => write item ++ ',' :: writeItems items

def writeFields : List (String × Json) → List Char
  | [] => []
  | [(name, value)] => quote name ++ ':' :: write value
  | (name, value) :: fields => quote name ++ ':' :: write value ++ ',' :: writeFields fields

end

/-- The text of a value as one line. -/
def line (j : Json) : String := String.ofList (j.write ++ ['\n'])

end Json

end IntervalRules
