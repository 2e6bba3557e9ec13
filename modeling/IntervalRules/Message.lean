import IntervalRules.Text.Decimal
import IntervalRules.Text.Digits

/-!
Message templates. A placeholder is a run of digits in braces with an optional `$` before it. The
placeholders of a template are found from left to right and do not overlap. One that has a
parameter is replaced by it, and any other one stays as it is.
-/

namespace IntervalRules.Message

/-- What has the form of a placeholder. Its digits are of any script. -/
structure Placeholder where
  dollar : Bool
  digits : List Char

namespace Placeholder

/-- The placeholder as it is written. -/
def chars (p : Placeholder) : List Char :=
  (if p.dollar then ['$'] else []) ++ '\x7b' :: (p.digits ++ ['\x7d'])

/-- The number of a parameter: ASCII digits that do not exceed a machine word. -/
def index? (p : Placeholder) : Option Nat :=
  if p.digits.all (Text.isDigit 10) ∧ Text.natOf 10 p.digits < Nat.pow 2 64 then
    some (Text.natOf 10 p.digits)
  else none

/-- What is written for a placeholder: its parameter, or else the placeholder itself. -/
def replacement (params : List String) (p : Placeholder) : List Char :=
  match p.index?.bind fun i => params[i]? with
  | some param => param.toList
  | none => p.chars

end Placeholder

/-- The braces of a placeholder at the front, and the text after them. -/
def braced? (dollar : Bool) : List Char → Option (Placeholder × List Char)
  | '\x7b' :: rest =>
    match rest.dropWhile Text.isDecimal with
    | '\x7d' :: after =>
      let digits := rest.takeWhile Text.isDecimal
      if digits = [] then none else some (⟨dollar, digits⟩, after)
    | _ => none
  | _ => none

/-- A placeholder at the front, and the text after it; a `$` belongs to it if it can. -/
def atFront? (cs : List Char) : Option (Placeholder × List Char) :=
  match cs with
  | '$' :: rest => (braced? true rest).or (braced? false cs)
  | _ => braced? false cs

/-- The first placeholder, with the text before it and the text after it. -/
def search? : List Char → Option (List Char × Placeholder × List Char)
  | [] => none
  | c :: rest =>
    match atFront? (c :: rest) with
    | some (p, after) => some ([], p, after)
    | none => (search? rest).map fun (before, p, after) => (c :: before, p, after)

theorem eq_of_braced? {dollar : Bool} {cs : List Char} {p : Placeholder} {after : List Char}
    (h : braced? dollar cs = some (p, after)) :
    p.dollar = dollar ∧ cs = '\x7b' :: (p.digits ++ '\x7d' :: after) := by
  unfold braced? at h
  split at h
  · rename_i rest
    split at h
    · rename_i hafter
      have hsplit := List.takeWhile_append_dropWhile (p := Text.isDecimal) (l := rest)
      rw [hafter] at hsplit
      dsimp only at h
      split at h
      · cases h
      · cases h
        exact ⟨rfl, by rw [hsplit]⟩
    · cases h
  · cases h

theorem eq_of_atFront? {cs : List Char} {p : Placeholder} {after : List Char}
    (h : atFront? cs = some (p, after)) : cs = p.chars ++ after := by
  have hbraced (dollar : Bool) (rest : List Char) (h : braced? dollar rest = some (p, after)) :
      (if dollar then ['$'] else []) ++ rest = p.chars ++ after := by
    obtain ⟨rfl, rfl⟩ := eq_of_braced? h
    simp [Placeholder.chars]
  unfold atFront? at h
  split at h
  · rename_i rest
    rcases Option.or_eq_some_iff.1 h with h | ⟨-, h⟩
    · exact hbraced true rest h
    · exact hbraced false ('$' :: rest) h
  · exact hbraced false cs h

theorem eq_of_search? {cs before : List Char} {p : Placeholder} {after : List Char}
    (h : search? cs = some (before, p, after)) : cs = before ++ (p.chars ++ after) := by
  induction cs generalizing before with
  | nil => cases h
  | cons c rest ih =>
    rw [search?] at h
    split at h
    · rename_i hfront
      cases h
      exact eq_of_atFront? hfront
    · obtain ⟨⟨before, p, after⟩, hsearch, heq⟩ := Option.map_eq_some_iff.1 h
      cases heq
      rw [List.cons_append, ← ih hsearch]

theorem length_lt_of_search? {cs before : List Char} {p : Placeholder} {after : List Char}
    (h : search? cs = some (before, p, after)) : after.length < cs.length := by
  rw [eq_of_search? h]
  simp only [Placeholder.chars, List.length_append, List.length_cons]
  omega

/-- Replaces the placeholders of a template from left to right. -/
def fillChars (params : List String) (template : List Char) : List Char :=
  match _found : search? template with
  | some (before, p, after) => before ++ (p.replacement params ++ fillChars params after)
  | none => template
termination_by template.length
decreasing_by exact length_lt_of_search? _found

/-- The message of a template and its parameters. -/
def fill (template : String) (params : List String) : String :=
  String.ofList (fillChars params template.toList)

example : fill "within \x7b0\x7d and $\x7b2\x7d" ["[0,1]"] = "within [0,1] and $\x7b2\x7d" := by
  decide +kernel

end IntervalRules.Message
