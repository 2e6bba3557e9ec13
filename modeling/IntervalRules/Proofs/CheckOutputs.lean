import IntervalRules.Proofs.BoundRules
import IntervalRules.Proofs.ExitStatus
import IntervalRules.Proofs.JsonReading

/-!
The two outputs of a check. Both show the same rows, one for each value: the plain lines as text,
and the JSON as what a reader gets from it. A row has no number in the JSON if the plain line says
so, and also if its number is infinite (`check_outputs`).
-/

namespace IntervalRules

/-- What is shown of a checked value. -/
structure Row where
  value : String
  passed : Bool
  /-- What the JSON says of the number. -/
  measured : Json.Content
  /-- Whether the plain line says that the value is not a number. -/
  noted : Bool

namespace Row

def line (r : Row) : String :=
  mark r.passed ++ " " ++ r.value ++ (if r.noted then " (not a number)" else "") ++ "\n"

def content (r : Row) : Json.Content :=
  .object [("measured".toList, r.measured), ("passed".toList, .bool r.passed),
    ("value".toList, .text r.value.toList)]

theorem content_inj {r r' : Row} (h : r.content = r'.content) :
    r.measured = r'.measured ∧ r.passed = r'.passed ∧ r.value = r'.value := by
  simpa [content, String.toList_inj] using h

/-- The JSON lacks a number exactly if the plain line says so, and none that passed is lacking. -/
structure Agrees (r : Row) : Prop where
  null_iff : r.measured = .null ↔ r.noted = true
  ne_null_of_passed : r.passed = true → r.measured ≠ .null

end Row

/-- What the JSON of a check says: the expression, whether all rows passed, and the rows. -/
def checkContent (source : String) (rows : List Row) : Json.Content :=
  .object [("expression".toList, .text source.toList),
    ("passed".toList, .bool (rows.all Row.passed)),
    ("results".toList, .list (rows.map Row.content))]

def CheckedValue.row (r : CheckedValue) : Row :=
  ⟨r.value, r.passed, (Json.ofNumber? r.measured).content, r.measured.isNone⟩

namespace Command

/-- Both outputs of a check show these rows, in this order. -/
structure Shows (source : String) (values : List String) (length : Bool) (input : ByteArray)
    (rows : List Row) : Prop where
  plain : (Invocation.run ⟨.check source values length, false⟩ input).stdout =
    String.join (rows.map Row.line)
  json : Json.readLine? (Invocation.run ⟨.check source values length, true⟩ input).stdout =
    some (checkContent source rows)

theorem contents_results (results : List CheckedValue) :
    Json.contents (results.map CheckedValue.json) =
      (results.map CheckedValue.row).map Row.content := by
  induction results with
  | nil => rfl
  | cons r results ih =>
    rw [List.map_cons, Json.contents, ih]
    rfl

theorem content_check (source : String) (results : List CheckedValue) :
    (Report.check source results).json.content =
      checkContent source (results.map CheckedValue.row) := by
  simp only [Report.json, Json.content, Json.fieldContents, contents_results, checkContent,
    List.all_map]
  rfl

variable {source : String} {expression : Expression} {values taken : List String}
  {input : ByteArray}

theorem shows_check (hread : readValues values input = .ok taken)
    (hparse : Expression.parse source = .ok expression) (length : Bool) :
    Shows source values length input
      ((taken.map (checkValue expression length)).map CheckedValue.row) := by
  have hperform := perform_check_of_read hread hparse length
  constructor
  · have hlines : CheckedValue.line = Row.line ∘ CheckedValue.row := rfl
    rw [Invocation.run, hperform, List.map_map, ← hlines]
    rfl
  · rw [Invocation.run, hperform, ← content_check]
    exact Json.readLine?_line _

/-- The rows that the JSON shows are the same in all that it says of them. -/
theorem Shows.map_content_eq {length : Bool} {rows rows' : List Row}
    (h : Shows source values length input rows) (h' : Shows source values length input rows') :
    rows.map Row.content = rows'.map Row.content := by
  have hcontent := Option.some.inj (h.json.symm.trans h'.json)
  simp only [checkContent, Json.Content.object.injEq, List.cons.injEq, Prod.mk.injEq,
    Json.Content.list.injEq] at hcontent
  exact hcontent.2.2.1.2

/-- The plain line says that there is no number exactly if there is none. -/
theorem noted_row_iff (expression : Expression) (length : Bool) (value : String) :
    (checkValue expression length value).row.noted = true ↔ Rule.measured length value = none :=
  Option.isNone_iff_eq_none

/-- The JSON lacks the number of a value that has none, and one that is infinite. -/
theorem measured_row_eq_null_iff (expression : Expression) (length : Bool) (value : String) :
    (checkValue expression length value).row.measured = .null ↔
      Rule.measured length value = none ∨
        ∃ negative, Rule.measured length value = some (.infinite negative) := by
  rw [show (checkValue expression length value).row.measured =
    (Json.ofNumber? (Rule.measured length value)).content from rfl]
  cases hmeasured : Rule.measured length value with
  | none => exact ⟨fun _ => .inl rfl, fun _ => rfl⟩
  | some x =>
    have hnan := Rule.isNaN_of_measured hmeasured
    cases x with
    | nan => cases hnan
    | infinite negative => simp [Json.ofNumber?, Json.content]
    | finite negative units h => simp [Json.ofNumber?, Json.content]

/-- A value that has no number does not pass. -/
theorem passed_row_of_none {expression : Expression} {length : Bool} {value : String}
    (h : Rule.measured length value = none) :
    (checkValue expression length value).row.passed = false := by
  rw [show (checkValue expression length value).row.passed =
    (Rule.measured length value).any expression.contains from rfl, h]
  rfl

/-- The two sides of a row agree unless its number is infinite. -/
theorem agrees_row_iff (expression : Expression) (length : Bool) (value : String) :
    (checkValue expression length value).row.Agrees ↔
      ∀ negative, Rule.measured length value ≠ some (.infinite negative) := by
  have hnull := measured_row_eq_null_iff expression length value
  have hnoted := noted_row_iff expression length value
  constructor
  · intro h negative hinfinite
    have hnone := hnoted.1 (h.null_iff.1 (hnull.2 (.inr ⟨negative, hinfinite⟩)))
    cases hnone.symm.trans hinfinite
  · intro h
    have hnone : (checkValue expression length value).row.measured = .null ↔
        Rule.measured length value = none :=
      hnull.trans (or_iff_left fun ⟨negative, hinfinite⟩ => h negative hinfinite)
    refine ⟨hnone.trans hnoted.symm, fun hpassed hmeasured => ?_⟩
    rw [passed_row_of_none (hnone.1 hmeasured)] at hpassed
    cases hpassed

/-- The plain lines and the JSON of a check list the values that are read, in their order and with
the same marks. For each value whose number is not infinite, the JSON lacks the number exactly if
the plain line says that there is none, and then the value did not pass. -/
theorem check_outputs (hread : readValues values input = .ok taken)
    (hparse : Expression.parse source = .ok expression) (length : Bool) :
    ∃ rows, Shows source values length input rows ∧ rows.map Row.value = taken ∧
      ∀ r ∈ rows, (r.passed = true ↔ Passes expression length r.value) ∧
        (r.noted = true ↔ Rule.measured length r.value = none) ∧
        (r.Agrees ↔ ∀ negative, Rule.measured length r.value ≠ some (.infinite negative)) := by
  refine ⟨_, shows_check hread hparse length, ?_, ?_⟩
  · have hvalue : (Row.value ∘ CheckedValue.row) ∘ checkValue expression length = id := rfl
    rw [List.map_map, List.map_map, hvalue, List.map_id]
  · simp only [List.forall_mem_map]
    intro value _
    exact ⟨passed_checkValue_iff expression length value, noted_row_iff expression length value,
      agrees_row_iff expression length value⟩

/-- A number and a text that is none, on lines of the input. -/
theorem check_outputs_of_lines :
    readValues [] "5\nx\n".toUTF8 = .ok ["5", "x"] ∧
      ∃ rows, Shows "[0,10)" [] false "5\nx\n".toUTF8 rows ∧ rows.map Row.value = ["5", "x"] ∧
        ∀ r ∈ rows, r.Agrees := by
  have hread : readValues [] "5\nx\n".toUTF8 = .ok ["5", "x"] := rfl
  have hparse : Expression.parse "[0,10)" = .ok ⟨[⟨.ofNat 0, true, .ofNat 10, false⟩]⟩ := by
    decide +kernel
  have hfinite : ∀ value ∈ ["5", "x"], ∀ negative,
      Rule.measured false value ≠ some (.infinite negative) := by
    have hnumber : Rule.measured false "5" = some (.ofNat 5) := by decide +kernel
    have hnone : Rule.measured false "x" = none := by decide +kernel
    simp only [List.forall_mem_cons, hnumber, hnone]
    exact ⟨by decide +kernel, nofun, nofun⟩
  obtain ⟨rows, hshows, hvalues, hrows⟩ := check_outputs hread hparse false
  refine ⟨hread, rows, hshows, hvalues, fun r hr => (hrows r hr).2.2.2 ?_⟩
  have hvalue : r.value ∈ rows.map Row.value := List.mem_map_of_mem hr
  exact hfinite _ (hvalues ▸ hvalue)

/-- A number beyond the finite ones passes, but the JSON lacks it. -/
theorem check_outputs_differ :
    ¬ ∀ (source : String) (expression : Expression) (values taken : List String)
      (input : ByteArray) (length : Bool), readValues values input = .ok taken →
      Expression.parse source = .ok expression →
      ∃ rows, Shows source values length input rows ∧ rows.map Row.value = taken ∧
        ∀ r ∈ rows, r.Agrees := by
  intro h
  let all : Expression := ⟨[⟨.negInfinity, false, .posInfinity, false⟩]⟩
  have hparse : Expression.parse "(,)" = .ok all := by decide +kernel
  have hread : readValues ["1e999"] .empty = .ok ["1e999"] := rfl
  have hnumber : Rule.measured false "1e999" = some (.infinite false) := by decide +kernel
  have hnull : (checkValue all false "1e999").row.measured = .null :=
    (measured_row_eq_null_iff all false "1e999").2 (.inr ⟨false, hnumber⟩)
  have hpassed : (checkValue all false "1e999").row.passed = true := by decide +kernel
  obtain ⟨rows, hshows, -, hagrees⟩ := h _ _ _ _ _ false hread hparse
  obtain ⟨r, rfl, hr⟩ := List.map_eq_singleton_iff.1
    (hshows.map_content_eq (shows_check hread hparse false))
  obtain ⟨hmeasured, hmark, -⟩ := Row.content_inj hr
  exact (hagrees r List.mem_cons_self).ne_null_of_passed (hmark.trans hpassed)
    (hmeasured.trans hnull)

end Command

end IntervalRules
