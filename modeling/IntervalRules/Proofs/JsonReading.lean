import IntervalRules.Proofs.JsonText
import IntervalRules.Proofs.PlainText

/-!
Reading of JSON. The reader takes a value from the front of a text and gives what it says, a number
by its characters. Every value is read back from what is written for it, with `null` where there is
no number or none that is finite (`readLine?_line`).
-/

namespace IntervalRules.Json

/-- What a JSON text says. -/
inductive Content where
  | null
  | bool (b : Bool)
  | number (chars : List Char)
  | text (chars : List Char)
  | list (items : List Content)
  | object (fields : List (List Char × Content))

/-! ## The reader -/

/-- Takes a string whose first quote is gone. -/
def readText : List Char → Option (List Char × List Char)
  | [] => none
  | '"' :: rest => some ([], rest)
  | '\\' :: 'u' :: a :: b :: c :: d :: rest =>
    if [a, b, c, d].all (Text.isDigit 16) then
      (readText rest).map fun r => (Char.ofNat (Text.natOf 16 [a, b, c, d]) :: r.1, r.2)
    else none
  | '\\' :: letter :: rest =>
    match escapes.lookup letter with
    | some c => (readText rest).map fun r => (c :: r.1, r.2)
    | none => none
  | c :: rest =>
    if 0x20 ≤ c.toNat ∧ c ≠ '\\' then (readText rest).map fun r => (c :: r.1, r.2) else none

def isNumberChar (c : Char) : Bool :=
  Text.isDigit 10 c || c == '-' || c == '+' || c == '.' || c == 'e' || c == 'E'

/-- Takes a value that holds no others. -/
def readScalar : List Char → Option (Content × List Char)
  | 'n' :: 'u' :: 'l' :: 'l' :: rest => some (.null, rest)
  | 't' :: 'r' :: 'u' :: 'e' :: rest => some (.bool true, rest)
  | 'f' :: 'a' :: 'l' :: 's' :: 'e' :: rest => some (.bool false, rest)
  | '"' :: rest => (readText rest).map fun r => (.text r.1, r.2)
  | cs =>
    if cs.takeWhile isNumberChar = [] then none
    else some (.number (cs.takeWhile isNumberChar), cs.dropWhile isNumberChar)

mutual

/-- Takes a value from the front. Each level and each item uses up one unit of fuel. -/
def readValue : Nat → List Char → Option (Content × List Char)
  | 0, _ => none
  | _ + 1, '[' :: ']' :: rest => some (.list [], rest)
  | fuel + 1, '[' :: rest => (readItems fuel rest).map fun r => (.list r.1, r.2)
  | _ + 1, '\x7b' :: '\x7d' :: rest => some (.object [], rest)
  | fuel + 1, '\x7b' :: rest => (readFields fuel rest).map fun r => (.object r.1, r.2)
  | _ + 1, cs => readScalar cs

/-- Takes items up to the end of their list. -/
def readItems : Nat → List Char → Option (List Content × List Char)
  | 0, _ => none
  | fuel + 1, cs =>
    match readValue fuel cs with
    | some (item, ']' :: rest) => some ([item], rest)
    | some (item, ',' :: rest) => (readItems fuel rest).map fun r => (item :: r.1, r.2)
    | _ => none

/-- Takes fields up to the end of their object. -/
def readFields : Nat → List Char → Option (List (List Char × Content) × List Char)
  | fuel + 1, '"' :: cs =>
    match readText cs with
    | some (name, ':' :: cs) =>
      match readValue fuel cs with
      | some (value, '\x7d' :: rest) => some ([(name, value)], rest)
      | some (value, ',' :: rest) => (readFields fuel rest).map fun r => ((name, value) :: r.1, r.2)
      | _ => none
    | _ => none
  | _, _ => none

end

/-- What a line says that is one value. -/
def readLine? (line : String) : Option Content :=
  match readValue line.length line.toList with
  | some (content, ['\n']) => some content
  | _ => none

/-! ## What is to be read -/

mutual

/-- What a value says once it is written. -/
def content : Json → Content
  | .null => .null
  | .bool b => .bool b
  | .number (.finite negative units h) => .number (Layout.json.write (.finite negative units h))
  | .number _ => .null
  | .natural n => .number (Nat.toDigits 10 n)
  | .text s => .text s.toList
  | .list items => .list (contents items)
  | .object fields => .object (fieldContents fields)

def contents : List Json → List Content
  | [] => []
  | item :: items => content item :: contents items

def fieldContents : List (String × Json) → List (List Char × Content)
  | [] => []
  | (name, value) :: fields => (name.toList, content value) :: fieldContents fields

end

/-! ## Strings -/

theorem readText_escape {letter c : Char} (h : (letter, c) ∈ escapes) (rest : List Char) :
    readText ('\\' :: letter :: rest) = (readText rest).map fun r => (c :: r.1, r.2) := by
  simp only [escapes, List.mem_cons, Prod.mk.injEq, List.not_mem_nil, or_false] at h
  rcases h with ⟨rfl, rfl⟩ | ⟨rfl, rfl⟩ | ⟨rfl, rfl⟩ | ⟨rfl, rfl⟩ | ⟨rfl, rfl⟩ | ⟨rfl, rfl⟩ |
    ⟨rfl, rfl⟩ | ⟨rfl, rfl⟩ <;> rfl

theorem readText_of_quotes {body text : List Char} (h : Quotes body text) (rest : List Char) :
    readText (body ++ '"' :: rest) = some (text, rest) := by
  induction h with
  | nil => rfl
  | @plain c body text hcontrol hquote hbackslash _ ih =>
    rw [List.cons_append]
    unfold readText
    split
    all_goals simp_all
  | @escape letter c body text h _ ih =>
    rw [List.cons_append, List.cons_append, readText_escape h, ih]
    rfl
  | @code digits c body text hlength hdigits hcode _ ih =>
    obtain ⟨a, digits, rfl⟩ := List.exists_cons_of_length_eq_add_one hlength
    obtain ⟨b, digits, rfl⟩ := List.exists_cons_of_length_eq_add_one (Nat.succ.inj hlength)
    obtain ⟨c', digits, rfl⟩ :=
      List.exists_cons_of_length_eq_add_one (Nat.succ.inj (Nat.succ.inj hlength))
    obtain ⟨d, rfl⟩ := List.length_eq_one_iff.1 (Nat.succ.inj (Nat.succ.inj (Nat.succ.inj hlength)))
    have hall : [a, b, c', d].all (Text.isDigit 16) = true := List.all_eq_true.2 hdigits
    simp only [List.cons_append, List.nil_append, readText, hall, if_true, ih, hcode]
    simp [Char.ofNat_toNat]

/-! ## Numbers -/

theorem isNumberChar_of_isDigit {c : Char} (h : Text.isDigit 10 c = true) :
    isNumberChar c = true := by
  simp [isNumberChar, h]

theorem isNumberChar_of_mem_toDigits {n : Nat} {c : Char} (h : c ∈ Nat.toDigits 10 n) :
    isNumberChar c = true :=
  isNumberChar_of_isDigit (Text.isDigit_of_mem_toDigits h)

theorem isNumberChar_of_mem_zeros {count : Nat} {c : Char} (h : c ∈ List.replicate count '0') :
    isNumberChar c = true :=
  isNumberChar_of_isDigit (Layout.isDigit_of_mem_zeros h)

/-- A number and its characters. -/
structure IsNumberText (cs : List Char) : Prop where
  ne_nil : cs ≠ []
  chars : ∀ c ∈ cs, isNumberChar c = true

theorem IsNumberText.exists_cons {cs : List Char} (h : IsNumberText cs) :
    ∃ c more, cs = c :: more ∧ isNumberChar c = true := by
  obtain ⟨c, more, rfl⟩ := List.exists_cons_of_ne_nil h.ne_nil
  exact ⟨c, more, rfl, h.chars c List.mem_cons_self⟩

theorem isNumberText_toDigits (n : Nat) : IsNumberText (Nat.toDigits 10 n) :=
  ⟨Nat.toDigits_ne_nil, fun _ => isNumberChar_of_mem_toDigits⟩

theorem isNumberChar_wholeSuffix : ∀ c ∈ Layout.json.wholeSuffix, isNumberChar c = true :=
  List.all_eq_true.1 (by decide)

theorem isNumberText_writePositional {digits : List Char} (h : IsNumberText digits)
    (exponent : Int) : IsNumberText (Layout.json.writePositional digits exponent) := by
  unfold Layout.writePositional
  split
  · refine ⟨by simp [h.ne_nil], ?_⟩
    simp only [List.forall_mem_append]
    exact ⟨⟨h.chars, fun c => isNumberChar_of_mem_zeros⟩, isNumberChar_wholeSuffix⟩
  · have hpadded (count : Nat) : ∀ c ∈ List.replicate count '0' ++ digits, isNumberChar c = true :=
      List.forall_mem_append.2 ⟨fun c => isNumberChar_of_mem_zeros, h.chars⟩
    refine ⟨by simp, ?_⟩
    dsimp only
    simp only [List.forall_mem_append, List.forall_mem_cons]
    exact ⟨fun c hc => hpadded _ c (List.mem_of_mem_take hc), rfl,
      fun c hc => hpadded _ c (List.mem_of_mem_drop hc)⟩

theorem isNumberText_writeScientific {digits : List Char} (h : IsNumberText digits)
    (exponent : Int) : IsNumberText (Layout.writeScientific digits exponent) := by
  have hsign : isNumberChar (if exponent < 0 then '-' else '+') = true := by split <;> rfl
  unfold Layout.writeScientific
  refine ⟨by simp, ?_⟩
  simp only [List.forall_mem_append, List.forall_mem_cons]
  refine ⟨?_, rfl, hsign, fun c => isNumberChar_of_mem_toDigits⟩
  have hchars := h.chars
  split
  · simp only [List.forall_mem_cons] at hchars ⊢
    exact ⟨hchars.1, rfl, hchars.2⟩
  · exact hchars

theorem isNumberText_writeMagnitude (units : Nat) :
    IsNumberText (Layout.json.writeMagnitude units) := by
  unfold Layout.writeMagnitude
  dsimp only
  split
  · exact ⟨List.cons_ne_nil _ _, List.forall_mem_cons.2 ⟨rfl, isNumberChar_wholeSuffix⟩⟩
  · split
    · exact isNumberText_writePositional (isNumberText_toDigits _) _
    · exact isNumberText_writeScientific (isNumberText_toDigits _) _

/-- The text of a finite number is made of the characters of numbers. -/
theorem isNumberText_write (negative : Bool) {units : Nat} (h : Binary64.OnGrid units) :
    IsNumberText (Layout.json.write (.finite negative units h)) := by
  have hmagnitude := isNumberText_writeMagnitude units
  rw [Layout.write]
  split
  · exact ⟨List.cons_ne_nil _ _, List.forall_mem_cons.2 ⟨rfl, hmagnitude.chars⟩⟩
  · exact hmagnitude

theorem readScalar_number {number rest : List Char} (h : IsNumberText number)
    (hrest : ∀ c ∈ rest.head?, isNumberChar c = false) :
    readScalar (number ++ rest) = some (.number number, rest) := by
  obtain ⟨htake, hdrop⟩ := Text.takeWhile_front rest h.chars hrest
  have hne {d : Char} (hd : isNumberChar d = false) (tail : List Char) :
      number ++ rest ≠ d :: tail := by
    intro heq
    obtain ⟨c, more, rfl, hc⟩ := h.exists_cons
    obtain rfl : c = d := (List.cons.inj heq).1
    rw [hc] at hd
    cases hd
  unfold readScalar
  split
  · exact absurd ‹_› (hne rfl _)
  · exact absurd ‹_› (hne rfl _)
  · exact absurd ‹_› (hne rfl _)
  · exact absurd ‹_› (hne rfl _)
  · rw [htake, hdrop, if_neg h.ne_nil]

/-! ## Values -/

/-- The value is read back from the front of a text, with enough fuel for its characters. -/
def ReadsBack (j : Json) : Prop :=
  ∀ (fuel : Nat) (rest : List Char), j.write.length ≤ fuel →
    (∀ c ∈ rest.head?, isNumberChar c = false) →
    readValue fuel (j.write ++ rest) = some (j.content, rest)

theorem readValue_scalar (fuel : Nat) {cs : List Char} (hlist : cs.head? ≠ some '[')
    (hobject : cs.head? ≠ some '\x7b') : readValue (fuel + 1) cs = readScalar cs := by
  unfold readValue
  split
  · exact absurd ‹_› (Nat.succ_ne_zero fuel)
  · exact absurd rfl hlist
  · exact absurd rfl hlist
  · exact absurd rfl hobject
  · exact absurd rfl hobject
  · rfl

/-- No value starts as a list ends. -/
theorem exists_write_eq_cons (j : Json) : ∃ c cs, j.write = c :: cs ∧ c ≠ ']' := by
  have hnumber {cs : List Char} (h : IsNumberText cs) : ∃ c more, cs = c :: more ∧ c ≠ ']' := by
    obtain ⟨c, more, rfl, hc⟩ := h.exists_cons
    refine ⟨c, more, rfl, ?_⟩
    rintro rfl
    cases hc
  cases j with
  | null => exact ⟨'n', _, rfl, by decide⟩
  | bool b => cases b <;> exact ⟨_, _, rfl, by decide⟩
  | number x =>
    cases x with
    | nan => exact ⟨'n', _, rfl, by decide⟩
    | infinite => exact ⟨'n', _, rfl, by decide⟩
    | finite negative units h => exact hnumber (isNumberText_write negative h)
  | natural n => exact hnumber (isNumberText_toDigits n)
  | text s => exact ⟨'"', _, rfl, by decide⟩
  | list items => exact ⟨'[', _, rfl, by decide⟩
  | object fields => exact ⟨'\x7b', _, rfl, by decide⟩

/-- There is fuel for at least one level. -/
theorem exists_fuel {j : Json} {fuel : Nat} (h : j.write.length ≤ fuel) : ∃ n, fuel = n + 1 := by
  obtain ⟨c, cs, hwrite, -⟩ := exists_write_eq_cons j
  rw [hwrite, List.length_cons] at h
  exact ⟨fuel - 1, by omega⟩

theorem readsBack_of_number {j : Json} {number : List Char} (hnumber : IsNumberText number)
    (hwrite : j.write = number) (hcontent : j.content = .number number) : ReadsBack j := by
  intro fuel rest hfuel hrest
  obtain ⟨fuel, rfl⟩ := exists_fuel hfuel
  have hhead {d : Char} (hd : isNumberChar d = false) : (number ++ rest).head? ≠ some d := by
    obtain ⟨c, more, rfl, hc⟩ := hnumber.exists_cons
    rintro ⟨⟩
    rw [hc] at hd
    cases hd
  rw [hwrite, hcontent, readValue_scalar fuel (hhead rfl) (hhead rfl),
    readScalar_number hnumber hrest]

theorem readsBack_null : ReadsBack .null := by
  intro fuel rest hfuel _
  obtain ⟨fuel, rfl⟩ := exists_fuel hfuel
  rfl

theorem readsBack_bool (b : Bool) : ReadsBack (.bool b) := by
  intro fuel rest hfuel _
  obtain ⟨fuel, rfl⟩ := exists_fuel hfuel
  cases b <;> rfl

theorem readsBack_number (x : Binary64) : ReadsBack (.number x) := by
  cases x with
  | nan => exact readsBack_null
  | infinite => exact readsBack_null
  | finite negative units h => exact readsBack_of_number (isNumberText_write negative h) rfl rfl

theorem readsBack_natural (n : Nat) : ReadsBack (.natural n) :=
  readsBack_of_number (isNumberText_toDigits n) rfl rfl

theorem readText_quote (s : String) (rest : List Char) :
    ∃ body, quote s ++ rest = '"' :: body ∧ readText body = some (s.toList, rest) :=
  ⟨s.toList.flatMap escapeChar ++ '"' :: rest, by simp [quote],
    readText_of_quotes (quotes_flatMap_escapeChar s.toList) rest⟩

theorem readsBack_text (s : String) : ReadsBack (.text s) := by
  intro fuel rest hfuel _
  obtain ⟨fuel, rfl⟩ := exists_fuel hfuel
  obtain ⟨body, hquote, hread⟩ := readText_quote s rest
  rw [write, hquote, readValue_scalar fuel (by simp) (by simp), readScalar, hread]
  rfl

/-! ## Lists and objects -/

theorem writeItems_cons (item : Json) (items : List Json) :
    writeItems (item :: items) =
      item.write ++ if items = [] then [] else ',' :: writeItems items := by
  cases items <;> simp [writeItems]

theorem writeFields_cons (name : String) (value : Json) (fields : List (String × Json)) :
    writeFields ((name, value) :: fields) =
      quote name ++
        ':' :: (value.write ++ if fields = [] then [] else ',' :: writeFields fields) := by
  cases fields <;> simp [writeFields]

theorem readItems_write {item : Json} {items : List Json}
    (h : ∀ j ∈ item :: items, ReadsBack j) (fuel : Nat) (rest : List Char)
    (hfuel : (writeItems (item :: items)).length < fuel) :
    readItems fuel (writeItems (item :: items) ++ ']' :: rest) =
      some (contents (item :: items), rest) := by
  induction items generalizing item fuel with
  | nil =>
    obtain ⟨fuel, rfl⟩ := Nat.exists_eq_add_one_of_ne_zero (Nat.ne_zero_of_lt hfuel)
    have hitem := h item List.mem_cons_self fuel (']' :: rest) (Nat.le_of_lt_succ hfuel)
      (by rintro c ⟨⟩; rfl)
    rw [writeItems, readItems, hitem]
    rfl
  | cons next items ih =>
    obtain ⟨fuel, rfl⟩ := Nat.exists_eq_add_one_of_ne_zero (Nat.ne_zero_of_lt hfuel)
    rw [writeItems_cons, if_neg (List.cons_ne_nil _ _), List.length_append, List.length_cons]
      at hfuel
    have hitem := h item List.mem_cons_self fuel
      (',' :: (writeItems (next :: items) ++ ']' :: rest)) (by omega) (by rintro c ⟨⟩; rfl)
    have hitems := ih (fun j hj => h j (List.mem_cons_of_mem _ hj)) fuel (by omega)
    rw [writeItems_cons, if_neg (List.cons_ne_nil _ _), List.append_assoc, List.cons_append,
      readItems, hitem]
    simp only [hitems]
    rfl

theorem readFields_write {name : String} {value : Json} {fields : List (String × Json)}
    (h : ∀ field ∈ (name, value) :: fields, ReadsBack field.2) (fuel : Nat) (rest : List Char)
    (hfuel : (writeFields ((name, value) :: fields)).length < fuel) :
    readFields fuel (writeFields ((name, value) :: fields) ++ '\x7d' :: rest) =
      some (fieldContents ((name, value) :: fields), rest) := by
  induction fields generalizing name value fuel with
  | nil =>
    obtain ⟨fuel, rfl⟩ := Nat.exists_eq_add_one_of_ne_zero (Nat.ne_zero_of_lt hfuel)
    rw [writeFields_cons, if_pos rfl, List.append_nil] at hfuel ⊢
    rw [List.length_append, List.length_cons] at hfuel
    have hvalue := h _ List.mem_cons_self fuel ('\x7d' :: rest) (by dsimp only; omega)
      (by rintro c ⟨⟩; rfl)
    obtain ⟨body, hquote, hread⟩ := readText_quote name (':' :: (value.write ++ '\x7d' :: rest))
    rw [List.append_assoc, List.cons_append, hquote, readFields, hread]
    simp only [hvalue]
    rfl
  | cons field fields ih =>
    obtain ⟨next, nextValue⟩ := field
    obtain ⟨fuel, rfl⟩ := Nat.exists_eq_add_one_of_ne_zero (Nat.ne_zero_of_lt hfuel)
    rw [writeFields_cons, if_neg (List.cons_ne_nil _ _)] at hfuel ⊢
    rw [List.length_append, List.length_cons, List.length_append, List.length_cons] at hfuel
    have hvalue := h _ List.mem_cons_self fuel
      (',' :: (writeFields ((next, nextValue) :: fields) ++ '\x7d' :: rest)) (by dsimp only; omega)
      (by rintro c ⟨⟩; rfl)
    have hfields := ih (fun field hfield => h field (List.mem_cons_of_mem _ hfield)) fuel (by omega)
    obtain ⟨body, hquote, hread⟩ := readText_quote name (':' :: (value.write ++
      ',' :: (writeFields ((next, nextValue) :: fields) ++ '\x7d' :: rest)))
    rw [List.append_assoc, List.cons_append, List.append_assoc, List.cons_append, hquote,
      readFields, hread]
    simp only [hvalue, hfields]
    rfl

theorem readsBack_list {items : List Json} (h : ∀ item ∈ items, ReadsBack item) :
    ReadsBack (.list items) := by
  intro fuel rest hfuel _
  obtain ⟨fuel, rfl⟩ := exists_fuel hfuel
  cases items with
  | nil => rfl
  | cons item items =>
    rw [write, List.length_append, List.length_cons, List.length_singleton] at hfuel
    have hitems := readItems_write h fuel rest (by omega)
    have hclosing (more : List Char) : writeItems (item :: items) ++ ']' :: rest ≠ ']' :: more := by
      obtain ⟨c, cs, hwrite, hc⟩ := exists_write_eq_cons item
      simp [writeItems_cons, hwrite, hc]
    rw [write, List.cons_append, List.cons_append, List.append_assoc, List.singleton_append,
      readValue, hitems]
    · rfl
    · exact hclosing

theorem readsBack_object {fields : List (String × Json)}
    (h : ∀ field ∈ fields, ReadsBack field.2) : ReadsBack (.object fields) := by
  intro fuel rest hfuel _
  obtain ⟨fuel, rfl⟩ := exists_fuel hfuel
  cases fields with
  | nil => rfl
  | cons field fields =>
    obtain ⟨name, value⟩ := field
    rw [write, List.length_append, List.length_cons, List.length_singleton] at hfuel
    have hfields := readFields_write h fuel rest (by omega)
    have hclosing (more : List Char) :
        writeFields ((name, value) :: fields) ++ '\x7d' :: rest ≠ '\x7d' :: more := by
      simp [writeFields_cons, quote]
    rw [write, List.cons_append, List.cons_append, List.append_assoc, List.singleton_append,
      readValue, hfields]
    · rfl
    · exact hclosing

theorem readsBack : (j : Json) → ReadsBack j
  | .null => readsBack_null
  | .bool b => readsBack_bool b
  | .number x => readsBack_number x
  | .natural n => readsBack_natural n
  | .text s => readsBack_text s
  | .list items => readsBack_list fun item _ => readsBack item
  | .object fields => readsBack_object fun field hfield =>
    have hsize : sizeOf field.2 < sizeOf fields :=
      Nat.lt_of_le_of_lt (by cases field; simp) (List.sizeOf_lt_of_mem hfield)
    readsBack field.2

/-- Every value is read back from its line. -/
theorem readLine?_line (j : Json) : readLine? j.line = some j.content := by
  have hlength : j.write.length ≤ j.line.length := by
    rw [line, String.length_ofList, List.length_append]
    exact Nat.le_add_right _ _
  have hread := readsBack j j.line.length ['\n'] hlength (by rintro c ⟨⟩; rfl)
  have htext : j.line.toList = j.write ++ ['\n'] := String.toList_ofList
  rw [readLine?, htext, hread]
  rfl

end IntervalRules.Json
