import IntervalRules.Command.Report
import IntervalRules.Proofs.Splitting

/-!
Values from the input. Reading the lines one by one, each decoded on its own, comes to the same as
decoding the whole input and splitting it: a line feed is never a part of another character, so an
input is UTF-8 exactly if each of its lines is.
-/

namespace IntervalRules

namespace Text

/-! ## UTF-8 -/

/-- The line feed is encoded as itself. -/
theorem encode_newline : String.utf8EncodeChar '\n' = [10] := by decide

/-- Its byte is in no other character. -/
theorem not_mem_encode {c : Char} (hc : c ≠ '\n') : (10 : UInt8) ∉ String.utf8EncodeChar c := by
  have hcode : c.val.toNat ≠ 10 := fun h => hc (Char.ext (UInt32.toNat_inj.1 h))
  have hbyte {n : Nat} (hn : n ≠ 10) (hlt : n < 256) : (10 : UInt8) ≠ UInt8.ofNat n := by
    intro h
    have hvalue := congrArg UInt8.toNat h
    rw [UInt8.toNat_ofNat'] at hvalue
    have : n % 2 ^ 8 = 10 := hvalue.symm
    omega
  unfold String.utf8EncodeChar
  dsimp only
  split
  · simp only [List.mem_singleton]
    exact hbyte hcode (by omega)
  · split
    · simp only [List.mem_cons, List.not_mem_nil, or_false, not_or]
      exact ⟨hbyte (by omega) (by omega), hbyte (by omega) (by omega)⟩
    · split
      · simp only [List.mem_cons, List.not_mem_nil, or_false, not_or]
        exact ⟨hbyte (by omega) (by omega), hbyte (by omega) (by omega),
          hbyte (by omega) (by omega)⟩
      · simp only [List.mem_cons, List.not_mem_nil, or_false, not_or]
        exact ⟨hbyte (by omega) (by omega), hbyte (by omega) (by omega),
          hbyte (by omega) (by omega), hbyte (by omega) (by omega)⟩

/-- The bytes of a text. -/
def encode (cs : List Char) : List UInt8 := cs.flatMap String.utf8EncodeChar

theorem split_encode (cs : List Char) : split 10 (encode cs) = (split '\n' cs).map encode :=
  split_flatMap encode_newline (fun _ => not_mem_encode) cs

theorem encode_intercalate (lines : List (List Char)) :
    encode (['\n'].intercalate lines) = [10].intercalate (lines.map encode) :=
  flatMap_intercalate encode_newline lines

/-- Decoding finds the text that the bytes are those of. -/
theorem fromUTF8?_eq_some_iff (bytes : ByteArray) (text : String) :
    String.fromUTF8? bytes = some text ↔ encode text.toList = bytes.data.toList := by
  have hbytes : text.toByteArray = bytes ↔ encode text.toList = bytes.data.toList := by
    rw [← String.utf8Encode_toList, List.utf8Encode]
    constructor
    · rintro rfl
      rw [List.data_toByteArray]
      rfl
    · intro h
      rw [← encode, h]
      exact ByteArray.ext (by rw [List.data_toByteArray])
  rw [← hbytes, String.fromUTF8?]
  split
  · rename_i hvalid
    constructor
    · rintro ⟨⟩
      rfl
    · rintro rfl
      rfl
  · rename_i hvalid
    refine ⟨nofun, ?_⟩
    rintro rfl
    exact absurd text.isValidUTF8 hvalid

theorem fromUTF8?_toByteArray_iff (bytes : List UInt8) (text : String) :
    String.fromUTF8? bytes.toByteArray = some text ↔ encode text.toList = bytes := by
  rw [fromUTF8?_eq_some_iff, List.data_toByteArray]

end Text

namespace Command

/-! ## Lines -/

/-- The values on the lines of a text. -/
def valueLines (text : String) : List String :=
  (Text.split '\n' text.toList).filterMap fun line => lineValue? (String.ofList line)

theorem readLines_of_decoded (lines : List (List Char)) :
    readLines (lines.map Text.encode) =
      .ok (lines.filterMap fun line => lineValue? (String.ofList line)) := by
  induction lines with
  | nil => rfl
  | cons line lines ih =>
    have hline : String.fromUTF8? (Text.encode line).toByteArray = some (String.ofList line) := by
      rw [Text.fromUTF8?_toByteArray_iff, String.toList_ofList]
    rw [List.map_cons, readLines, hline]
    dsimp only
    rw [ih, List.filterMap_cons]
    cases lineValue? (String.ofList line) <;> rfl

/-- All lines are decoded if they are read without an error. -/
theorem exists_decoded_of_readLines {lines : List (List UInt8)} {values : List String}
    (h : readLines lines = .ok values) : ∃ texts, lines = List.map Text.encode texts := by
  induction lines generalizing values with
  | nil => exact ⟨[], rfl⟩
  | cons line lines ih =>
    rw [readLines] at h
    cases hline : String.fromUTF8? line.toByteArray with
    | none =>
      rw [hline] at h
      cases h
    | some text =>
      rw [hline] at h
      dsimp only at h
      cases hrest : readLines lines with
      | error e =>
        rw [hrest] at h
        cases h
      | ok rest =>
        obtain ⟨texts, rfl⟩ := ih hrest
        refine ⟨text.toList :: texts, ?_⟩
        rw [List.map_cons, (Text.fromUTF8?_toByteArray_iff line text).1 hline]

theorem readLines_error {lines : List (List UInt8)} {e : CommandError}
    (h : readLines lines = .error e) : e = .unreadableInput := by
  induction lines with
  | nil => cases h
  | cons line lines ih =>
    rw [readLines] at h
    cases hline : String.fromUTF8? line.toByteArray with
    | none =>
      rw [hline] at h
      cases h
      rfl
    | some text =>
      rw [hline] at h
      dsimp only at h
      cases hrest : readLines lines with
      | error e' =>
        rw [hrest] at h
        cases h
        exact ih hrest
      | ok rest =>
        rw [hrest] at h
        cases h

/-- Reading line by line is the same as decoding the whole input. -/
theorem readLines_split (input : ByteArray) :
    readLines (Text.split 10 input.data.toList) =
      match String.fromUTF8? input with
      | some text => .ok (valueLines text)
      | none => .error .unreadableInput := by
  cases hinput : String.fromUTF8? input with
  | some text =>
    rw [← (Text.fromUTF8?_eq_some_iff input text).1 hinput, Text.split_encode,
      readLines_of_decoded]
    rfl
  | none =>
    cases hread : readLines (Text.split 10 input.data.toList) with
    | error e => rw [readLines_error hread]
    | ok values =>
      obtain ⟨texts, htexts⟩ := exists_decoded_of_readLines hread
      have hwhole := Text.intercalate_split 10 input.data.toList
      rw [htexts, ← Text.encode_intercalate] at hwhole
      have hsome := (Text.fromUTF8?_eq_some_iff input
        (String.ofList (['\n'].intercalate texts))).2 (by rw [String.toList_ofList, hwhole])
      rw [hinput] at hsome
      cases hsome

end Command

end IntervalRules
