/-!
Byte offsets into the UTF-8 form of a text. An offset names a suffix of the text if a
character starts there or the text ends there.
-/

namespace IntervalRules.Text

/-- The bytes that characters take in UTF-8. -/
def byteLength : List Char → Nat
  | [] => 0
  | c :: cs => c.utf8Size + byteLength cs

/-- The rest of a text from a byte offset on. -/
def suffixAt? : Nat → List Char → Option (List Char)
  | 0, cs => some cs
  | _ + 1, [] => none
  | n + 1, c :: cs => if c.utf8Size ≤ n + 1 then suffixAt? (n + 1 - c.utf8Size) cs else none

/-- The longest front of a text that takes no more than the given bytes. -/
def takeBytes : Nat → List Char → List Char
  | _, [] => []
  | n, c :: cs => if c.utf8Size ≤ n then c :: takeBytes (n - c.utf8Size) cs else []

/-- What `takeBytes` leaves. -/
def dropBytes : Nat → List Char → List Char
  | _, [] => []
  | n, c :: cs => if c.utf8Size ≤ n then dropBytes (n - c.utf8Size) cs else c :: cs

theorem takeBytes_append_dropBytes (n : Nat) (cs : List Char) :
    takeBytes n cs ++ dropBytes n cs = cs := by
  induction cs generalizing n with
  | nil => rfl
  | cons c cs ih => by_cases h : c.utf8Size ≤ n <;> simp [takeBytes, dropBytes, h, ih]

theorem byteLength_append (front back : List Char) :
    byteLength (front ++ back) = byteLength front + byteLength back := by
  induction front with
  | nil => simp [byteLength]
  | cons c front ih =>
    rw [List.cons_append, byteLength, ih, byteLength]
    omega

theorem byteLength_pos {cs : List Char} (h : cs ≠ []) : 0 < byteLength cs := by
  cases cs with
  | nil => exact absurd rfl h
  | cons c cs => exact Nat.add_pos_left (Char.utf8Size_pos c) (byteLength cs)

theorem takeBytes_byteLength (front back : List Char) :
    takeBytes (byteLength front) (front ++ back) = front := by
  induction front with
  | nil =>
    cases back with
    | nil => rfl
    | cons c back =>
      have pos := Char.utf8Size_pos c
      rw [List.nil_append, byteLength, takeBytes, if_neg (by omega)]
  | cons c front ih => simp [byteLength, takeBytes, ih]

theorem dropBytes_byteLength (front back : List Char) :
    dropBytes (byteLength front) (front ++ back) = back := by
  have whole := takeBytes_append_dropBytes (byteLength front) (front ++ back)
  rw [takeBytes_byteLength] at whole
  exact List.append_cancel_left whole

/-- The character that starts at a byte offset. -/
def codePointAt? (text : String) (offset : Nat) : Option Char :=
  (suffixAt? offset text.toList).bind List.head?

theorem suffixAt?_byteLength (front back : List Char) :
    suffixAt? (byteLength front) (front ++ back) = some back := by
  induction front with
  | nil => simp [byteLength, suffixAt?]
  | cons c front ih =>
    have pos := Char.utf8Size_pos c
    obtain ⟨n, hn⟩ : ∃ n, c.utf8Size + byteLength front = n + 1 :=
      ⟨_, (Nat.succ_pred (by omega)).symm⟩
    rw [byteLength, hn, List.cons_append, suffixAt?, if_pos (by omega),
      show n + 1 - c.utf8Size = byteLength front by omega]
    exact ih

theorem exists_front_of_suffixAt? {offset : Nat} {cs back : List Char}
    (h : suffixAt? offset cs = some back) :
    ∃ front, cs = front ++ back ∧ byteLength front = offset := by
  induction cs generalizing offset with
  | nil =>
    cases offset with
    | zero =>
      cases h
      exact ⟨[], rfl, rfl⟩
    | succ => cases h
  | cons c cs ih =>
    cases offset with
    | zero =>
      cases h
      exact ⟨[], rfl, rfl⟩
    | succ n =>
      rw [suffixAt?] at h
      split at h
      · rename_i hle
        obtain ⟨front, rfl, hlength⟩ := ih h
        refine ⟨c :: front, rfl, ?_⟩
        rw [byteLength, hlength]
        omega
      · cases h

end IntervalRules.Text
