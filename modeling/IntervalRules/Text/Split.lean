/-!
Splitting a text, of characters or of bytes, at every occurrence of one of them.
-/

namespace IntervalRules.Text

variable {α : Type} [DecidableEq α]

/-- The parts between the separators; there is one more part than there are separators. -/
def split (separator : α) : List α → List (List α)
  | [] => [[]]
  | c :: rest =>
    if c = separator then [] :: split separator rest
    else
      match split separator rest with
      | [] => [[c]]
      | part :: parts => (c :: part) :: parts

theorem split_ne_nil (separator : α) (cs : List α) : split separator cs ≠ [] := by
  cases cs with
  | nil => simp [split]
  | cons c rest =>
    unfold split
    split
    · simp
    · split <;> simp

/-- The first separator ends the first part. -/
theorem split_append {separator : α} {front : List α} (h : separator ∉ front)
    (rest : List α) :
    split separator (front ++ separator :: rest) = front :: split separator rest := by
  induction front with
  | nil => rw [List.nil_append, split, if_pos rfl]
  | cons c front ih =>
    obtain ⟨hc, hfront⟩ := List.ne_and_not_mem_of_not_mem_cons h
    rw [List.cons_append, split, if_neg hc.symm, ih hfront]

theorem split_of_not_mem {separator : α} {cs : List α} (h : separator ∉ cs) :
    split separator cs = [cs] := by
  induction cs with
  | nil => rfl
  | cons c cs ih =>
    obtain ⟨hc, hcs⟩ := List.ne_and_not_mem_of_not_mem_cons h
    rw [split, if_neg hc.symm, ih hcs]

example : split '.' "a..b".toList = ["a".toList, [], "b".toList] := by decide

end IntervalRules.Text
